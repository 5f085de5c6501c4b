import DrawStream.EntryPoint.Scripted
import DrawStream.Proofs.Encodings

/-! # Texts that a library writes into memory

A log or a name is read back in three steps: the library says how long it is, memory is handed
over, and what the library has written there is taken up to the length it reports.  Three
conventions meet in this.  The length that a library says beforehand counts the zero byte behind
the text, the one that it reports afterwards does not; and the room that it is told includes that
byte, so a text gets one byte less than the room.  For a log the room is one more than the length
that was said, for a name it is the length itself, and the memory is one byte larger than the said
length for both, so there is never less of it than the library is told.
A log keeps as many bytes as were said and a name one less, whatever was said: with too little the
text is cut there, and with enough of it nothing is (`texts_read_back`).  What the memory held
before is never seen, as the library reports no byte that it has not written
(`Written.shown_ofText`). -/
namespace DrawStream

/-! ## Memory -/

/-- Memory for a text. -/
structure TextMemory where
  /-- How many bytes there are. -/
  size : Nat
  /-- How many bytes the library is told of. -/
  room : Int

namespace TextMemory

/-- The memory for a log that is said to take `length` bytes. -/
def ofLog (length : Int) : TextMemory :=
  ⟨Request.roomFor length, Binary.signed 32 (Request.roomFor length)⟩

/-- The memory for a name when the longest one is said to take `length` bytes. -/
def ofName (length : Int) : TextMemory := ⟨Request.roomFor (max length 1), max length 1⟩

theorem room_ofLog {length : Int} (h : length < 2147483647) :
    (ofLog length).room = length.toNat + 1 := by
  have hlt : 2 * Request.roomFor length < Nat.pow 2 32 := by
    simp only [Request.roomFor, Nat.pow_eq]
    omega
  rw [ofLog, Binary.signed_of_lt hlt, Request.roomFor, Int.natCast_add, Int.natCast_one]

/-- A length beyond the range has room below zero, and that is no more than there is. -/
theorem room_ofLog_le_size (length : Int) : (ofLog length).room ≤ (ofLog length).size := by
  simp only [ofLog, Binary.signed, Int.bmod_def, Nat.pow_eq]
  split <;> omega

theorem room_ofName_le_size (length : Int) : (ofName length).room ≤ (ofName length).size := by
  simp only [ofName, Request.roomFor]
  omega

end TextMemory

/-! ## What is written and what is read -/

/-- What a library whose text is `text` leaves in memory of which it is told `room` bytes: as much
of the text as leaves a byte for the zero behind it, and the length without that byte. -/
def Written.ofText (text : List UInt8) (room : Int) : Written :=
  { bytes := text.take (room.toNat - 1) ++ [0], length := (text.take (room.toNat - 1)).length }

/-- Of memory that is as large as the library was told, what was written of the text is seen, and
neither the zero nor a space. -/
theorem Written.shown_ofText (text : List UInt8) {room : Int} {size : Nat} (h : room ≤ size) :
    (Written.ofText text room).shown size = text.take (room.toNat - 1) := by
  generalize hkept : text.take (room.toNat - 1) = kept
  have hlength : kept.length ≤ size := by
    rw [← hkept, List.length_take]
    omega
  have hmin : min (kept.length : Int).toNat size = kept.length := by
    rw [Int.toNat_natCast]
    exact Nat.min_eq_left hlength
  simp only [Written.shown, Written.ofText, hkept, hmin, List.take_left, List.length_append]
  rw [Nat.sub_eq_zero_of_le (Nat.le_add_right _ _), List.replicate_zero, List.append_nil]

/-- A log that a library keeps. -/
inductive LogSource
  | program (handle : Handle)
  | shader (handle : Handle)

namespace LogSource

/-- The request for the log. -/
def request : LogSource → Request String
  | program p => .programLog p
  | shader s => .shaderLog s

/-- The question for the length of the log. -/
def lengthOf : LogSource → EntryPoint Int
  | program p => .programParameter p Device.logLength
  | shader s => .shaderParameter s Device.logLength

/-- The call that has the log written. -/
def write : LogSource → Int → EntryPoint Written
  | program p => .programLog p
  | shader s => .shaderLog s

end LogSource

/-- A variable that a library reports. -/
inductive VariableSource
  | attribute (program : Handle) (index : Nat)
  | uniform (program : Handle) (index : Nat)

namespace VariableSource

/-- The request for the variable. -/
def request : VariableSource → Request Variable
  | «attribute» p i => .activeAttribute p i
  | uniform p i => .activeUniform p i

/-- The question for the length of the longest name. -/
def lengthOf : VariableSource → EntryPoint Int
  | «attribute» p _ => .programParameter p Device.attributeNameLength
  | uniform p _ => .programParameter p Device.uniformNameLength

/-- The call that has the variable written. -/
def write : VariableSource → Int → EntryPoint WrittenVariable
  | «attribute» p i => .activeAttribute p i
  | uniform p i => .activeUniform p i

end VariableSource

/-- Asks for a length, hands over memory for it, and reads what is there then. -/
def TextMemory.reading {β γ : Type} (memory : Int → TextMemory) (lengthOf : EntryPoint Int)
    (write : Int → EntryPoint β) (read : β → Nat → γ) : Dialogue EntryPoint γ :=
  .ask lengthOf fun n => .ask (write (memory n).room) fun w => .done (read w (memory n).size)

/-- The variable in what a library has written. -/
def WrittenVariable.read (w : WrittenVariable) (size : Nat) : Variable :=
  ⟨w.name.text size, w.type, w.size⟩

theorem Request.lowerLog_eq (lengthOf : EntryPoint Int) (write : Int → EntryPoint Written) :
    lowerLog lengthOf write = TextMemory.reading .ofLog lengthOf write Written.text := by
  simp only [lowerLog, TextMemory.reading, TextMemory.ofLog, Dialogue.question,
    Dialogue.bind_eq, Dialogue.ask_bind, Dialogue.done_bind, Dialogue.pure_eq_done]

theorem Request.lowerVariable_eq (lengthOf : EntryPoint Int)
    (write : Int → EntryPoint WrittenVariable) :
    lowerVariable lengthOf write =
      TextMemory.reading .ofName lengthOf write WrittenVariable.read := by
  simp only [lowerVariable, TextMemory.reading, TextMemory.ofName, WrittenVariable.read,
    Dialogue.question, Dialogue.bind_eq, Dialogue.ask_bind, Dialogue.done_bind,
    Dialogue.pure_eq_done]

theorem LogSource.lower_request (log : LogSource) :
    log.request.lower = TextMemory.reading .ofLog log.lengthOf log.write Written.text := by
  cases log <;> exact Request.lowerLog_eq _ _

theorem VariableSource.lower_request (v : VariableSource) :
    v.request.lower = TextMemory.reading .ofName v.lengthOf v.write WrittenVariable.read := by
  cases v <;> exact Request.lowerVariable_eq _ _

/-- A text is read back as far as `kept` bytes go, and as a whole if it is an encoding that is
shorter than the `length` that was said. -/
structure ReadBack (text : List UInt8) (kept : Nat) (length : Int) (result : String) : Prop where
  cut : result = Text.Utf8.lossy (text.take (min text.length kept))
  whole : ∀ t, text = Text.Utf8.encode t → (text.length : Int) < length → result = t

/-- What is kept is the room but for one byte. -/
theorem ReadBack.of_ofText {text : List UInt8} {length : Int} {m : TextMemory} {kept : Nat}
    (hsize : m.room ≤ m.size) (hkept : m.room.toNat - 1 = kept)
    (hwhole : (text.length : Int) < length → text.length ≤ kept) :
    ReadBack text kept length ((Written.ofText text m.room).text m.size) := by
  have htext : (Written.ofText text m.room).text m.size = Text.Utf8.lossy (text.take kept) := by
    rw [Written.text, Written.shown_ofText text hsize, hkept]
  refine ⟨?_, ?_⟩
  · rw [htext, Nat.min_comm, ← List.take_take, List.take_length]
  · rintro t rfl hlt
    rw [htext, List.take_of_length_le (hwhole hlt), Text.Utf8.lossy_encode]

/-! ## Libraries that write texts -/

section Libraries
variable {σ : Type} (answer : {β : Type} → EntryPoint β → σ → β × σ)

/-- Asked for a length and then to write, the library writes `text`, as far as there is room. -/
def WritesText {β : Type} (s : σ) (lengthOf : EntryPoint Int) (write : Int → EntryPoint β)
    (written : β → Written) (text : List UInt8) : Prop :=
  ∀ room, 0 < room → written (answer (write room) (answer lengthOf s).2).1 = .ofText text room

/-- A log keeps as many bytes as were said. -/
theorem readBack_log {s : σ} {log : LogSource} {text : List UInt8}
    (hbound : (answer log.lengthOf s).1 < 2147483647)
    (h : WritesText answer s log.lengthOf log.write id text) :
    ReadBack text (answer log.lengthOf s).1.toNat (answer log.lengthOf s).1
      (log.request.lower.play answer s).1 := by
  have hroom := TextMemory.room_ofLog hbound
  have hwritten := h _ (by omega : 0 < (TextMemory.ofLog (answer log.lengthOf s).1).room)
  have hplay : (log.request.lower.play answer s).1 =
      (Written.ofText text (TextMemory.ofLog (answer log.lengthOf s).1).room).text
        (TextMemory.ofLog (answer log.lengthOf s).1).size := by
    rw [← hwritten, log.lower_request]
    rfl
  rw [hplay]
  exact .of_ofText (TextMemory.room_ofLog_le_size _) (by omega) (by omega)

/-- A name keeps one byte less than was said, and what else is told of the variable arrives. -/
theorem readBack_variable {s : σ} {v : VariableSource} {name : List UInt8}
    (h : WritesText answer s v.lengthOf v.write WrittenVariable.name name) :
    let length := (answer v.lengthOf s).1
    let told := (answer (v.write (max length 1)) (answer v.lengthOf s).2).1
    let result := (v.request.lower.play answer s).1
    ReadBack name (max length 1 - 1).toNat length result.name ∧
      result.type = told.type ∧ result.size = told.size := by
  intro length told result
  have hwritten : told.name = Written.ofText name (TextMemory.ofName length).room :=
    h (max length 1) (by omega)
  have hresult : result = told.read (TextMemory.ofName length).size := by
    simp only [result, v.lower_request]
    rfl
  rw [hresult]
  refine ⟨?_, rfl, rfl⟩
  rw [WrittenVariable.read, hwritten]
  refine .of_ofText (TextMemory.room_ofName_le_size _) ?_ (by omega)
  simp only [TextMemory.ofName]
  omega

/-- **Texts are read back as far as was said**, whatever a library says that they take, if it
writes as much of them as there is room for.  A log keeps the bytes that were said and a name one
less, an encoding that is shorter than was said comes back as it is, and what the library is told
of memory is never more than there is. -/
theorem texts_read_back (s : σ) :
    (∀ (log : LogSource) (text : List UInt8),
      (answer log.lengthOf s).1 < 2147483647 →
      WritesText answer s log.lengthOf log.write id text →
      ReadBack text (answer log.lengthOf s).1.toNat (answer log.lengthOf s).1
        (log.request.lower.play answer s).1) ∧
    (∀ (v : VariableSource) (name : List UInt8),
      WritesText answer s v.lengthOf v.write WrittenVariable.name name →
      let length := (answer v.lengthOf s).1
      let told := (answer (v.write (max length 1)) (answer v.lengthOf s).2).1
      let result := (v.request.lower.play answer s).1
      ReadBack name (max length 1 - 1).toNat length result.name ∧
        result.type = told.type ∧ result.size = told.size) ∧
    (∀ log : LogSource,
      log.request.lower = TextMemory.reading .ofLog log.lengthOf log.write Written.text) ∧
    (∀ v : VariableSource,
      v.request.lower = TextMemory.reading .ofName v.lengthOf v.write WrittenVariable.read) ∧
    ∀ length, (TextMemory.ofLog length).room ≤ (TextMemory.ofLog length).size ∧
      (TextMemory.ofName length).room ≤ (TextMemory.ofName length).size :=
  ⟨fun _ _ hbound h => readBack_log answer hbound h,
    fun _ _ h => readBack_variable answer h,
    LogSource.lower_request, VariableSource.lower_request,
    fun length => ⟨TextMemory.room_ofLog_le_size length, TextMemory.room_ofName_le_size length⟩⟩

end Libraries

/-! ## A library of a script -/

namespace ScriptedLibrary

theorem write_eq_ofText {l : ScriptedLibrary} (h : l.reported = none) (text : String)
    {room : Int} (hroom : 0 < room) :
    l.write text room = .ofText (Text.Utf8.encode text) room := by
  have htake : (room - 1).toNat = room.toNat - 1 := by omega
  simp only [write, Written.ofText, h, if_pos hroom, htake, Option.getD_none]

/-- With the true lengths reported, the library writes its log where one is asked for. -/
theorem writesText_log {l : ScriptedLibrary} (h : l.reported = none) (log : LogSource) :
    WritesText answer l log.lengthOf log.write id (Text.Utf8.encode l.log) := by
  intro room hroom
  cases log <;> exact write_eq_ofText h l.log hroom

/-- And it writes the name of a variable where that is asked for. -/
theorem writesText_variable {l : ScriptedLibrary} (h : l.reported = none) {index : Nat}
    {declared : Variable} (hdeclared : l.declared[index]? = some declared)
    {v : VariableSource} (hv : ∃ p, v = .attribute p index ∨ v = .uniform p index) :
    WritesText answer l v.lengthOf v.write WrittenVariable.name
      (Text.Utf8.encode declared.name) := by
  intro room hroom
  have hname : (l.writeVariable index room).name = l.write declared.name room := by
    rw [writeVariable, hdeclared]
  obtain ⟨p, rfl | rfl⟩ := hv <;> exact hname.trans (write_eq_ofText h declared.name hroom)

end ScriptedLibrary

/-- A library that tells the length of its log, and of its names that none is longer than three
bytes. -/
def tightLibrary : ScriptedLibrary where
  parameters := [(Device.logLength, 12), (Device.attributeNameLength, 4)]
  log := "naïve cast"
  declared := [⟨"naïve", 5126, 1⟩]

/-- The log comes back, and the name is cut within a character. -/
theorem tightLibrary_read_back :
    (WritesText ScriptedLibrary.answer tightLibrary (LogSource.shader 3).lengthOf
        (LogSource.shader 3).write id (Text.Utf8.encode "naïve cast") ∧
      (ScriptedLibrary.answer (LogSource.shader 3).lengthOf tightLibrary).1 < 2147483647 ∧
      ((Request.shaderLog 3).lower.play ScriptedLibrary.answer tightLibrary).1 = "naïve cast") ∧
    (WritesText ScriptedLibrary.answer tightLibrary (VariableSource.attribute 2 0).lengthOf
        (VariableSource.attribute 2 0).write WrittenVariable.name (Text.Utf8.encode "naïve") ∧
      ((Request.activeAttribute 2 0).lower.play ScriptedLibrary.answer tightLibrary).1.name =
        "na\uFFFD") := by
  have hlog := ScriptedLibrary.writesText_log (l := tightLibrary) rfl (.shader 3)
  have hdeclared : tightLibrary.declared[0]? = some ⟨"naïve", 5126, 1⟩ := rfl
  have hname := ScriptedLibrary.writesText_variable (l := tightLibrary) rfl hdeclared ⟨2, .inl rfl⟩
  have hbound :
      (ScriptedLibrary.answer (LogSource.shader 3).lengthOf tightLibrary).1 < 2147483647 := by
    decide
  have hback := texts_read_back ScriptedLibrary.answer tightLibrary
  refine ⟨⟨hlog, hbound, (hback.1 (.shader 3) _ hbound hlog).whole _ rfl (by decide)⟩, hname, ?_⟩
  exact (hback.2.1 (.attribute 2 0) _ hname).1.cut.trans (by decide +kernel)

end DrawStream
