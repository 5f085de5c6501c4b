import DrawStream.Device.Recorder
import DrawStream.Proofs.Refusals
import DrawStream.Proofs.WholeNumbers
import DrawStream.Proofs.Writing

/-! # Whole numbers for uniforms, from the text of a command to the device

A command carries the numbers for a uniform as 32-bit floating-point numbers, whatever the type
of the uniform.  Whole numbers that are written in decimal are rounded to such numbers when the
command is read, and made whole again when they are uploaded to a uniform that takes only
whole numbers.  What reaches the device is therefore what rounding has left of each of them
(`Single.keptWhole`). -/
namespace DrawStream
open Command (Id)

namespace Command
open DrawStream.Json

/-- The text spells a list of one command, which sets a uniform to whole numbers.  Its members
stand in any order, and the numbers are written in decimal. -/
def SpellsWholeUniform (id : Id) (name : String) (type : UniformType) (ints : List (Word .i32))
    (text : String) : Prop :=
  ∃ members : List (String × Json),
    members.Perm [("cmd", .text "uniform"), ("program", whole id), ("name", .text name),
      ("type", word type), ("value", .list (ints.map whole))] ∧
    Padded (Spelled (.list [.object members])) text.toList

/-- The command that the text is read as. -/
def wholeUniform (id : Id) (name : String) (type : UniformType) (ints : List (Word .i32)) :
    Command := .uniform id name type (ints.map fun w => .ofInt w.val)

theorem readAll_of_spellsWholeUniform {id : Id} {name : String} {type : UniformType}
    {ints : List (Word .i32)} {text : String} (h : SpellsWholeUniform id name type ints text) :
    readAll text = .ok [wholeUniform id name type ints] := by
  obtain ⟨members, order, htext⟩ := h
  have hnumbers : NumbersForm (ints.map fun w => .ofInt w.val) (.list (ints.map whole)) := by
    have hlist := NumbersForm.list (ints.map fun w => .whole w.val)
    rw [List.map_map, List.map_map] at hlist
    exact hlist
  exact readAll_of_spelledBy ⟨_, .cons (.object (.uniform id name type hnumbers) order) .nil, htext⟩

/-- The least whole number above zero that needs 25 bits. -/
def oddWhole : Word .i32 := ⟨16777217, by decide, by decide⟩

/-- A text that gives it to a uniform. -/
def oddWholeText : String :=
  "[\x7b\"cmd\":\"uniform\",\"program\":7,\"name\":\"x\",\"type\":\"int\",\"value\":[16777217]\x7d]"

theorem spells_oddWholeText :
    SpellsWholeUniform ⟨7, by decide, by decide⟩ "x" .int [oddWhole] oddWholeText := by
  refine ⟨_, .refl _, ?_⟩
  have htag : Spells 1 (.text "uniform") _ := ⟨_, spellsChars_plain (by decide), rfl⟩
  have hprogram : Spells 1 (whole (⟨7, by decide, by decide⟩ : Id)) ['7'] :=
    ⟨by decide, by decide, by decide⟩
  have hname : Spells 1 (.text "x") _ := ⟨_, spellsChars_plain (by decide), rfl⟩
  have htype : Spells 1 (word UniformType.int) _ := ⟨_, spellsChars_plain (by decide), rfl⟩
  have hwhole : Spells 0 (whole oddWhole) "16777217".toList := ⟨by decide, by decide, by decide⟩
  have hvalue : Spells 1 (.list [whole oddWhole]) _ := ⟨_, .some (.one (padded_self hwhole)), rfl⟩
  have hmembers := Series.more (spellsMember_plain "cmd" (by decide) htag)
    (.more (spellsMember_plain "program" (by decide) hprogram)
      (.more (spellsMember_plain "name" (by decide) hname)
        (.more (spellsMember_plain "type" (by decide) htype)
          (.one (spellsMember_plain "value" (by decide) hvalue)))))
  exact padded_self ⟨3, _, .some (.one (padded_self ⟨_, .some hmembers, rfl⟩)), by decide⟩

end Command

namespace Program
variable {σ : Type} [Device σ]

/-- The program has a location for the uniform: one that it knows already, or one that the
device names when it is asked. -/
inductive Locates (p : Program) (name : String) (d : σ) (location : Int) : List Call → Prop
  | known (found : p.cache.locations.lookup name = some location) : Locates p name d location []
  | asked (unknown : p.Unknown name)
      (answered : (Device.answer (.uniformLocation p.handle name) d).1 = location)
      (declared : 0 ≤ location) : Locates p name d location [.uniformLocation name]

/-- A value that is not refused and is sent by one request makes two calls. -/
theorem settle_upload (p : Program) (name : String) {type : UniformType} {value : UniformValue}
    (location : Int) {q : Request Unit} {c : Call} (haccepted : type.refusal? value = none)
    (hupload : upload location type value = Script.request q)
    (hcall : Call.ofAnswer? q () = some c) (d : σ) :
    ((p.settle (.uniform name type value) location).run d).value.1 = .ok () ∧
      Event.calls ((p.settle (.uniform name type value) location).run d).events =
        [.useProgram p.handle, c] := by
  have hrefusal : (Assignment.uniform name type value).refusal? = none := by
    simp [Assignment.refusal?, haccepted]
  simp only [settle, hrefusal, Assignment.send, hupload, Dialogue.bind_eq, Script.run_bind]
  refine ⟨rfl, ?_⟩
  rw [Event.calls_append, Event.calls_append]
  simp [activate, Script.request, Dialogue.question, Act.perform, Event.calls, stored, hcall]
  rfl

/-- Such a value is uploaded to a uniform that the program has. -/
theorem setUniform_upload {p : Program} {name : String} {type : UniformType}
    {value : UniformValue} {location : Int} {asked : List Call} {q : Request Unit} {c : Call}
    {d : σ}
    (hlinked : p.linked = true) (hlocates : p.Locates name d location asked)
    (haccepted : type.refusal? value = none)
    (hupload : upload location type value = Script.request q)
    (hcall : Call.ofAnswer? q () = some c) :
    ((p.setUniform name type value).run d).value.1 = .ok () ∧
      Event.calls ((p.setUniform name type value).run d).events =
        asked ++ [.useProgram p.handle, c] := by
  have hassign : p.setUniform name type value = p.assign (.uniform name type value) :=
    perform_eq_assign p (.uniform name type value)
  rw [hassign]
  cases hlocates with
  | known found =>
    rw [assign_of_located (a := .uniform name type value) hlinked found]
    exact settle_upload p name location haccepted hupload hcall d
  | asked unknown answered declared =>
    rw [assign_of_unknown (a := .uniform name type value) hlinked unknown, Script.run_bind]
    have hrequest : (Script.request (p.locationRequest .uniform name)).run d =
        ⟨location, (Device.answer (.uniformLocation p.handle name) d).2,
          [.call (.uniformLocation name)]⟩ := by
      simp only [Script.request, Dialogue.question, Script.run_ask, Script.run_done, Act.perform,
        locationRequest, answered, List.append_nil]
      rfl
    have hsettle := settle_upload (p.learn name location) name location haccepted hupload hcall
      (Device.answer (.uniformLocation p.handle name) d).2
    rw [handle_learn] at hsettle
    simp only [Assignment.kind, Assignment.name, hrequest, if_neg (Int.not_lt.mpr declared)]
    exact ⟨hsettle.1, by rw [Event.calls_append, hsettle.2]; rfl⟩

/-- Whole numbers are uploaded to a uniform that the program has. -/
theorem setUniform_wholes {p : Program} {name : String} {type : UniformType}
    (data : List Single) {components : Nat} {location : Int} {asked : List Call} {d : σ}
    (hlinked : p.linked = true) (hlocates : p.Locates name d location asked)
    (htype : type.upload = .ints components) (hlength : data.length ≠ 0)
    (hwhole : data.length % components = 0) :
    ((p.setUniform name type (.floats data)).run d).value.1 = .ok () ∧
      Event.calls ((p.setUniform name type (.floats data)).run d).events = asked ++
        [.useProgram p.handle, .uniformInts location components (data.map Single.toInt)] := by
  have hcomponents : type.components = components := by rw [UniformType.components, htype]; rfl
  have haccepted : type.refusal? (.floats data) = none := by
    simp [UniformType.refusal?, UniformValue.length, hlength, hcomponents, hwhole]
  have hupload : upload location type (.floats data) =
      Script.request (.uniformInts location components (data.map Single.toInt)) := by
    simp only [upload, htype]
    rfl
  exact setUniform_upload hlinked hlocates haccepted hupload rfl

end Program

namespace Context
variable {σ : Type} [Device σ]

/-- Setting a uniform by a command is setting it on the program. -/
theorem run_execute_uniform {c : Context} {id : Id} {p : Program}
    (hprogram : c.object? id = some (.program p)) (name : String) (type : UniformType)
    (value : List Single) (d : σ) :
    (c.execute (.uniform id name type value)).run d =
      let ran := (p.setUniform name type (.floats value)).run d
      ⟨(ran.value.1, c.put id (.program ran.value.2)), ran.device,
        .note (.executing (.uniform id name type value)) :: ran.events⟩ := by
  simp [execute, carryOut, onProgram, program_of_object? hprogram, Script.run_bind]

/-- **Whole numbers in a command reach the device as rounding leaves them**: off by half a unit
at most, and unchanged just where they have 24 bits with any number of zeros behind them, or are
the greatest number of all. -/
theorem whole_uniform_uploaded {c : Context} {d : σ} {id : Id} {p : Program} {name : String}
    {type : UniformType} {components : Nat} {ints : List (Word .i32)} {text : String}
    {location : Int} {asked : List Call}
    (htext : Command.SpellsWholeUniform id name type ints text)
    (hprogram : c.object? id = some (.program p)) (hlinked : p.linked = true)
    (hlocates : p.Locates name d location asked) (htype : type.upload = .ints components)
    (hlength : ints.length ≠ 0) (hwhole : ints.length % components = 0) :
    ∃ command, Command.readAll text = .ok [command] ∧
      ((c.execute command).run d).value.1 = .ok () ∧
      Event.calls ((c.execute command).run d).events = asked ++
        [.useProgram p.handle,
          .uniformInts location components (ints.map fun w => Single.keptWhole w.val)] ∧
      (∀ w ∈ ints, 2 * (Single.keptWhole w.val - w.val).natAbs ≤ Single.unitOf w.val.natAbs) ∧
      ((ints.map fun w => Single.keptWhole w.val) = ints.map Word.val ↔
        ∀ w ∈ ints, (∃ m k, m < 2 ^ 24 ∧ w.val.natAbs = m * 2 ^ k) ∨
          w.val = Single.greatestInt) := by
  have hgreatest (w : Word .i32) : w.val ≤ Single.greatestInt := w.le_greatest
  have hback : (ints.map fun w => Single.ofInt w.val).map Single.toInt =
      ints.map fun w => Single.keptWhole w.val := by
    rw [List.map_map]
    refine List.map_congr_left fun w _ => Single.toInt_ofInt ?_
    have hleast : -2147483648 ≤ w.val := w.least_le
    have hmost : w.val ≤ 2147483647 := w.le_greatest
    omega
  obtain ⟨hok, hcalls⟩ := Program.setUniform_wholes (ints.map fun w => .ofInt w.val)
    hlinked hlocates htype (by simpa using hlength) (by simpa using hwhole)
  rw [hback] at hcalls
  refine ⟨_, Command.readAll_of_spellsWholeUniform htext, ?_, ?_,
    fun w _ => Single.keptWhole_near (hgreatest w), ?_⟩
  · rw [Command.wholeUniform, run_execute_uniform hprogram]
    exact hok
  · rw [Command.wholeUniform, run_execute_uniform hprogram]
    exact hcalls
  · rw [List.map_inj_left]
    exact forall₂_congr fun w _ => Single.keptWhole_eq_iff (hgreatest w)

/-- A recorder whose programs have that uniform. -/
def oneWhole : Recorder := { lastHandle := 1, uniforms := [⟨"x", 0x1404, 1⟩] }

theorem locates_oneWhole : ({ handle := 1, linked := true } : Program).Locates "x" oneWhole 0
    [.uniformLocation "x"] :=
  .asked ⟨rfl, by decide⟩ (by decide) (by decide)

theorem oddWhole_uploaded :
    ∃ command, Command.readAll Command.oddWholeText = .ok [command] ∧
      ((withSeven.execute command).run oneWhole).value.1 = .ok () ∧
      Event.calls ((withSeven.execute command).run oneWhole).events =
        [.uniformLocation "x", .useProgram 1, .uniformInts 0 1 [Single.keptWhole 16777217]] := by
  obtain ⟨command, hread, hok, hcalls, -⟩ := whole_uniform_uploaded Command.spells_oddWholeText
    (show withSeven.object? ⟨7, by decide, by decide⟩ = some _ from rfl) rfl locates_oneWhole rfl
    (by decide) (by decide)
  exact ⟨command, hread, hok, hcalls⟩

/-- The number is written in decimal, fits 32 bits and is meant for a uniform that the program
has, but another number is uploaded. -/
theorem oddWhole_not_exact : ∃ p command,
    Command.SpellsWholeUniform ⟨7, by decide, by decide⟩ "x" .int [Command.oddWhole]
      Command.oddWholeText ∧
    withSeven.object? ⟨7, by decide, by decide⟩ = some (.program p) ∧ p.linked = true ∧
    p.Locates "x" oneWhole 0 [.uniformLocation "x"] ∧
    Command.readAll Command.oddWholeText = .ok [command] ∧
    Event.calls ((withSeven.execute command).run oneWhole).events =
      [.uniformLocation "x", .useProgram 1, .uniformInts 0 1 [16777216]] ∧
    [16777216] ≠ [Command.oddWhole].map Word.val := by
  have hread := Command.readAll_of_spellsWholeUniform Command.spells_oddWholeText
  refine ⟨_, _, Command.spells_oddWholeText, rfl, rfl, locates_oneWhole, hread, ?_, by decide⟩
  decide +kernel

end Context
end DrawStream
