import DrawStream.Command.Basic
import DrawStream.Proofs.Records
import Mathlib.Data.List.Forall2

/-! # The forms of commands in JSON

`Form c v` says that the JSON value `v` stands for the command `c`: an object with the tag
under `cmd` and the fields under their names, in any order.  Whole numbers stand as they
are, choices as their words, pairs as lists of two.  A 32-bit number stands as any number
that is rounded to it.  A union stands as the contents of its case, without a name.  The
offset may be left out where it is byte 0; a shape that is none is left out or null.

The names are written out here once more, so that the forms say by themselves what commands
look like.  Each part of a form is read as what it stands for (`StorageForm.read` and so
on), and behind its tag a command is a record written field by field (`Members.written`).
What is written of a command is one of its forms (`form_encode`). -/
namespace DrawStream

/-! ### Choices -/

/-- Every value of a choice is found by its word. -/
class Choice.Faithful (α : Type) [Choice α] : Prop where
  ofWord?_word : ∀ a : α, Choice.ofWord? (Choice.word a) = some a

section
open Choice

instance : Faithful ObjectKind := ⟨fun a => by cases a <;> rfl⟩
instance : Faithful ElementType := ⟨fun a => by cases a <;> rfl⟩
instance : Faithful TextureFormat := ⟨fun a => by cases a <;> rfl⟩
instance : Faithful TextureFilter := ⟨fun a => by cases a <;> rfl⟩
instance : Faithful TextureWrap := ⟨fun a => by cases a <;> rfl⟩
instance : Faithful DrawMode := ⟨fun a => by cases a <;> rfl⟩
instance : Faithful IndexType := ⟨fun a => by cases a <;> rfl⟩
instance : Faithful AttributeType := ⟨fun a => by cases a <;> rfl⟩
instance : Faithful UniformType := ⟨fun a => by cases a <;> rfl⟩
instance : Faithful Command.Tag := ⟨fun a => by cases a <;> rfl⟩

end

namespace Command

/-! ### Forms -/

/-- A whole number. -/
def whole {k : WordKind} (w : Word k) : Json := .number (.whole w.val)

/-- A choice. -/
def word {α : Type} [Choice α] (a : α) : Json := .text (Choice.word a)

/-- Two counts. -/
def pair (p : Count × Count) : Json := .list [whole p.1, whole p.2]

/-- 32-bit numbers, each as a number that is rounded to it. -/
inductive NumbersForm : List Single → Json → Prop
  | list (ns : List JsonNumber) : NumbersForm (ns.map JsonNumber.toSingle) (.list (ns.map .number))

/-- The storage of a buffer is its size, that of a texture an object. -/
inductive StorageForm : Storage → Json → Prop
  | bytes (n : Count) : StorageForm (.bytes n) (whole n)
  | texture (shape : Count × Count) (format : TextureFormat) {members : List (String × Json)}
      (order : members.Perm [("shape", pair shape), ("format", word format)]) :
      StorageForm (.texture shape format) (.object members)

/-- An offset is a byte, or the row and column of a texel. -/
inductive OffsetForm : Offset → Json → Prop
  | linear (n : Count) : OffsetForm (.linear n) (whole n)
  | texel (place : Count × Count) : OffsetForm (.texel place) (pair place)

/-- The member for an offset; byte 0 needs none. -/
inductive OffsetMember : Offset → List (String × Json) → Prop
  | written {offset : Offset} {v : Json} (form : OffsetForm offset v) :
      OffsetMember offset [("offset", v)]
  | omitted : OffsetMember (.linear (.zero _)) []

/-- The member for a shape; no shape is null, or no member. -/
inductive ShapeMember : Option (Count × Count) → List (String × Json) → Prop
  | written (shape : Count × Count) : ShapeMember (some shape) [("shape", pair shape)]
  | null : ShapeMember none [("shape", .null)]
  | omitted : ShapeMember none []

/-- Typed numbers are a list under the name of their type. -/
inductive ElementsForm : Elements → Json → Prop
  | i8 (xs : List (Word .i8)) : ElementsForm (.i8 xs) (.object [("i8", .list (xs.map whole))])
  | u8 (xs : List (Word .u8)) : ElementsForm (.u8 xs) (.object [("u8", .list (xs.map whole))])
  | i16 (xs : List (Word .i16)) : ElementsForm (.i16 xs) (.object [("i16", .list (xs.map whole))])
  | u16 (xs : List (Word .u16)) : ElementsForm (.u16 xs) (.object [("u16", .list (xs.map whole))])
  | i32 (xs : List (Word .i32)) : ElementsForm (.i32 xs) (.object [("i32", .list (xs.map whole))])
  | u32 (xs : List (Word .u32)) : ElementsForm (.u32 xs) (.object [("u32", .list (xs.map whole))])
  | f32 {xs : List Single} {v : Json} (form : NumbersForm xs v) :
      ElementsForm (.f32 xs) (.object [("f32", v)])

/-- A source in a buffer is an object, a constant one a list. -/
inductive SourceForm : Source → Json → Prop
  | buffer (id : Id) (stride : Word .i32) (offset : Count) {members : List (String × Json)}
      (order : members.Perm [("buffer", whole id), ("stride", whole stride),
        ("offset", whole offset)]) :
      SourceForm (.buffer id stride offset) (.object members)
  | constant {xs : List Single} {v : Json} (form : NumbersForm xs v) :
      SourceForm (.constant xs) v

/-- Selections are told apart by the names of their fields. -/
inductive SelectionForm : Selection → Json → Prop
  | elements (indices : Id) (type : IndexType) (count : Count) {members : List (String × Json)}
      (order : members.Perm [("index_buffer", whole indices), ("index_type", word type),
        ("count", whole count)]) :
      SelectionForm (.elements indices type count) (.object members)
  | range (first count : Count) {members : List (String × Json)}
      (order : members.Perm [("first", whole first), ("count", whole count)]) :
      SelectionForm (.range first count) (.object members)

/-- The members of a command in the order of declaration, the tag first. -/
inductive Members : Command → List (String × Json) → Prop
  | create (id : Id) (kind : ObjectKind) :
      Members (.create id kind)
        [("cmd", .text "create"), ("id", whole id), ("kind", word kind)]
  | delete (id : Id) : Members (.delete id) [("cmd", .text "delete"), ("id", whole id)]
  | shaders (id : Id) (vertex fragment : String) :
      Members (.shaders id vertex fragment)
        [("cmd", .text "shaders"), ("id", whole id), ("vertex", .text vertex),
          ("fragment", .text fragment)]
  | size (id : Id) {storage : Storage} {v : Json} (form : StorageForm storage v) :
      Members (.size id storage) [("cmd", .text "size"), ("id", whole id), ("size", v)]
  | data (id : Id) {offset : Offset} {shape : Option (Count × Count)} {elements : Elements}
      {offsetMember shapeMember : List (String × Json)} {v : Json}
      (offsetForm : OffsetMember offset offsetMember) (shapeForm : ShapeMember shape shapeMember)
      (form : ElementsForm elements v) :
      Members (.data id offset shape elements)
        (("cmd", .text "data") :: ("id", whole id) ::
          (offsetMember ++ (shapeMember ++ [("data", v)])))
  | attribute (program : Id) (name : String) (type : AttributeType) {value : Source} {v : Json}
      (form : SourceForm value v) :
      Members (.attribute program name type value)
        [("cmd", .text "attribute"), ("program", whole program), ("name", .text name),
          ("type", word type), ("value", v)]
  | uniform (program : Id) (name : String) (type : UniformType) {value : List Single} {v : Json}
      (form : NumbersForm value v) :
      Members (.uniform program name type value)
        [("cmd", .text "uniform"), ("program", whole program), ("name", .text name),
          ("type", word type), ("value", v)]
  | texture (program : Id) (name : String) (image : Id) :
      Members (.texture program name image)
        [("cmd", .text "texture"), ("program", whole program), ("name", .text name),
          ("texture", whole image)]
  | interpolation (id : Id) (min mag : TextureFilter) :
      Members (.interpolation id min mag)
        [("cmd", .text "interpolation"), ("id", whole id), ("min", word min), ("mag", word mag)]
  | wrapping (id : Id) (wrap : TextureWrap × TextureWrap) :
      Members (.wrapping id wrap)
        [("cmd", .text "wrapping"), ("id", whole id), ("wrap", .list [word wrap.1, word wrap.2])]
  | draw (program : Id) (mode : DrawMode) {selection : Selection} {v : Json}
      (form : SelectionForm selection v) :
      Members (.draw program mode selection)
        [("cmd", .text "draw"), ("program", whole program), ("mode", word mode),
          ("selection", v)]

/-- The value stands for the command. -/
inductive Form : Command → Json → Prop
  | object {c : Command} {members given : List (String × Json)} (form : Members c members)
      (order : given.Perm members) : Form c (.object given)

/-! ### Reading parts -/

theorem read_whole {k : WordKind} (w : Word k) : Codec.read (whole w) = .ok w := by
  simp [whole, Codec.read, Codec.readWord]

theorem readChoice_word {α : Type} [Choice α] [Choice.Faithful α] (empty : Json → Bool) (a : α) :
    Codec.readChoice empty (word a) = .ok a := by
  simp [word, Codec.readChoice, Codec.splitName, Codec.readName, Choice.Faithful.ofWord?_word]

theorem read_word {α : Type} [Choice α] [Choice.Faithful α] (a : α) :
    Codec.read (word a) = .ok a :=
  readChoice_word Codec.isUnit a

/-- Lists are read item by item. -/
theorem readList_map {α β : Type} [Codec α] {form : β → Json} {value : β → α}
    (h : ∀ b, Codec.read (form b) = .ok (value b)) (bs : List β) :
    Codec.readList (.list (bs.map form)) = .ok (bs.map value) := by
  have hread : (Codec.read ∘ form : β → Except Mismatch α) = fun b => pure (value b) := funext h
  rw [Codec.readList, List.mapM_map, hread, List.mapM_pure]
  rfl

theorem readList_whole {k : WordKind} (xs : List (Word k)) :
    Codec.readList (.list (xs.map whole)) = .ok xs := by
  simpa using readList_map read_whole xs

theorem readPair_of {α : Type} [Codec α] {v w : Json} {a b : α} (ha : Codec.read v = .ok a)
    (hb : Codec.read w = .ok b) : Codec.readPair (.list [v, w]) = .ok (a, b) := by
  simp [Codec.readPair, ha, hb]

theorem read_pair (p : Count × Count) : Codec.read (pair p) = .ok p :=
  readPair_of (read_whole p.1) (read_whole p.2)

theorem NumbersForm.read {xs : List Single} {v : Json} (h : NumbersForm xs v) :
    Codec.read v = .ok xs := by
  cases h with
  | list ns => exact readList_map (fun _ => rfl) ns

/-- An alternative that fits is taken. -/
theorem firstOf_fits {α : Type} {union : String} {read : Json → Except Mismatch α}
    {rest : List (Json → Except Mismatch α)} {v : Json} {a : α} (h : read v = .ok a) :
    Codec.firstOf union (read :: rest) v = .ok a := by
  simp [Codec.firstOf, h]

/-- One that does not fit is passed over. -/
theorem firstOf_passes {α : Type} {union : String} {read : Json → Except Mismatch α}
    {rest : List (Json → Except Mismatch α)} {v : Json} {a : α}
    (h : ∃ cause, read v = .error cause) (hrest : Codec.firstOf union rest v = .ok a) :
    Codec.firstOf union (read :: rest) v = .ok a := by
  obtain ⟨cause, h⟩ := h
  simp [Codec.firstOf, h, hrest]

theorem StorageForm.read {storage : Storage} {v : Json} (h : StorageForm storage v) :
    Codec.read v = .ok storage := by
  cases h with
  | bytes n => exact firstOf_fits (by rw [read_whole]; rfl)
  | @texture shape format members order =>
    have hslots : Slots.ofMembers Storage.textureFields members = .ok (shape, format, ()) :=
      Slots.ofMembers_of_written (by decide)
        (.member (read_pair shape) (.member (readChoice_word _ format) .nil)) order
    exact firstOf_passes ⟨_, rfl⟩ (firstOf_fits (by rw [Slots.ofObject, hslots]; rfl))

theorem OffsetForm.read {offset : Offset} {v : Json} (h : OffsetForm offset v) :
    Codec.read v = .ok offset := by
  cases h with
  | linear n => exact firstOf_fits (by rw [read_whole]; rfl)
  | texel place => exact firstOf_passes ⟨_, rfl⟩ (firstOf_fits (by rw [read_pair]; rfl))

theorem ElementsForm.read {elements : Elements} {v : Json} (h : ElementsForm elements v) :
    Codec.read v = .ok elements := by
  -- the only key is the word of a type, which is found
  have hread : ∀ (type : ElementType) (list : Json), 
      Elements.read (.object [(Choice.word type, list)]) = Elements.readAs list type := by
    intro type list
    simp [Elements.read, Codec.splitName, Codec.readName, Choice.Faithful.ofWord?_word]
  cases h with
  | i8 xs => exact (hread .i8 _).trans (by rw [Elements.readAs, readList_whole]; rfl)
  | u8 xs => exact (hread .u8 _).trans (by rw [Elements.readAs, readList_whole]; rfl)
  | i16 xs => exact (hread .i16 _).trans (by rw [Elements.readAs, readList_whole]; rfl)
  | u16 xs => exact (hread .u16 _).trans (by rw [Elements.readAs, readList_whole]; rfl)
  | i32 xs => exact (hread .i32 _).trans (by rw [Elements.readAs, readList_whole]; rfl)
  | u32 xs => exact (hread .u32 _).trans (by rw [Elements.readAs, readList_whole]; rfl)
  | @f32 xs v form =>
    have hlist : Codec.readList v = .ok xs := form.read
    exact (hread .f32 v).trans (by rw [Elements.readAs, hlist]; rfl)

theorem SourceForm.read {source : Source} {v : Json} (h : SourceForm source v) :
    Codec.read v = .ok source := by
  cases h with
  | @buffer id stride offset members order =>
    have hslots : Slots.ofMembers Source.bufferFields members = .ok (id, stride, offset, ()) :=
      Slots.ofMembers_of_written (by decide) (.member (read_whole id)
        (.member (read_whole stride) (.member (read_whole offset) .nil))) order
    exact firstOf_fits (by rw [Slots.ofObject, hslots]; rfl)
  | @constant xs v form =>
    refine firstOf_passes ?_ (firstOf_fits (by rw [form.read]; rfl))
    cases form with
    | list ns => exact ⟨_, rfl⟩

theorem SelectionForm.read {selection : Selection} {v : Json} (h : SelectionForm selection v) :
    Codec.read v = .ok selection := by
  cases h with
  | @elements indices type count members order =>
    have hslots : Slots.ofMembers Selection.elementFields members =
        .ok (indices, type, count, ()) :=
      Slots.ofMembers_of_written (by decide) (.member (read_whole indices)
        (.member (readChoice_word _ type) (.member (read_whole count) .nil))) order
    exact firstOf_fits (by rw [Slots.ofObject, hslots]; rfl)
  | @range first count members order =>
    have hslots : Slots.ofMembers Selection.rangeFields members = .ok (first, count, ()) :=
      Slots.ofMembers_of_written (by decide)
        (.member (read_whole first) (.member (read_whole count) .nil)) order
    -- it has no index buffer, so it is no selection by indices
    have hmissing : "index_buffer" ∉ keys members := by
      rw [keys, (order.map Prod.fst).mem_iff]
      simp
    obtain ⟨cause, helements⟩ :
        ∃ cause, Slots.ofMembers Selection.elementFields members = .error cause :=
      Slots.ofMembers_of_missing (by decide) rfl hmissing
    exact firstOf_passes ⟨cause, by rw [Slots.ofObject, helements]; rfl⟩
      (firstOf_fits (by rw [Slots.ofObject, hslots]; rfl))

/-! ### Reading commands -/

theorem nodup_fields (t : Tag) : (t.fields.map Field.name).Nodup := by cases t <;> decide

theorem tagKey_not_mem_fields (t : Tag) : tagKey ∉ t.fields.map Field.name := by
  cases t <;> decide

theorem OffsetMember.append {offset : Offset} {members tail : List (String × Json)}
    {fs : List Field} {rest : Slots fs} (h : OffsetMember offset members)
    (htail : Slots.Written fs rest tail) :
    Slots.Written (.optional "offset" Offset.start :: fs) (offset, rest) (members ++ tail) := by
  cases h with
  | written form => exact .member form.read htail
  | omitted => exact .omitted rfl htail

theorem ShapeMember.append {shape : Option (Count × Count)} {members tail : List (String × Json)}
    {fs : List Field} {rest : Slots fs} (h : ShapeMember shape members)
    (htail : Slots.Written fs rest tail) :
    Slots.Written (.optional "shape" (none : Option (Count × Count)) :: fs) (shape, rest)
      (members ++ tail) := by
  cases h with
  | written shape =>
    have hread : Codec.readOption (pair shape) = .ok (some shape) :=
      calc Codec.readOption (pair shape) = some <$> Codec.read (pair shape) := rfl
        _ = .ok (some shape) := by rw [read_pair]; rfl
    exact .member hread htail
  | null => exact .member rfl htail
  | omitted => exact .omitted rfl htail

/-- Behind its tag, a command is written field by field. -/
theorem Members.written {c : Command} {members : List (String × Json)} (h : Members c members) :
    ∃ fields, members = (tagKey, word c.tag) :: fields ∧
      Slots.Written c.tag.fields c.slots fields := by
  cases h with
  | create id kind =>
    exact ⟨_, rfl, .member (read_whole id) (.member (read_word kind) .nil)⟩
  | delete id => exact ⟨_, rfl, .member (read_whole id) .nil⟩
  | shaders id vertex fragment =>
    exact ⟨_, rfl, .member (read_whole id) (.member rfl (.member rfl .nil))⟩
  | size id form => exact ⟨_, rfl, .member (read_whole id) (.member form.read .nil)⟩
  | data id offsetForm shapeForm form =>
    exact ⟨_, rfl, .member (read_whole id)
      (offsetForm.append (shapeForm.append (.member form.read .nil)))⟩
  | «attribute» program name type form =>
    exact ⟨_, rfl, .member (read_whole program) (.member rfl
      (.member (read_word type) (.member form.read .nil)))⟩
  | uniform program name type form =>
    exact ⟨_, rfl, .member (read_whole program) (.member rfl
      (.member (read_word type) (.member form.read .nil)))⟩
  | texture program name image =>
    exact ⟨_, rfl, .member (read_whole program) (.member rfl (.member (read_whole image) .nil))⟩
  | interpolation id min mag =>
    exact ⟨_, rfl, .member (read_whole id) (.member (read_word min)
      (.member (read_word mag) .nil))⟩
  | wrapping id wrap =>
    exact ⟨_, rfl, .member (read_whole id) (.member
      (readPair_of (read_word wrap.1) (read_word wrap.2)) .nil)⟩
  | draw program mode form =>
    exact ⟨_, rfl, .member (read_whole program) (.member (read_word mode)
      (.member form.read .nil))⟩

/-! ### Writing -/

/-- The 32-bit numbers of a command. -/
def singles : Command → List Single
  | .data _ _ _ (.f32 xs) | .attribute _ _ _ (.constant xs) | .uniform _ _ _ xs => xs
  | _ => []

/-- The JSON number for `x` is rounded to it. -/
def Denotes (number : Single → Json) (x : Single) : Prop :=
  ∃ n : JsonNumber, number x = .number n ∧ n.toSingle = x

theorem numbersForm_encode {number : Single → Json} {xs : List Single}
    (h : ∀ x ∈ xs, Denotes number x) : NumbersForm xs (Codec.encode number xs) := by
  have hns : ∃ ns : List JsonNumber, xs = ns.map JsonNumber.toSingle ∧
      xs.map number = ns.map .number := by
    induction xs with
    | nil => exact ⟨[], rfl, rfl⟩
    | cons x xs ih =>
      obtain ⟨n, hn, hx⟩ := h x List.mem_cons_self
      obtain ⟨ns, hxs, hnumber⟩ := ih fun y hy => h y (List.mem_cons_of_mem _ hy)
      exact ⟨n :: ns, by rw [List.map_cons, hx, ← hxs],
        by rw [List.map_cons, List.map_cons, hn, hnumber]⟩
  obtain ⟨ns, rfl, hnumber⟩ := hns
  have hform := NumbersForm.list ns
  rw [← hnumber] at hform
  exact hform

theorem members_encode {number : Single → Json} {c : Command}
    (h : ∀ x ∈ c.singles, Denotes number x) :
    Members c ((tagKey, word c.tag) :: Slots.encode number c.tag.fields c.slots) := by
  cases c with
  | create id kind => exact .create id kind
  | delete id => exact .delete id
  | shaders id vertex fragment => exact .shaders id vertex fragment
  | size id storage =>
    cases storage with
    | bytes n => exact .size id (.bytes n)
    | texture shape format => exact .size id (.texture shape format (.refl _))
  | data id offset shape elements =>
    have hoffset : OffsetMember offset [("offset", Codec.encode number offset)] := by
      cases offset with
      | linear n => exact .written (.linear n)
      | texel place => exact .written (.texel place)
    have hshape : ShapeMember shape [("shape", Codec.encode number shape)] := by
      cases shape with
      | none => exact .null
      | some shape => exact .written shape
    have helements : ElementsForm elements (Codec.encode number elements) := by
      cases elements with
      | i8 xs => exact .i8 xs
      | u8 xs => exact .u8 xs
      | i16 xs => exact .i16 xs
      | u16 xs => exact .u16 xs
      | i32 xs => exact .i32 xs
      | u32 xs => exact .u32 xs
      | f32 xs => exact .f32 (numbersForm_encode h)
    exact .data id hoffset hshape helements
  | «attribute» program name type value =>
    cases value with
    | buffer id stride offset =>
      exact .attribute program name type (.buffer id stride offset (.refl _))
    | constant xs => exact .attribute program name type (.constant (numbersForm_encode h))
  | uniform program name type xs => exact .uniform program name type (numbersForm_encode h)
  | texture program name image => exact .texture program name image
  | interpolation id min mag => exact .interpolation id min mag
  | wrapping id wrap => exact .wrapping id wrap
  | draw program mode selection =>
    cases selection with
    | elements indices type count =>
      exact .draw program mode (.elements indices type count (.refl _))
    | range first count => exact .draw program mode (.range first count (.refl _))

/-- What is written of a command stands for it. -/
theorem form_encode {number : Single → Json} {c : Command}
    (h : ∀ x ∈ c.singles, Denotes number x) : Form c (c.encode number) :=
  .object (members_encode h) (.refl _)

end Command
end DrawStream
