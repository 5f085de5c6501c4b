import DrawStream.Proofs.CommandPlaces

/-! # Which form a value without a tag is read in

Four fields of commands hold values that do not say which of their forms they have: the size
of an object, the offset of an upload, the source of an attribute and the selection of a draw
(`UnionField`).  `Fits` says of each form which values have it, by what stands in them and not
by how they are read.  A value is read in the first form that it fits, in the order of
declaration, and refused just if it fits none (`UnionField.read_iff`, `UnionField.read_refused`).
A fault in one form is never reported, it only makes way for the next.

Of an object, a form looks at the values under the names of its fields and at no others
(`UnionField.read_object`).

The same holds inside of command text.  The value of a field may be exchanged for any other:
the command then holds what the field reads, and all else stays as it was; if the field reads
nothing, the text is refused (`readAll_field_exchanged`).  -/
namespace DrawStream

/-! ### One value of a record -/

theorem Field.Takes.unique {f : Field} {vs : List Json} {a b : f.Value} (h : f.Takes vs a)
    (h' : f.Takes vs b) : a = b := by
  match vs with
  | [] => exact Option.some.inj (h.symm.trans h')
  | [v] => exact Except.ok.inj (h.symm.trans h')
  | _ :: _ :: _ => exact h.elim

/-- A field that must be there takes the one value under its name. -/
theorem Field.takes_required_iff {f : Field} (hrequired : f.absent = none) {vs : List Json}
    {a : f.Value} : f.Takes vs a ↔ ∃ v, vs = [v] ∧ f.Reads v a := by
  constructor
  · intro h
    match vs with
    | [] => cases hrequired.symm.trans h
    | [v] => exact ⟨v, rfl, h⟩
    | _ :: _ :: _ => exact h.elim
  · rintro ⟨v, rfl, h⟩
    exact h

namespace Slots

/-- The value of a field. -/
def get : {fs : List Field} → Slots fs → (i : Fin fs.length) → (fs.get i).Value
  | _ :: _, (a, _), ⟨0, _⟩ => a
  | _ :: _, (_, rest), ⟨i + 1, h⟩ => get rest ⟨i, Nat.lt_of_succ_lt_succ h⟩

/-- The same values, but for this field another. -/
def set : {fs : List Field} → Slots fs → (i : Fin fs.length) → (fs.get i).Value → Slots fs
  | _ :: _, (_, rest), ⟨0, _⟩, b => (b, rest)
  | _ :: _, (a, rest), ⟨i + 1, h⟩, b => (a, set rest ⟨i, Nat.lt_of_succ_lt_succ h⟩ b)

theorem Taken.unique {fs : List Field} {slots slots' : Slots fs}
    {members : List (String × Json)} (h : Taken fs slots members)
    (h' : Taken fs slots' members) : slots = slots' := by
  induction fs with
  | nil => rfl
  | cons f fs ih =>
    obtain ⟨a, rest⟩ := slots
    obtain ⟨a', rest'⟩ := slots'
    exact Prod.ext (h.1.unique h'.1) (ih h.2 h'.2)

/-- **A member under the name of a field is read by it, and by no other field.** -/
theorem Taken.exchanged {fs : List Field} (hnames : (fs.map Field.name).Nodup) {slots : Slots fs}
    {i : Fin fs.length} {before after : List (String × Json)} {v : Json}
    (h : Taken fs slots (before ++ ((fs.get i).name, v) :: after)) :
    (fs.get i).Reads v (slots.get i) ∧ ∀ w slots',
      Taken fs slots' (before ++ ((fs.get i).name, w) :: after) ↔
        ∃ b, (fs.get i).Reads w b ∧ slots.set i b = slots' := by
  induction fs with
  | nil => exact i.elim0
  | cons f fs ih =>
    obtain ⟨a, rest⟩ := slots
    obtain ⟨hfield, hrest⟩ := h
    obtain ⟨hname, hnames⟩ := List.nodup_cons.1 hnames
    obtain ⟨_ | i, hi⟩ := i
    · change f.Takes (valuesUnder f.name (before ++ (f.name, v) :: after)) a at hfield
      change Taken fs rest (before ++ (f.name, v) :: after) at hrest
      rw [valuesUnder_middle] at hfield
      obtain ⟨hbefore, hafter, hread⟩ := Field.takes_middle_iff.1 hfield
      refine ⟨hread, fun w slots' => ?_⟩
      obtain ⟨b, rest'⟩ := slots'
      change f.Takes (valuesUnder f.name (before ++ (f.name, w) :: after)) b ∧
        Taken fs rest' (before ++ (f.name, w) :: after) ↔ _
      rw [valuesUnder_middle, Field.takes_middle_iff]
      constructor
      · rintro ⟨⟨-, -, hb⟩, hrest'⟩
        exact ⟨b, hb, Prod.ext rfl (hrest.unique (hrest'.of_unknown hname))⟩
      · rintro ⟨b', hb, hslots⟩
        cases hslots
        exact ⟨⟨hbefore, hafter, hb⟩, hrest.of_unknown hname⟩
    · have hi' : i < fs.length := Nat.lt_of_succ_lt_succ hi
      obtain ⟨hread, hexchanged⟩ := ih hnames (i := ⟨i, hi'⟩) hrest
      have hne : (fs.get ⟨i, hi'⟩).name ≠ f.name := fun hsame =>
        hname (hsame ▸ List.mem_map_of_mem (List.get_mem fs _))
      refine ⟨hread, fun w slots' => ?_⟩
      obtain ⟨a', rest'⟩ := slots'
      have hsame : valuesUnder f.name (before ++ ((fs.get ⟨i, hi'⟩).name, w) :: after) =
          valuesUnder f.name (before ++ ((fs.get ⟨i, hi'⟩).name, v) :: after) :=
        valuesUnder_middle_of_ne hne before w v after
      constructor
      · rintro ⟨hfield', hrest'⟩
        obtain ⟨b, hb, rfl⟩ := (hexchanged w rest').1 hrest'
        refine ⟨b, hb, Prod.ext ?_ rfl⟩
        exact hfield.unique (hsame ▸ hfield')
      · rintro ⟨b, hb, hslots⟩
        cases hslots
        exact ⟨hsame.symm ▸ hfield, (hexchanged w _).2 ⟨b, hb, rfl⟩⟩

end Slots

namespace Command
open Json
open Schema (readWord_eq_ok_iff readPair_eq_ok_iff readList_eq_ok_iff)

/-! ### What stands in the forms -/

/-- The name of a choice inside of a union: the word, or an object with the word as its only key
and nothing under it. -/
def Names {α : Type} [Choice α] (v : Json) (a : α) : Prop :=
  v = word a ∨ v = .object [(Choice.word a, .null)]

/-- A number of bytes, or an object with a shape and a format. -/
def Storage.Fits (v : Json) : Storage → Prop
  | .bytes n => v = whole n
  | .texture shape format => ∃ members u, v = .object members ∧
      valuesUnder "shape" members = [pair shape] ∧
        valuesUnder "format" members = [u] ∧ Names u format

/-- A number of bytes, or a list of a row and a column. -/
def Offset.Fits (v : Json) : Offset → Prop
  | .linear n => v = whole n
  | .texel place => v = pair place

/-- An object with a buffer, a stride and an offset, or a list of numbers. -/
def Source.Fits (v : Json) : Source → Prop
  | .buffer id stride offset => ∃ members, v = .object members ∧
      valuesUnder "buffer" members = [whole id] ∧
        valuesUnder "stride" members = [whole stride] ∧
          valuesUnder "offset" members = [whole offset]
  | .constant values => NumbersForm values v

/-- An object with an index buffer, the type of its indices and their count, or an object with
the first vertex and a count. -/
def Selection.Fits (v : Json) : Selection → Prop
  | .elements indices type count => ∃ members u, v = .object members ∧
      valuesUnder "index_buffer" members = [whole indices] ∧
        valuesUnder "index_type" members = [u] ∧ Names u type ∧
          valuesUnder "count" members = [whole count]
  | .range first count => ∃ members, v = .object members ∧
      valuesUnder "first" members = [whole first] ∧ valuesUnder "count" members = [whole count]

/-! ### The fields of the forms -/

theorem reads_names_iff {α : Type} [Choice α] [Choice.Faithful α] {v : Json} {a : α} :
    Codec.readChoice Codec.isNull v = .ok a ↔ Names v a := by
  constructor
  · intro h
    obtain ⟨⟨s, contents⟩, hsplit, h⟩ := ok_of_bind h
    obtain ⟨b, hname, h⟩ := ok_of_bind h
    unfold Codec.readName at hname
    split at hname
    · next hs =>
      cases hname
      have hword := Choice.word_of_ofWord? hs
      unfold Codec.splitName at hsplit
      split at hsplit
      · cases hsplit
        cases h
        exact .inl (by rw [word, hword])
      · next u =>
        cases hsplit
        dsimp only at h
        split at h
        · next hnull =>
          cases h
          have hu : u = .null := by
            cases u with
            | null => rfl
            | _ => cases hnull
          exact .inr (by rw [hword, hu])
        · cases h
      · cases hsplit
      · cases hsplit
    · cases hname
  · rintro (rfl | rfl)
    · exact readChoice_word _ a
    · simp only [Codec.readChoice, Codec.splitName, ok_bind, Codec.readName,
        Choice.Faithful.ofWord?_word, Codec.isNull, if_true]
      rfl

section
variable {name : String} {vs : List Json}

theorem takes_whole_iff {k : WordKind} {w : Word k} :
    (Field.required name (Word k)).Takes vs w ↔ vs = [whole w] := by
  refine (Field.takes_required_iff rfl).trans ⟨?_, ?_⟩
  · rintro ⟨v, rfl, h⟩
    rw [readWord_eq_ok_iff.1 h]
    rfl
  · rintro rfl
    exact ⟨_, rfl, read_whole w⟩

theorem reads_pair_iff {v : Json} {place : Count × Count} :
    Codec.read v = .ok place ↔ v = pair place := by
  constructor
  · intro h
    obtain ⟨x, y, rfl, hx, hy⟩ := readPair_eq_ok_iff.1 h
    rw [readWord_eq_ok_iff.1 hx, readWord_eq_ok_iff.1 hy]
    rfl
  · rintro rfl
    exact read_pair place

theorem takes_pair_iff {place : Count × Count} :
    (Field.required name (Count × Count)).Takes vs place ↔ vs = [pair place] := by
  refine (Field.takes_required_iff rfl).trans ⟨?_, ?_⟩
  · rintro ⟨v, rfl, h⟩
    rw [reads_pair_iff.1 h]
  · rintro rfl
    exact ⟨_, rfl, read_pair place⟩

theorem takes_names_iff {α : Type} [Choice α] [Choice.Faithful α] {a : α} :
    (Field.plainChoice name α).Takes vs a ↔ ∃ u, vs = [u] ∧ Names u a := by
  refine (Field.takes_required_iff rfl).trans ?_
  exact exists_congr fun u => and_congr_right fun _ => reads_names_iff

end

theorem reads_numbers_iff {v : Json} {values : List Single} :
    Codec.read v = .ok values ↔ NumbersForm values v := by
  constructor
  · intro h
    obtain ⟨items, rfl, hitems⟩ := readList_eq_ok_iff.1 h
    have hnumbers : ∃ ns : List JsonNumber, items = ns.map .number ∧
        values = ns.map JsonNumber.toSingle := by
      clear h
      induction hitems with
      | nil => exact ⟨[], rfl, rfl⟩
      | @cons x u values items hread _ ih =>
        obtain ⟨ns, rfl, rfl⟩ := ih
        cases u with
        | number n =>
          cases hread
          exact ⟨n :: ns, rfl, rfl⟩
        | _ => cases hread
    obtain ⟨ns, rfl, rfl⟩ := hnumbers
    exact .list ns
  · exact NumbersForm.read

/-! ### The first of two forms -/

section
variable {α β γ : Type} {union : String} {r : Json → Except Mismatch α}
  {s : Json → Except Mismatch β} {f : α → γ} {g : β → γ} {Fits : γ → Prop} {form : γ → Nat}
  {v : Json}

/-- Two forms, of which `form` counts the first as 0 and the second as 1. -/
structure TwoForms (f : α → γ) (g : β → γ) (form : γ → Nat) : Prop where
  all : ∀ c, (∃ a, f a = c) ∨ ∃ b, g b = c
  first : ∀ a, form (f a) = 0
  second : ∀ b, form (g b) = 1

theorem TwoForms.read_iff (hforms : TwoForms f g form) (hr : ∀ a, r v = .ok a ↔ Fits (f a))
    (hs : ∀ b, s v = .ok b ↔ Fits (g b)) {c : γ} :
    Codec.firstOf union [fun v => f <$> r v, fun v => g <$> s v] v = .ok c ↔
      Fits c ∧ ∀ d, Fits d → form c ≤ form d := by
  rw [Schema.firstOf_iff]
  constructor
  · rintro ⟨a | b, hread, rfl⟩
    · refine ⟨(hr a).1 hread, fun d _ => ?_⟩
      change form (f a) ≤ form d
      rw [hforms.first]
      exact Nat.zero_le _
    · obtain ⟨hnone, hread⟩ := hread
      refine ⟨(hs b).1 hread, fun d hd => ?_⟩
      rcases hforms.all d with ⟨a, rfl⟩ | ⟨b', rfl⟩
      · exact absurd ((hr a).2 hd) (hnone a)
      · exact Nat.le_of_eq ((hforms.second b).trans (hforms.second b').symm)
  · rintro ⟨hfits, hleast⟩
    rcases hforms.all c with ⟨a, rfl⟩ | ⟨b, rfl⟩
    · exact ⟨.inl a, (hr a).2 hfits, rfl⟩
    · refine ⟨.inr b, ⟨fun a ha => ?_, (hs b).2 hfits⟩, rfl⟩
      have hle := hleast (f a) ((hr a).1 ha)
      rw [hforms.first, hforms.second] at hle
      omega

theorem firstOf_refused (hr : ∀ a, r v = .ok a ↔ Fits (f a))
    (hs : ∀ b, s v = .ok b ↔ Fits (g b)) (hnone : ∀ c, ¬ Fits c) :
    Codec.firstOf union [fun v => f <$> r v, fun v => g <$> s v] v =
      .error (.noAlternative union) := by
  rcases hfirst : r v with e | a
  · rcases hsecond : s v with e' | b
    · simp only [Codec.firstOf, hfirst, hsecond]
      rfl
    · exact absurd ((hs b).1 hsecond) (hnone _)
  · exact absurd ((hr a).1 hfirst) (hnone _)

end

/-! ### The four unions -/

/-- The fields of commands whose values have several forms. -/
inductive UnionField
  | size | offset | source | selection

namespace UnionField

/-- The commands with the field. -/
def tag : UnionField → Tag
  | size => .size
  | offset => .data
  | source => .attribute
  | selection => .draw

/-- Which of the fields of the command it is. -/
def index : (u : UnionField) → Fin u.tag.fields.length
  | size => ⟨1, by decide⟩
  | offset => ⟨1, by decide⟩
  | source => ⟨3, by decide⟩
  | selection => ⟨2, by decide⟩

def field (u : UnionField) : Field := u.tag.fields.get u.index

example : selection.field.name = "selection" := rfl

/-- The name of the union in messages. -/
def name : UnionField → String
  | size => "StorageSize"
  | offset => "DataOffset"
  | source => "AttributeSource"
  | selection => "DrawSelection"

/-- The value has this form, with these contents. -/
def Fits : (u : UnionField) → Json → u.field.Value → Prop
  | size, v, storage => Storage.Fits v storage
  | offset, v, place => Offset.Fits v place
  | source, v, value => Source.Fits v value
  | selection, v, vertices => Selection.Fits v vertices

/-- The number of the form, in the order of declaration. -/
def form : (u : UnionField) → u.field.Value → Nat
  | size, (.bytes _ : Storage) => 0
  | size, (.texture .. : Storage) => 1
  | offset, (.linear _ : Offset) => 0
  | offset, (.texel _ : Offset) => 1
  | source, (.buffer .. : Source) => 0
  | source, (.constant _ : Source) => 1
  | selection, (.elements .. : Selection) => 0
  | selection, (.range .. : Selection) => 1

/-- The keys that the forms look at. -/
def keys : UnionField → List String
  | size => ["shape", "format"]
  | offset => []
  | source => ["buffer", "stride", "offset"]
  | selection => ["index_buffer", "index_type", "count", "first"]

/-- The value fits this form and none before it. -/
def FitsFirst (u : UnionField) (v : Json) (a : u.field.Value) : Prop :=
  u.Fits v a ∧ ∀ b, u.Fits v b → u.form a ≤ u.form b

end UnionField

/-! ### Reading the unions -/

namespace Storage

theorem fits_texture_iff {v : Json} {slots : Slots textureFields} :
    Slots.ofObject textureFields v = .ok slots ↔ Fits v (.texture slots.1 slots.2.1) := by
  obtain ⟨shape, format, ⟨⟩⟩ := slots
  refine (Slots.ofObject_eq_ok_iff textureFields_allRequired.nodup).trans ⟨?_, ?_⟩
  · rintro ⟨members, rfl, hshape, hformat, -⟩
    obtain ⟨u, hu, hnames⟩ := takes_names_iff.1 hformat
    exact ⟨members, u, rfl, takes_pair_iff.1 hshape, hu, hnames⟩
  · rintro ⟨members, u, rfl, hshape, hu, hnames⟩
    exact ⟨members, rfl, takes_pair_iff.2 hshape, takes_names_iff.2 ⟨u, hu, hnames⟩, trivial⟩

end Storage

namespace Source

theorem fits_buffer_iff {v : Json} {slots : Slots bufferFields} :
    Slots.ofObject bufferFields v = .ok slots ↔
      Fits v (.buffer slots.1 slots.2.1 slots.2.2.1) := by
  obtain ⟨id, stride, offset, ⟨⟩⟩ := slots
  refine (Slots.ofObject_eq_ok_iff bufferFields_allRequired.nodup).trans ⟨?_, ?_⟩
  · rintro ⟨members, rfl, hid, hstride, hoffset, -⟩
    exact ⟨members, rfl, takes_whole_iff.1 hid, takes_whole_iff.1 hstride,
      takes_whole_iff.1 hoffset⟩
  · rintro ⟨members, rfl, hid, hstride, hoffset⟩
    exact ⟨members, rfl, takes_whole_iff.2 hid, takes_whole_iff.2 hstride,
      takes_whole_iff.2 hoffset, trivial⟩

end Source

namespace Selection

theorem fits_elements_iff {v : Json} {slots : Slots elementFields} :
    Slots.ofObject elementFields v = .ok slots ↔
      Fits v (.elements slots.1 slots.2.1 slots.2.2.1) := by
  obtain ⟨indices, type, count, ⟨⟩⟩ := slots
  refine (Slots.ofObject_eq_ok_iff elementFields_allRequired.nodup).trans ⟨?_, ?_⟩
  · rintro ⟨members, rfl, hindices, htype, hcount, -⟩
    obtain ⟨u, hu, hnames⟩ := takes_names_iff.1 htype
    exact ⟨members, u, rfl, takes_whole_iff.1 hindices, hu, hnames, takes_whole_iff.1 hcount⟩
  · rintro ⟨members, u, rfl, hindices, hu, hnames, hcount⟩
    exact ⟨members, rfl, takes_whole_iff.2 hindices, takes_names_iff.2 ⟨u, hu, hnames⟩,
      takes_whole_iff.2 hcount, trivial⟩

theorem fits_range_iff {v : Json} {slots : Slots rangeFields} :
    Slots.ofObject rangeFields v = .ok slots ↔ Fits v (.range slots.1 slots.2.1) := by
  obtain ⟨first, count, ⟨⟩⟩ := slots
  refine (Slots.ofObject_eq_ok_iff rangeFields_allRequired.nodup).trans ⟨?_, ?_⟩
  · rintro ⟨members, rfl, hfirst, hcount, -⟩
    exact ⟨members, rfl, takes_whole_iff.1 hfirst, takes_whole_iff.1 hcount⟩
  · rintro ⟨members, rfl, hfirst, hcount⟩
    exact ⟨members, rfl, takes_whole_iff.2 hfirst, takes_whole_iff.2 hcount, trivial⟩

end Selection

namespace UnionField

theorem twoForms_size : TwoForms Storage.bytes
    (fun slots : Slots Storage.textureFields => .texture slots.1 slots.2.1) size.form where
  all
    | .bytes n => .inl ⟨n, rfl⟩
    | .texture shape format => .inr ⟨(shape, format, ()), rfl⟩
  first _ := rfl
  second _ := rfl

theorem twoForms_offset : TwoForms Offset.linear Offset.texel offset.form where
  all
    | .linear n => .inl ⟨n, rfl⟩
    | .texel place => .inr ⟨place, rfl⟩
  first _ := rfl
  second _ := rfl

theorem twoForms_source : TwoForms
    (fun slots : Slots Source.bufferFields => .buffer slots.1 slots.2.1 slots.2.2.1)
    Source.constant source.form where
  all
    | .buffer id stride place => .inl ⟨(id, stride, place, ()), rfl⟩
    | .constant values => .inr ⟨values, rfl⟩
  first _ := rfl
  second _ := rfl

theorem twoForms_selection : TwoForms
    (fun slots : Slots Selection.elementFields => .elements slots.1 slots.2.1 slots.2.2.1)
    (fun slots : Slots Selection.rangeFields => .range slots.1 slots.2.1) selection.form where
  all
    | .elements indices type count => .inl ⟨(indices, type, count, ()), rfl⟩
    | .range first count => .inr ⟨(first, count, ()), rfl⟩
  first _ := rfl
  second _ := rfl

/-- **A value is read in the first form that it fits.** -/
theorem read_iff (u : UnionField) {v : Json} {a : u.field.Value} :
    u.field.read v = .ok a ↔ u.FitsFirst v a := by
  cases u with
  | size =>
    exact twoForms_size.read_iff (fun _ => readWord_eq_ok_iff)
      fun _ => Storage.fits_texture_iff
  | offset => exact twoForms_offset.read_iff (fun _ => readWord_eq_ok_iff) fun _ => reads_pair_iff
  | source =>
    exact twoForms_source.read_iff (fun _ => Source.fits_buffer_iff) fun _ => reads_numbers_iff
  | selection =>
    exact twoForms_selection.read_iff (fun _ => Selection.fits_elements_iff)
      fun _ => Selection.fits_range_iff

/-- **A value that fits no form is refused.** -/
theorem read_refused (u : UnionField) {v : Json} (hnone : ∀ a, ¬ u.Fits v a) :
    u.field.read v = .error (.noAlternative u.name) := by
  cases u with
  | size =>
    exact firstOf_refused (fun _ => readWord_eq_ok_iff) (fun _ => Storage.fits_texture_iff) hnone
  | offset => exact firstOf_refused (fun _ => readWord_eq_ok_iff) (fun _ => reads_pair_iff) hnone
  | source =>
    exact firstOf_refused (fun _ => Source.fits_buffer_iff) (fun _ => reads_numbers_iff) hnone
  | selection =>
    exact firstOf_refused (fun _ => Selection.fits_elements_iff)
      (fun _ => Selection.fits_range_iff) hnone

/-- Of the forms that a value fits, one is the first. -/
theorem exists_fitsFirst (u : UnionField) {v : Json} {a : u.field.Value} (h : u.Fits v a) :
    ∃ b, u.FitsFirst v b := by
  have hforms : ∃ n, ∃ b, u.Fits v b ∧ u.form b = n := ⟨_, a, h, rfl⟩
  classical
  obtain ⟨b, hb, hform⟩ := Nat.find_spec hforms
  refine ⟨b, hb, fun d hd => ?_⟩
  rw [hform]
  exact Nat.find_min' hforms ⟨d, hd, rfl⟩

theorem read_eq_error_iff (u : UnionField) {v : Json} {cause : Mismatch} :
    u.field.read v = .error cause ↔ (∀ a, ¬ u.Fits v a) ∧ cause = .noAlternative u.name := by
  constructor
  · intro h
    have hnone : ∀ a, ¬ u.Fits v a := by
      intro a ha
      obtain ⟨b, hb⟩ := u.exists_fitsFirst ha
      cases h.symm.trans (u.read_iff.2 hb)
    exact ⟨hnone, Except.error.inj (h.symm.trans (u.read_refused hnone))⟩
  · rintro ⟨hnone, rfl⟩
    exact u.read_refused hnone

/-! ### Keys that are not looked at -/

theorem fits_object (u : UnionField) {members given : List (String × Json)}
    (hsame : ∀ key ∈ u.keys, valuesUnder key members = valuesUnder key given)
    {a : u.field.Value} (h : u.Fits (.object members) a) : u.Fits (.object given) a := by
  cases u with
  | size =>
    cases a with
    | bytes n => cases h
    | texture shape format =>
      obtain ⟨_, u, hv, hshape, hformat, hnames⟩ := h
      cases hv
      rw [hsame "shape" (by decide)] at hshape
      rw [hsame "format" (by decide)] at hformat
      exact ⟨given, u, rfl, hshape, hformat, hnames⟩
  | offset => cases a <;> cases h
  | source =>
    cases a with
    | buffer id stride place =>
      obtain ⟨_, hv, hid, hstride, hplace⟩ := h
      cases hv
      rw [hsame "buffer" (by decide)] at hid
      rw [hsame "stride" (by decide)] at hstride
      rw [hsame "offset" (by decide)] at hplace
      exact ⟨given, rfl, hid, hstride, hplace⟩
    | constant values => cases h
  | selection =>
    cases a with
    | elements indices type count =>
      obtain ⟨_, u, hv, hindices, htype, hnames, hcount⟩ := h
      cases hv
      rw [hsame "index_buffer" (by decide)] at hindices
      rw [hsame "index_type" (by decide)] at htype
      rw [hsame "count" (by decide)] at hcount
      exact ⟨given, u, rfl, hindices, htype, hnames, hcount⟩
    | range first count =>
      obtain ⟨_, hv, hfirst, hcount⟩ := h
      cases hv
      rw [hsame "first" (by decide)] at hfirst
      rw [hsame "count" (by decide)] at hcount
      exact ⟨given, rfl, hfirst, hcount⟩

/-- **What stands under other keys, or in which order, does not matter.** -/
theorem read_object (u : UnionField) {members given : List (String × Json)}
    (hsame : ∀ key ∈ u.keys, valuesUnder key members = valuesUnder key given) :
    u.field.read (.object members) = u.field.read (.object given) := by
  have hfits (a : u.field.Value) : u.Fits (.object members) a ↔ u.Fits (.object given) a :=
    ⟨u.fits_object hsame, u.fits_object fun key hkey => (hsame key hkey).symm⟩
  rcases hread : u.field.read (.object given) with cause | a
  · rw [read_eq_error_iff] at hread ⊢
    exact ⟨fun a ha => hread.1 a ((hfits a).1 ha), hread.2⟩
  · rw [read_iff] at hread ⊢
    exact ⟨(hfits a).2 hread.1, fun b hb => hread.2 b ((hfits b).1 hb)⟩

end UnionField

/-! ### The value of a field in command text -/

/-- In a command, the value of a field may be exchanged for any other that the field reads. -/
theorem Stands.field_exchanged {t : Tag} {slots : Slots t.fields} {i : Fin t.fields.length}
    {gap : List Frame} {v : Json} (h : Stands (fill gap v) (ofSlots t slots))
    (hplace : t.named (place gap) = [.key (t.fields.get i).name]) :
    (t.fields.get i).Reads v (slots.get i) ∧ ∀ w c, Stands (fill gap w) c ↔
      ∃ b, (t.fields.get i).Reads w b ∧ ofSlots t (slots.set i b) = c := by
  have hname : (t.fields.get i).name ∈ t.fields.map Field.name :=
    List.mem_map_of_mem (List.get_mem _ _)
  have hexchanged : ∃ (before : List (String × Json)) (inner : List Frame)
      (after : List (String × Json)), place inner = [] ∧
        Slots.Taken t.fields slots (before ++ ((t.fields.get i).name, fill inner v) :: after) ∧
        ∀ w c', Stands (fill gap w) c' ↔ ∃ slots',
          Slots.Taken t.fields slots' (before ++ ((t.fields.get i).name, fill inner w) :: after) ∧
            ofSlots t slots' = c' := by
    cases t <;> exact Stands.exchanged h hplace hname
  obtain ⟨before, inner, after, hinner, htaken, hstands⟩ := hexchanged
  obtain rfl := List.map_eq_nil_iff.1 hinner
  obtain ⟨hread, hslots⟩ := htaken.exchanged (nodup_fields t)
  refine ⟨hread, fun w c => ?_⟩
  rw [hstands]
  constructor
  · rintro ⟨slots', htaken', rfl⟩
    obtain ⟨b, hb, rfl⟩ := (hslots w slots').1 htaken'
    exact ⟨b, hb, rfl⟩
  · rintro ⟨b, hb, rfl⟩
    exact ⟨_, (hslots w _).2 ⟨b, hb, rfl⟩, rfl⟩

/-- **The value of a field in command text** decides on the field and on nothing else. -/
theorem readAll_field_exchanged {text : String} {commands : List Command}
    {before after : List Json} {gap : List Frame} {v : Json} {t : Tag} {slots : Slots t.fields}
    {i : Fin t.fields.length} (h : readAll text = .ok commands)
    (htext : TextOf (.list (before ++ fill gap v :: after)) text)
    (hc : commands[before.length]? = some (ofSlots t slots))
    (hplace : t.named (place gap) = [.key (t.fields.get i).name]) :
    (t.fields.get i).Reads v (slots.get i) ∧
      ∀ w text', TextOf (.list (before ++ fill gap w :: after)) text' →
        (∀ b, (t.fields.get i).Reads w b → Nests (maxDepth - 1) (fill gap w) →
          readAll text' = .ok (commands.set before.length (ofSlots t (slots.set i b)))) ∧
        ((∀ b, ¬ (t.fields.get i).Reads w b) → ∃ fault, readAll text' = .error fault) := by
  obtain ⟨c, hc', hstands, -, hexchanged⟩ := readAll_exchanged h htext
  obtain rfl : ofSlots t slots = c := Option.some.inj (hc.symm.trans hc')
  obtain ⟨hread, hfield⟩ := hstands.field_exchanged hplace
  refine ⟨hread, fun w text' htext' => ⟨fun b hb hnests => ?_, fun hnone => ?_⟩⟩
  · exact hexchanged _ _ text' ((hfield w _).2 ⟨b, hb, rfl⟩) hnests htext'
  · refine readAll_refused (fun c hstands' => ?_) htext'
    obtain ⟨b, hb, -⟩ := (hfield w c).1 hstands'
    exact hnone b hb

/-- **Values without a tag are read in the first form that they fit.**  A value that fits none is
refused, and keys that no form has do not matter.  So it is for every value in the place of
such a field of a command in text. -/
theorem unionField_read_first (u : UnionField) :
    (∀ v a, u.field.read v = .ok a ↔ u.FitsFirst v a) ∧
      (∀ v cause, u.field.read v = .error cause ↔
        (∀ a, ¬ u.Fits v a) ∧ cause = .noAlternative u.name) ∧
      (∀ members given,
        (∀ key ∈ u.keys, valuesUnder key members = valuesUnder key given) →
          u.field.read (.object members) = u.field.read (.object given)) ∧
      ∀ text commands, readAll text = .ok commands → ∀ before gap v after,
        TextOf (.list (before ++ fill gap v :: after)) text → ∀ slots,
          commands[before.length]? = some (ofSlots u.tag slots) →
            u.tag.named (place gap) = [.key u.field.name] →
              u.FitsFirst v (slots.get u.index) ∧
                ∀ w text', TextOf (.list (before ++ fill gap w :: after)) text' →
                  (∀ b, u.FitsFirst w b → Nests (maxDepth - 1) (fill gap w) →
                    readAll text' = .ok
                      (commands.set before.length (ofSlots u.tag (slots.set u.index b)))) ∧
                  ((∀ b, ¬ u.Fits w b) → ∃ fault, readAll text' = .error fault) := by
  refine ⟨fun _ _ => u.read_iff, fun _ _ => u.read_eq_error_iff, fun _ _ => u.read_object, ?_⟩
  intro text commands h before gap v after htext slots hc hplace
  obtain ⟨hread, hexchanged⟩ := readAll_field_exchanged h htext hc hplace
  refine ⟨u.read_iff.1 hread, fun w text' htext' => ?_⟩
  obtain ⟨hread', hrefused⟩ := hexchanged w text' htext'
  refine ⟨fun b hb => hread' b (u.read_iff.2 hb), fun hnone => hrefused fun b hb => ?_⟩
  exact hnone b (u.read_iff.1 hb).1

/-! ### The size of an object -/

def sizedId : Id := ⟨31, by decide, by decide⟩

def rows : Count := ⟨5, by decide, by decide⟩

def columns : Count := ⟨64, by decide, by decide⟩

def byteSizeText : String := "[\x7b\"cmd\":\"size\",\"id\":31,\"size\":64\x7d]"

/-- The format is written as an object, and there is a key that means nothing. -/
def textureSizeText : String := "[\x7b\"cmd\":\"size\",\"id\":31,\"size\":" ++
  "\x7b\"format\":\x7b\"rgb\":null\x7d,\"x\":true,\"shape\":[5,64]\x7d\x7d]"

/-- The shape is given twice. -/
def repeatedShapeText : String := "[\x7b\"cmd\":\"size\",\"id\":31,\"size\":" ++
  "\x7b\"shape\":[5,64],\"format\":\"rgb\",\"shape\":[5,64]\x7d\x7d]"

theorem sizes_read_first :
    readAll byteSizeText = .ok [.size sizedId (.bytes columns)] ∧
      readAll textureSizeText = .ok [.size sizedId (.texture (rows, columns) .rgb)] ∧
      ∃ fault, readAll repeatedShapeText = .error fault := by
  -- The values that the texts are made of.
  have hcmd : Spells 3 (.text "size") _ := ⟨_, spellsChars_plain (by decide), rfl⟩
  have hid : Spells 3 (whole sizedId) ['3', '1'] := ⟨by decide, by decide, by decide⟩
  have hbytes : Spells 3 (whole columns) ['6', '4'] := ⟨by decide, by decide, by decide⟩
  have hrows : Spells 1 (whole rows) ['5'] := ⟨by decide, by decide, by decide⟩
  have hcolumns : Spells 1 (whole columns) ['6', '4'] := ⟨by decide, by decide, by decide⟩
  have hshape : Spells 2 (pair (rows, columns)) _ :=
    ⟨_, .some (.more (padded_self hrows) (.one (padded_self hcolumns))), rfl⟩
  have hnull : Spells 1 .null ['n', 'u', 'l', 'l'] := rfl
  have htrue : Spells 2 (.bool true) ['t', 'r', 'u', 'e'] := rfl
  have hformat : Spells 2 (.object [("rgb", .null)]) _ :=
    ⟨_, .some (.one (spellsMember_plain "rgb" (by decide) hnull)), rfl⟩
  have hword : Spells 2 (.text "rgb") _ := ⟨_, spellsChars_plain (by decide), rfl⟩
  have htagMember := spellsMember_plain "cmd" (by decide) hcmd
  have hidMember := spellsMember_plain "id" (by decide) hid
  have hshapeMember := spellsMember_plain "shape" (by decide) hshape
  have htexture : Spells 3 (.object [("format", .object [("rgb", .null)]), ("x", .bool true),
      ("shape", pair (rows, columns))]) _ :=
    ⟨_, .some (.more (spellsMember_plain "format" (by decide) hformat)
      (.more (spellsMember_plain "x" (by decide) htrue) (.one hshapeMember))), rfl⟩
  have hrepeated : Spells 3 (.object [("shape", pair (rows, columns)), ("format", .text "rgb"),
      ("shape", pair (rows, columns))]) _ :=
    ⟨_, .some (.more hshapeMember (.more (spellsMember_plain "format" (by decide) hword)
      (.one hshapeMember))), rfl⟩
  -- The texts themselves.
  let gap : List Frame := [.member [("cmd", .text "size"), ("id", whole sizedId)] "size" []]
  have hbyteText : TextOf (.list ([] ++ fill gap (whole columns) :: [])) byteSizeText :=
    textOf_single 4 ⟨_, .some (.more htagMember (.more hidMember
      (.one (spellsMember_plain "size" (by decide) hbytes)))), rfl⟩ (by decide)
  have htextureText : TextOf (.list ([] ++ fill gap (.object [_, _, _]) :: [])) textureSizeText :=
    textOf_single 4 ⟨_, .some (.more htagMember (.more hidMember
      (.one (spellsMember_plain "size" (by decide) htexture)))), rfl⟩ (by decide)
  have hrepeatedText :
      TextOf (.list ([] ++ fill gap (.object [_, _, _]) :: [])) repeatedShapeText :=
    textOf_single 4 ⟨_, .some (.more htagMember (.more hidMember
      (.one (spellsMember_plain "size" (by decide) hrepeated)))), rfl⟩ (by decide)
  have hread : readAll byteSizeText = .ok [.size sizedId (.bytes columns)] :=
    readAll_of_spelledBy ⟨_, .cons (.object (.size _ (.bytes columns)) (.refl _)) .nil, hbyteText⟩
  obtain ⟨-, -, -, htexts⟩ := unionField_read_first .size
  obtain ⟨-, hexchanged⟩ := htexts byteSizeText _ hread [] gap _ [] hbyteText
    (sizedId, .bytes columns, ()) rfl rfl
  refine ⟨hread, (hexchanged _ _ htextureText).1 (.texture (rows, columns) .rgb) ⟨?fits, ?first⟩
    ?nests, (hexchanged _ _ hrepeatedText).2 ?none⟩
  case fits => exact ⟨_, _, rfl, rfl, rfl, .inr rfl⟩
  case first =>
    rintro (n | ⟨shape, format⟩) hfits
    · cases hfits
    · exact Nat.le_refl _
  case nests => simp [gap, fill, Frame.fill, maxDepth, Nests, pair, whole]
  case none =>
    rintro (n | ⟨shape, format⟩) hfits
    · cases hfits
    · obtain ⟨_, u, hv, hshape, -⟩ := hfits
      cases hv
      exact absurd (congrArg List.length hshape) (by simp [valuesUnder])

end Command
end DrawStream
