import DrawStream.Proofs.Places
import DrawStream.Proofs.Rewriting

/-! # Where commands hold whole numbers

The schemas of the parts of commands and of the fields of every tag.  The forms of a union are
told apart by the value around the number, which no number changes; only the two forms of a
selection are both objects.  There the one that is complete is taken, and a number that only
the other form has is not looked at.

A command stands in an object or in a list.  A place in it is given by the name of the field,
in a list by the name of the field that has this place (`Tag.named`). -/
namespace DrawStream
open Json

namespace Schema

section
variable {α β γ : Type} {union : String} {r : Json → Except Mismatch α}
  {s : Json → Except Mismatch β} {f : α → γ} {g : β → γ}

/-- Of two alternatives, the second counts only where the first cannot be read. -/
theorem firstOf_iff (v : Json) (c : γ) :
    Codec.firstOf union [fun v => f <$> r v, fun v => g <$> s v] v = .ok c ↔
      ∃ ab, Sum.elim (fun a => r v = .ok a) (fun b => (∀ a, ¬ r v = .ok a) ∧ s v = .ok b) ab ∧
        Sum.elim f g ab = c := by
  rcases hfirst : r v with e | a
  · have hskip : Codec.firstOf union [fun v => f <$> r v, fun v => g <$> s v] v =
        Codec.firstOf union [fun v => g <$> s v] v := by
      simp only [Codec.firstOf, hfirst]
      rfl
    rw [hskip]
    constructor
    · intro h
      rcases hsecond : s v with e' | b
      · simp only [Codec.firstOf, hsecond] at h
        cases h
      · simp only [Codec.firstOf, hsecond] at h
        cases h
        exact ⟨.inr b, ⟨by simp, rfl⟩, rfl⟩
    · rintro ⟨a | b, hread, rfl⟩
      · cases hread
      · simp only [Codec.firstOf, hread.2]
        rfl
  · have htake : Codec.firstOf union [fun v => f <$> r v, fun v => g <$> s v] v = .ok (f a) := by
      simp only [Codec.firstOf, hfirst]
      rfl
    rw [htake]
    constructor
    · intro h
      exact ⟨.inl a, rfl, Except.ok.inj h⟩
    · rintro ⟨a' | b, hread, rfl⟩
      · cases hread
        rfl
      · exact absurd rfl (hread.1 a)

/-- Alternatives of which no value fits both. -/
theorem firstOf_apart_iff (hapart : ∀ {v a b}, r v = .ok a → ¬ s v = .ok b) (v : Json) (c : γ) :
    Codec.firstOf union [fun v => f <$> r v, fun v => g <$> s v] v = .ok c ↔
      ∃ ab, Sum.elim (fun a => r v = .ok a) (fun b => s v = .ok b) ab ∧ Sum.elim f g ab = c := by
  rw [firstOf_iff]
  constructor
  · rintro ⟨a | b, hread, rfl⟩
    · exact ⟨.inl a, hread, rfl⟩
    · exact ⟨.inr b, hread.2, rfl⟩
  · rintro ⟨a | b, hread, rfl⟩
    · exact ⟨.inl a, hread, rfl⟩
    · exact ⟨.inr b, ⟨fun a ha => hapart ha hread, hread⟩, rfl⟩

end

/-- Records of one kind do not look at a number in a place where only another kind has one, if
a field of both kinds has its whole numbers in the same places. -/
theorem ofObject_of_other {fs gs : List Field} {S : Schemas fs} {T : Schemas gs}
    {hfs : AllRequired fs} {hgs : AllRequired gs}
    (hshared : ∀ name ∈ fs.map Field.name, name ∈ gs.map Field.name →
      ∀ p, S.kind? fs name p = T.kind? gs name p)
    {gap : List Frame} {m m' : JsonNumber} {slots : Slots fs} {k : WordKind}
    (hnone : (record S hfs).kind? (place gap) = none)
    (hk : (record T hgs).kind? (place gap) = some k)
    (hread : Slots.ofObject fs (fill gap (.number m)) = .ok slots) :
    Slots.ofObject fs (fill gap (.number m')) = .ok slots := by
  rcases gap with _ | ⟨⟨before, name, after⟩ | _, gap⟩
  · cases hk
  · have hmem : name ∉ fs.map Field.name := by
      intro hmem
      have hsame := hshared name hmem (Schemas.mem_of_kind? hk) (place gap)
      exact absurd (hnone.symm.trans (hsame.trans hk)) (by simp)
    obtain ⟨members, hmembers, htaken⟩ := (Slots.ofObject_eq_ok_iff hfs.nodup).1 hread
    cases hmembers
    exact (Slots.ofObject_eq_ok_iff hfs.nodup).2 ⟨_, rfl, htaken.of_unknown hmem⟩
  · cases hk

/-- Records of two kinds, of which the first is preferred. -/
def preferRecord {fs gs : List Field} (S : Schemas fs) (T : Schemas gs)
    (hfs : AllRequired fs) (hgs : AllRequired gs)
    (hshared : ∀ name ∈ fs.map Field.name, name ∈ gs.map Field.name →
      ∀ p, S.kind? fs name p = T.kind? gs name p) :
    Schema fun v => Sum.elim (fun slots : Slots fs => Slots.ofObject fs v = .ok slots)
      fun slots : Slots gs => (∀ slots, ¬ Slots.ofObject fs v = .ok slots) ∧
        Slots.ofObject gs v = .ok slots :=
  prefer (record S hfs) (record T hgs)
    (by
      rintro (_ | ⟨name | _, p⟩) k k' hk hk'
      · cases hk
      · have hsame := hshared name (Schemas.mem_of_kind? hk) (Schemas.mem_of_kind? hk') p
        exact Option.some.inj (hk.symm.trans (hsame.trans hk'))
      · cases hk)
    (ofObject_of_other hshared)
    (ofObject_of_other fun name hname hname' p => (hshared name hname' hname p).symm)

/-! ### The value around a number -/

section
variable {gap : List Frame} {m : JsonNumber}

theorem gap_of_integer {k : WordKind} {w : Word k}
    (h : Codec.read (fill gap (.number m)) = .ok w) : gap = [] := by
  have hvalue := readWord_eq_ok_iff.1 h
  rcases gap with _ | ⟨_ | _, gap⟩
  · rfl
  all_goals cases hvalue

theorem gap_of_record {fs : List Field} {slots : Slots fs}
    (h : Slots.ofObject fs (fill gap (.number m)) = .ok slots) :
    ∃ before name after inner, gap = .member before name after :: inner := by
  rcases gap with _ | ⟨⟨before, name, after⟩ | _, inner⟩
  · cases h
  · exact ⟨before, name, after, inner, rfl⟩
  · cases h

theorem gap_of_list {α : Type} [Codec α] {as : List α}
    (h : Codec.readList (fill gap (.number m)) = .ok as) :
    ∃ before after inner, gap = .item before after :: inner := by
  obtain ⟨items, hitems, -⟩ := readList_eq_ok_iff.1 h
  rcases gap with _ | ⟨_ | ⟨before, after⟩, inner⟩
  · cases hitems
  · cases hitems
  · exact ⟨before, after, inner, rfl⟩

theorem gap_of_pair {α : Type} [Codec α] {ab : α × α}
    (h : Codec.readPair (fill gap (.number m)) = .ok ab) :
    ∃ before after inner, gap = .item before after :: inner := by
  obtain ⟨x, y, hitems, -⟩ := readPair_eq_ok_iff.1 h
  rcases gap with _ | ⟨_ | ⟨before, after⟩, inner⟩
  · cases hitems
  · cases hitems
  · exact ⟨before, after, inner, rfl⟩

end

end Schema

/-! ### Parts of commands -/

namespace Elements
open Schema

/-- The numbers of a list, unless they are no whole numbers. -/
def held? : Elements → List Step → Option Int
  | i8 xs, p | u8 xs, p | i16 xs, p | u16 xs, p | i32 xs, p | u32 xs, p =>
    (list (integer _)).held? xs p
  | f32 _, _ => none

/-- The list that stands under the name of its type. -/
def placesAs : (t : ElementType) → Schema fun v d => readAs v t = .ok d
  | .i8 => (list (integer .i8)).via i8 held? (fun _ _ => rfl) fun _ _ => map_eq_ok_iff
  | .u8 => (list (integer .u8)).via u8 held? (fun _ _ => rfl) fun _ _ => map_eq_ok_iff
  | .i16 => (list (integer .i16)).via i16 held? (fun _ _ => rfl) fun _ _ => map_eq_ok_iff
  | .u16 => (list (integer .u16)).via u16 held? (fun _ _ => rfl) fun _ _ => map_eq_ok_iff
  | .i32 => (list (integer .i32)).via i32 held? (fun _ _ => rfl) fun _ _ => map_eq_ok_iff
  | .u32 => (list (integer .u32)).via u32 held? (fun _ _ => rfl) fun _ _ => map_eq_ok_iff
  | .f32 => nothing

theorem type_of_readAs {v : Json} {t : ElementType} {d : Elements} (h : readAs v t = .ok d) :
    d.type = t := by
  cases t <;> (obtain ⟨xs, -, rfl⟩ := map_eq_ok_iff.1 h; rfl)

theorem held?_placesAs (d : Elements) (p : List Step) :
    (placesAs d.type).held? d p = d.held? p := by
  cases d <;> rfl

theorem read_eq_ok_iff {v : Json} {d : Elements} :
    Codec.read v = .ok d ↔ ∃ name list, v = .object [(name, list)] ∧
      Choice.ofWord? name = some d.type ∧ readAs list d.type = .ok d := by
  change Elements.read v = .ok d ↔ _
  constructor
  · intro h
    obtain ⟨⟨name, contents⟩, hsplit, h⟩ := ok_of_bind h
    obtain ⟨t, hname, h⟩ := ok_of_bind h
    unfold Codec.readName at hname
    split at hname
    · next u hu =>
      cases hname
      unfold Codec.splitName at hsplit
      split at hsplit
      · cases hsplit
        cases h
      · next list =>
        cases hsplit
        obtain rfl := type_of_readAs h
        exact ⟨name, list, rfl, hu, h⟩
      · cases hsplit
      · cases hsplit
    · cases hname
  · rintro ⟨name, list, rfl, hname, h⟩
    simp only [Elements.read, Codec.splitName, ok_bind, Codec.readName, hname]
    exact h

/-- An object of the list under the name of its type. -/
def places : Of Elements where
  kind?
    | .key name :: p => (Choice.ofWord? name).bind fun t => (placesAs t).kind? p
    | _ => none
  held?
    | d, .key name :: p => if Choice.ofWord? name = some d.type then d.held? p else none
    | _, _ => none
  PassesOver
    | d, .key _ :: p => (placesAs d.type).PassesOver d p
    | _, _ => False
  keeps {gap m d k} hread hk := by
    obtain ⟨name, list, hv, hname, hlist⟩ := read_eq_ok_iff.1 hread
    rcases gap with _ | ⟨⟨_ | ⟨first, _ | ⟨second, before⟩⟩, key, after⟩ | _, gap⟩
    · cases hk
    · cases hv
      obtain ⟨t, ht, hk⟩ := Option.bind_eq_some_iff.1 hk
      cases hname.symm.trans ht
      rcases (placesAs d.type).keeps hlist hk with ⟨w, hm, hheld⟩ | hover
      · refine .inl ⟨w, hm, ?_⟩
        rw [held?_placesAs] at hheld
        exact (if_pos hname).trans hheld
      · exact .inr hover
    · cases hv
    · cases hv
    · cases hk
  takes {gap m d k} hread hk w := by
    obtain ⟨name, list, hv, hname, hlist⟩ := read_eq_ok_iff.1 hread
    rcases gap with _ | ⟨⟨_ | ⟨first, _ | ⟨second, before⟩⟩, key, after⟩ | _, gap⟩
    · cases hk
    · cases hv
      obtain ⟨t, ht, hk⟩ := Option.bind_eq_some_iff.1 hk
      cases hname.symm.trans ht
      obtain ⟨d', hlist'⟩ := (placesAs d.type).takes hlist hk w
      rw [← type_of_readAs hlist'] at hname hlist'
      exact ⟨d', read_eq_ok_iff.2 ⟨_, _, rfl, hname, hlist'⟩⟩
    · cases hv
    · cases hv
    · cases hk
  spelled {v d p n} hread hn := by
    obtain ⟨name, list, rfl, hname, hlist⟩ := read_eq_ok_iff.1 hread
    rcases p with _ | ⟨key | _, p⟩
    · cases hn
    · by_cases hkey : Choice.ofWord? key = some d.type
      · have hsame : key = name :=
          (Choice.word_of_ofWord? hkey).symm.trans (Choice.word_of_ofWord? hname)
        have hheld : d.held? p = some n := (if_pos hkey).symm.trans hn
        rw [← held?_placesAs] at hheld
        obtain ⟨gap, rfl, hknown, rfl⟩ := (placesAs d.type).spelled hlist hheld
        have hkind :
            ((Choice.ofWord? key).bind fun t => (placesAs t).kind? (place gap)).isSome := by
          rw [hkey]
          exact hknown
        exact ⟨.member [] name [] :: gap, by rw [hsame]; rfl, hkind, rfl⟩
      · cases (if_neg hkey).symm.trans hn
    · cases hn

end Elements

namespace Command
open Schema (Of readWord_eq_ok_iff firstOf_iff firstOf_apart_iff gap_of_integer gap_of_record
  gap_of_list gap_of_pair)

namespace Storage

theorem textureFields_allRequired : AllRequired textureFields :=
  ⟨by decide, by simp [textureFields, Field.required, Field.plainChoice]⟩

/-- The storage of a texture. -/
def texturePlaces : Schema fun v (slots : Slots textureFields) =>
    Slots.ofObject textureFields v = .ok slots :=
  .record (.pair (.integer .size), .nothing, ()) textureFields_allRequired

/-- A size in bytes, or the two sides of a texture. -/
def places : Of Storage :=
  (Schema.either (.integer .size) texturePlaces
      (fun _ _ _ h => by rw [gap_of_integer h]; rfl)
      (fun _ _ _ h => by obtain ⟨_, _, _, _, rfl⟩ := gap_of_record h; rfl)).via
    (Sum.elim bytes fun (shape, format, ()) => texture shape format)
    (fun
      | bytes n => (Schema.integer .size).held? n
      | texture shape format => texturePlaces.held? (shape, format, ()))
    (by rintro (n | ⟨shape, format, ⟨⟩⟩) p <;> rfl)
    (firstOf_apart_iff fun {v a b} ha hb => by
      rw [readWord_eq_ok_iff.1 ha] at hb
      cases hb)

end Storage

namespace Offset

/-- A byte, or a row and a column. -/
def places : Of Offset :=
  (Schema.either (.integer .size) (.pair (.integer .size))
      (fun _ _ _ h => by rw [gap_of_integer h]; rfl)
      (fun _ _ _ h => by obtain ⟨_, _, _, rfl⟩ := gap_of_pair h; rfl)).via
    (Sum.elim linear texel)
    (fun
      | linear n => (Schema.integer .size).held? n
      | texel place => (Schema.pair (.integer .size)).held? place)
    (by rintro (n | place) p <;> rfl)
    (firstOf_apart_iff fun {v a b} ha hb => by
      rw [readWord_eq_ok_iff.1 ha] at hb
      cases hb)

end Offset

namespace Source

theorem bufferFields_allRequired : AllRequired bufferFields :=
  ⟨by decide, by simp [bufferFields, Field.required]⟩

/-- A source in a buffer. -/
def bufferPlaces : Schema fun v (slots : Slots bufferFields) =>
    Slots.ofObject bufferFields v = .ok slots :=
  .record (.integer .u32, .integer .i32, .integer .size, ()) bufferFields_allRequired

/-- A place in a buffer; the numbers of a constant source are no whole numbers. -/
def places : Of Source :=
  (Schema.either bufferPlaces .nothing (fun _ _ _ _ => rfl)
      (fun _ _ _ h => by obtain ⟨_, _, _, rfl⟩ := gap_of_list h; rfl)).via
    (Sum.elim (fun (id, stride, offset, ()) => buffer id stride offset) constant)
    (fun
      | buffer id stride offset => bufferPlaces.held? (id, stride, offset, ())
      | constant _ => fun _ => none)
    (by rintro (⟨id, stride, offset, ⟨⟩⟩ | values) p <;> rfl)
    (firstOf_apart_iff fun {v a b} ha hb => by
      obtain ⟨members, rfl, -⟩ := (Slots.ofObject_eq_ok_iff bufferFields_allRequired.nodup).1 ha
      cases hb)

end Source

namespace Selection

theorem elementFields_allRequired : AllRequired elementFields :=
  ⟨by decide, by simp [elementFields, Field.required, Field.plainChoice]⟩

theorem rangeFields_allRequired : AllRequired rangeFields :=
  ⟨by decide, by simp [rangeFields, Field.required]⟩

def elementSchemas : Schemas elementFields := (.integer .u32, .nothing, .integer .size, ())

def rangeSchemas : Schemas rangeFields := (.integer .size, .integer .size, ())

/-- A selection by indices, or of consecutive vertices. -/
def places : Of Selection :=
  (Schema.preferRecord elementSchemas rangeSchemas elementFields_allRequired rangeFields_allRequired
      (by
        intro name hname hname' p
        have hcount : name = "count" := by
          simp [elementFields, rangeFields, Field.required, Field.plainChoice] at hname hname'
          rcases hname' with rfl | rfl
          · simp at hname
          · rfl
        subst hcount
        rfl)).via
    (Sum.elim (fun (id, type, count, ()) => elements id type count)
      (fun (first, count, ()) => range first count))
    (fun
      | elements id type count =>
        (Schema.record elementSchemas elementFields_allRequired).held? (id, type, count, ())
      | range first count =>
        (Schema.record rangeSchemas rangeFields_allRequired).held? (first, count, ()))
    (by rintro (⟨id, type, count, ⟨⟩⟩ | ⟨first, count, ⟨⟩⟩) p <;> rfl)
    firstOf_iff

end Selection

/-! ### Commands -/

/-- Where the fields of a command hold whole numbers. -/
def Tag.schemas : (t : Tag) → Schemas t.fields
  | .create => (.integer .u32, .nothing, ())
  | .delete => (.integer .u32, ())
  | .shaders => (.integer .u32, .nothing, .nothing, ())
  | .size => (.integer .u32, Storage.places, ())
  | .data => (.integer .u32, Offset.places, .option (.pair (.integer .size)), Elements.places, ())
  | .attribute => (.integer .u32, .nothing, .nothing, Source.places, ())
  | .uniform => (.integer .u32, .nothing, .nothing, .nothing, ())
  | .texture => (.integer .u32, .nothing, .integer .u32, ())
  | .interpolation => (.integer .u32, .nothing, .nothing, ())
  | .wrapping => (.integer .u32, .nothing, ())
  | .draw => (.integer .u32, .nothing, Selection.places, ())

/-- The place by the name of its field, where the field is an item of a list. -/
def Tag.named (t : Tag) : List Step → List Step
  | .item (i + 1) :: p =>
    match t.fields[i]? with
    | some f => .key f.name :: p
    | none => .item (i + 1) :: p
  | p => p

/-- The range of the whole number in a place. -/
def Tag.kind? (t : Tag) : List Step → Option WordKind
  | .key name :: p => t.schemas.kind? t.fields name p
  | _ => none

example : Tag.kind? .draw [.key "selection", .key "index_buffer"] = some .u32 := rfl

example (i : Nat) : Tag.kind? .data [.key "data", .key "u16", .item i] = some .u16 := rfl

/-- The whole number that a command holds in a place. -/
def held? (c : Command) : List Step → Option Int
  | .key name :: p => c.tag.schemas.held? c.tag.fields c.slots name p
  | _ => none

/-- A selection of one form does not look at a number that only the other form has. -/
def PassesOver : Command → List Step → Prop
  | .draw _ _ (.elements ..), p => p = [.key "selection", .key "first"]
  | .draw _ _ (.range ..), p => p = [.key "selection", .key "index_buffer"]
  | _, _ => False

/-! ### What stands for a command -/

theorem zip_middle {names : List String} {name : String} {before after : List Json}
    (h : names[before.length]? = some name) (v : Json) :
    names.zip (before ++ v :: after) = (names.take before.length).zip before ++
      (name, v) :: (names.drop (before.length + 1)).zip after := by
  induction before generalizing names with
  | nil =>
    rcases names with _ | ⟨first, names⟩
    · cases h
    · cases h
      rfl
  | cons u before ih =>
    rcases names with _ | ⟨first, names⟩
    · cases h
    · exact congrArg _ (ih h)

theorem taken_cons_unknown_iff {fs : List Field} {name : String} (h : name ∉ fs.map Field.name)
    {slots : Slots fs} {v : Json} {members : List (String × Json)} :
    Slots.Taken fs slots ((name, v) :: members) ↔ Slots.Taken fs slots members := by
  have hvalues (f : Field) (hf : f ∈ fs) :
      valuesUnder f.name ((name, v) :: members) = valuesUnder f.name members := by
    have hne : name ≠ f.name := fun hsame => h (hsame ▸ List.mem_map_of_mem hf)
    exact valuesUnder_cons_of_ne hne v members
  constructor
  · intro htaken
    exact htaken.of_valuesUnder fun f hf => by rw [hvalues f hf]
  · intro htaken
    exact htaken.of_valuesUnder fun f hf => by rw [hvalues f hf]

/-- Fields that are not listed are left out. -/
theorem takeItems_nil_eq_ok_iff {wanted : String} {fs : List Field} {slots : Slots fs} {i : Nat} :
    Slots.takeItems wanted fs i [] = .ok (slots, []) ↔ Slots.Taken fs slots [] := by
  induction fs generalizing i with
  | nil => exact ⟨fun _ => trivial, fun _ => rfl⟩
  | cons f fs ih =>
    obtain ⟨a, slots⟩ := slots
    constructor
    · intro h
      unfold Slots.takeItems at h
      split at h
      · next b habsent =>
        obtain ⟨⟨slots', left⟩, hrest, h⟩ := ok_of_bind h
        cases h
        exact ⟨habsent, ih.1 hrest⟩
      · cases h
    · rintro ⟨habsent, hrest⟩
      have habsent : f.absent = some a := habsent
      simp only [Slots.takeItems, habsent, ih.2 hrest, ok_bind]
      rfl

/-- A list of fields is read as the object in which they have their names. -/
theorem takeItems_eq_ok_iff {wanted : String} {fs : List Field} : (fs.map Field.name).Nodup →
    ∀ {slots : Slots fs} {values : List Json} {i : Nat},
      Slots.takeItems wanted fs i values = .ok (slots, []) ↔
        values.length ≤ fs.length ∧ Slots.Taken fs slots ((fs.map Field.name).zip values) := by
  induction fs with
  | nil =>
    intro _ slots values i
    constructor
    · intro h
      cases h
      exact ⟨Nat.le_refl _, trivial⟩
    · rintro ⟨hlength, -⟩
      obtain rfl := List.eq_nil_of_length_eq_zero (Nat.le_zero.1 hlength)
      rfl
  | cons f fs ih =>
    intro hnames slots values i
    rcases values with _ | ⟨v, values⟩
    · rw [takeItems_nil_eq_ok_iff, List.zip_nil_right]
      exact ⟨fun h => ⟨Nat.zero_le _, h⟩, And.right⟩
    obtain ⟨a, slots⟩ := slots
    obtain ⟨hname, hnames⟩ := List.nodup_cons.1 hnames
    have hzip : ((f :: fs).map Field.name).zip (v :: values) =
        (f.name, v) :: (fs.map Field.name).zip values := rfl
    have hmissing : f.name ∉ keys ((fs.map Field.name).zip values) := by
      intro hmem
      obtain ⟨m, hm, hkey⟩ := List.mem_map.1 hmem
      exact hname (hkey ▸ (List.of_mem_zip hm).1)
    rw [hzip, Slots.Taken, valuesUnder_cons_self, valuesUnder_of_not_mem hmissing,
      taken_cons_unknown_iff hname, List.length_cons, List.length_cons, Nat.add_le_add_iff_right]
    constructor
    · intro h
      obtain ⟨b, hread, h⟩ := ok_of_bind h
      obtain ⟨⟨slots', left⟩, hrest, h⟩ := ok_of_bind h
      cases h
      obtain ⟨hlength, hrest⟩ := (ih hnames).1 hrest
      exact ⟨hlength, hread, hrest⟩
    · rintro ⟨hlength, hread, hrest⟩
      have hread : f.read v = .ok a := hread
      have hrest' := (ih hnames (i := i + 1)).2 ⟨hlength, hrest⟩
      simp only [Slots.takeItems, hread, ok_bind, hrest']
      rfl

theorem ofItems_eq_ok_iff {owner : String} {fs : List Field}
    (hnames : (fs.map Field.name).Nodup) {slots : Slots fs} {values : List Json} :
    Slots.ofItems owner fs values = .ok slots ↔
      values.length ≤ fs.length ∧ Slots.Taken fs slots ((fs.map Field.name).zip values) := by
  have htakes : Slots.takeItems (owner ++ " with " ++ Codec.elements fs.length) fs 0 values =
      .ok (slots, []) ↔ _ := takeItems_eq_ok_iff hnames
  rw [← htakes]
  constructor
  · intro h
    obtain ⟨⟨slots', left⟩, htake, h⟩ := ok_of_bind h
    dsimp only at h
    split at h
    · next hleft =>
      cases h
      rw [htake, List.isEmpty_iff.1 hleft]
    · cases h
  · intro h
    simp only [Slots.ofItems, h, ok_bind]
    rfl

/-- An object stands for a command whose tag it holds and whose fields take their values. -/
theorem stands_object_iff {members : List (String × Json)} {c : Command} :
    Stands (.object members) c ↔
      (∃ v, valuesUnder tagKey members = [v] ∧ TagReads v c.tag) ∧
        Slots.Taken c.tag.fields c.slots members := by
  constructor
  · rintro ⟨t, slots, v, hv, ht, htaken, rfl⟩
    cases t <;> exact ⟨⟨v, hv, ht⟩, htaken⟩
  · rintro ⟨⟨v, hv, ht⟩, htaken⟩
    exact ⟨c.tag, c.slots, v, hv, ht, htaken, ofSlots_slots c⟩

/-- A list does if it begins with the tag, and the fields take the other items. -/
theorem stands_list_iff {items : List Json} {c : Command} :
    Stands (.list items) c ↔ ∃ v values, items = v :: values ∧ TagReads v c.tag ∧
      values.length ≤ c.tag.fields.length ∧
        Slots.Taken c.tag.fields c.slots ((c.tag.fields.map Field.name).zip values) := by
  constructor
  · rintro ⟨t, slots, v, values, rfl, ht, hslots, rfl⟩
    have htaken := (ofItems_eq_ok_iff (nodup_fields t)).1 hslots
    cases t <;> exact ⟨v, values, rfl, ht, htaken⟩
  · rintro ⟨v, values, rfl, ht, htaken⟩
    exact ⟨c.tag, c.slots, v, values, rfl, ht,
      (ofItems_eq_ok_iff (nodup_fields c.tag)).2 htaken, ofSlots_slots c⟩

theorem key_of_kind? {t : Tag} {p : List Step} {k : WordKind} (h : t.kind? p = some k) :
    ∃ name q, p = .key name :: q := by
  rcases p with _ | ⟨name | _, q⟩
  · cases h
  · exact ⟨name, q, rfl⟩
  · cases h

theorem named_item {t : Tag} {name : String} {i : Nat}
    (h : (t.fields.map Field.name)[i]? = some name) (p : List Step) :
    t.named (.item (i + 1) :: p) = .key name :: p := by
  rw [List.getElem?_map] at h
  obtain ⟨f, hf, rfl⟩ := Option.map_eq_some_iff.1 h
  simp only [Tag.named, hf]

/-- Which name the field has that is an item of a list. -/
theorem item_of_named {t : Tag} {name : String} {i : Nat} {p q : List Step}
    (h : t.named (.item i :: p) = .key name :: q) :
    p = q ∧ ∃ j, i = j + 1 ∧ (t.fields.map Field.name)[j]? = some name := by
  rcases i with _ | i
  · cases h
  · rcases hfield : t.fields[i]? with _ | f
    · simp only [Tag.named, hfield] at h
      cases h
    · simp only [Tag.named, hfield] at h
      cases h
      exact ⟨rfl, i, rfl, by rw [List.getElem?_map, hfield]; rfl⟩

theorem TagReads.unique {v : Json} {t t' : Tag} (h : TagReads v t) (h' : TagReads v t') :
    t = t' := by
  obtain ⟨s, rfl, hs⟩ := h
  obtain ⟨s', hsame, hs'⟩ := h'
  cases hsame
  exact Option.some.inj (hs.symm.trans hs')

theorem ne_tagKey_of_kind? {t : Tag} {name : String} {p : List Step} {k : WordKind}
    (h : t.kind? (.key name :: p) = some k) : name ≠ tagKey := by
  intro hsame
  exact tagKey_not_mem_fields t (hsame ▸ Schemas.mem_of_kind? h)

/-- **A value in the place of a field stands under the name of the field.**  With another value
there it is read of the same tag, and of whatever the fields take. -/
theorem Stands.exchanged {gap : List Frame} {u : Json} {c : Command} {name : String}
    {p : List Step} (h : Stands (fill gap u) c)
    (hplace : c.tag.named (place gap) = .key name :: p)
    (hname : name ∈ c.tag.fields.map Field.name) :
    ∃ (before : List (String × Json)) (inner : List Frame) (after : List (String × Json)),
      place inner = p ∧
        Slots.Taken c.tag.fields c.slots (before ++ (name, fill inner u) :: after) ∧
        ∀ w c', Stands (fill gap w) c' ↔ ∃ slots,
          Slots.Taken c.tag.fields slots (before ++ (name, fill inner w) :: after) ∧
            ofSlots c.tag slots = c' := by
  -- In a list the first item is the tag, and there is no field in its place.
  rcases gap with _ | ⟨⟨before, key, after⟩ | ⟨_ | ⟨tag, before⟩, after⟩, inner⟩
  · cases hplace
  · obtain ⟨hkey, rfl⟩ := List.cons.inj hplace
    cases hkey
    have hne : name ≠ tagKey := fun hsame => tagKey_not_mem_fields c.tag (hsame ▸ hname)
    obtain ⟨⟨v, hv, ht⟩, htaken⟩ := stands_object_iff.1 h
    refine ⟨before, inner, after, rfl, htaken, fun w c' => ?_⟩
    rw [valuesUnder_middle_of_ne hne before _ (fill inner w) after] at hv
    constructor
    · rintro ⟨t, slots, v', hv', ht', htaken', hc⟩
      cases hv.symm.trans hv'
      obtain rfl := ht.unique ht'
      exact ⟨slots, htaken', hc⟩
    · rintro ⟨slots, htaken', hc⟩
      exact ⟨c.tag, slots, v, hv, ht, htaken', hc⟩
  · cases hplace
  · obtain ⟨rfl, j, hj, hitem⟩ := item_of_named hplace
    obtain rfl := Nat.succ.inj hj
    obtain ⟨v, values, hitems, ht, hlength, htaken⟩ := stands_list_iff.1 h
    rw [List.cons_append] at hitems
    obtain ⟨rfl, rfl⟩ := List.cons.inj hitems
    rw [zip_middle hitem] at htaken
    refine ⟨_, inner, _, rfl, htaken, fun w c' => ?_⟩
    have hlength' : (before ++ fill inner w :: after).length ≤ c.tag.fields.length := by
      simpa using hlength
    constructor
    · rintro ⟨t, slots, v', values', hitems', ht', hslots, hc⟩
      rw [List.cons_append] at hitems'
      obtain ⟨rfl, rfl⟩ := List.cons.inj hitems'
      obtain rfl := ht.unique ht'
      have htaken' := ((ofItems_eq_ok_iff (nodup_fields c.tag)).1 hslots).2
      rw [zip_middle hitem] at htaken'
      exact ⟨slots, htaken', hc⟩
    · rintro ⟨slots, htaken', hc⟩
      rw [← zip_middle hitem] at htaken'
      exact ⟨c.tag, slots, tag, _, rfl, ht,
        (ofItems_eq_ok_iff (nodup_fields c.tag)).2 ⟨hlength', htaken'⟩, hc⟩

/-- A number in the place of a field has no part in the tag. -/
theorem Stands.tag_eq {gap : List Frame} {m m' : JsonNumber} {c c' : Command} {k : WordKind}
    (h : Stands (fill gap (.number m)) c)
    (hk : c.tag.kind? (c.tag.named (place gap)) = some k)
    (h' : Stands (fill gap (.number m')) c') : c'.tag = c.tag := by
  obtain ⟨name, p, hplace⟩ := key_of_kind? hk
  rw [hplace] at hk
  obtain ⟨before, inner, after, -, -, hexchanged⟩ := h.exchanged hplace (Schemas.mem_of_kind? hk)
  obtain ⟨slots, -, rfl⟩ := (hexchanged _ c').1 h'
  exact tag_ofSlots c.tag slots

/-! ### Numbers that are passed over -/

theorem thorough_elementSchemas : Selection.elementSchemas.Thorough Selection.elementFields :=
  ⟨Schema.thorough_integer _, Schema.thorough_nothing, Schema.thorough_integer _, trivial⟩

theorem thorough_rangeSchemas : Selection.rangeSchemas.Thorough Selection.rangeFields :=
  ⟨Schema.thorough_integer _, Schema.thorough_integer _, trivial⟩

theorem nil_of_integer {k : WordKind} {p : List Step}
    (h : ((Schema.integer k).kind? p).isSome) : p = [] := by
  rcases p with _ | ⟨step, p⟩
  · rfl
  · cases h

/-- A place in a record is one in a field of it. -/
theorem place_of_record {fs : List Field} {S : Schemas fs} {hfs : AllRequired fs} {p : List Step}
    (h : ((Schema.record S hfs).kind? p).isSome) :
    ∃ name q, p = .key name :: q ∧ name ∈ fs.map Field.name ∧ (S.kind? fs name q).isSome := by
  rcases p with _ | ⟨name | _, q⟩
  · cases h
  · obtain ⟨k, hk⟩ := Option.isSome_iff_exists.1 h
    exact ⟨name, q, rfl, Schemas.mem_of_kind? hk, h⟩
  · cases h

theorem place_of_elements {p : List Step} (h : ((Schema.record Selection.elementSchemas
    Selection.elementFields_allRequired).kind? p).isSome) :
    p = [.key "index_buffer"] ∨ p = [.key "count"] := by
  obtain ⟨name, q, rfl, hmem, h⟩ := place_of_record h
  have hname : name = "index_buffer" ∨ name = "index_type" ∨ name = "count" := by
    simpa [Selection.elementFields, Field.required, Field.plainChoice] using hmem
  rcases hname with rfl | rfl | rfl
  · exact .inl (congrArg _ (nil_of_integer h))
  · cases h
  · exact .inr (congrArg _ (nil_of_integer h))

theorem place_of_range {p : List Step} (h : ((Schema.record Selection.rangeSchemas
    Selection.rangeFields_allRequired).kind? p).isSome) :
    p = [.key "first"] ∨ p = [.key "count"] := by
  obtain ⟨name, q, rfl, hmem, h⟩ := place_of_record h
  have hname : name = "first" ∨ name = "count" := by
    simpa [Selection.rangeFields, Field.required] using hmem
  rcases hname with rfl | rfl
  · exact .inl (congrArg _ (nil_of_integer h))
  · exact .inr (congrArg _ (nil_of_integer h))

theorem passesOver_of_selection {selection : Selection} {p : List Step}
    (h : Selection.places.PassesOver selection p) (program : Id) (mode : DrawMode) :
    (Command.draw program mode selection).PassesOver (.key "selection" :: p) := by
  obtain ⟨⟨id, type, count, ⟨⟩⟩ | ⟨first, count, ⟨⟩⟩, rfl, h | ⟨hnone, hsome⟩⟩ := h
  · exact absurd h (Schema.thorough_record thorough_elementSchemas _ _)
  · rcases place_of_range hsome with rfl | rfl
    · rfl
    · cases hnone
  · exact absurd h (Schema.thorough_record thorough_rangeSchemas _ _)
  · rcases place_of_elements hsome with rfl | rfl
    · rfl
    · cases hnone

theorem thorough_storage : Storage.places.Thorough := by
  apply Schema.Thorough.via
  refine .either (Schema.thorough_integer _) (Schema.thorough_record ?_)
  exact ⟨.pair (Schema.thorough_integer _), Schema.thorough_nothing, trivial⟩

theorem thorough_offset : Offset.places.Thorough := by
  apply Schema.Thorough.via
  exact .either (Schema.thorough_integer _) (.pair (Schema.thorough_integer _))

theorem thorough_source : Source.places.Thorough := by
  apply Schema.Thorough.via
  refine .either (Schema.thorough_record ?_) Schema.thorough_nothing
  exact ⟨Schema.thorough_integer _, Schema.thorough_integer _, Schema.thorough_integer _, trivial⟩

theorem thorough_placesAs (t : ElementType) : (Elements.placesAs t).Thorough := by
  have hlist (k : WordKind) : (Schema.list (.integer k)).Thorough :=
    .list (Schema.thorough_integer k)
  cases t with
  | i8 | u8 | i16 | u16 | i32 | u32 =>
    rintro d p ⟨xs, -, hover⟩
    exact hlist _ xs p hover
  | f32 => exact Schema.thorough_nothing

theorem thorough_elements : Elements.places.Thorough := by
  rintro d (_ | ⟨_ | _, p⟩) hover
  · exact hover
  · exact thorough_placesAs d.type d p hover
  · exact hover

/-- Only drawing passes numbers over. -/
theorem thorough_schemas {t : Tag} (ht : t ≠ .draw) : t.schemas.Thorough t.fields := by
  have hinteger := Schema.thorough_integer .u32
  cases t with
  | create => exact ⟨hinteger, Schema.thorough_nothing, trivial⟩
  | delete => exact ⟨hinteger, trivial⟩
  | shaders => exact ⟨hinteger, Schema.thorough_nothing, Schema.thorough_nothing, trivial⟩
  | size => exact ⟨hinteger, thorough_storage, trivial⟩
  | data =>
    have hshape : (Schema.option (.pair (.integer .size))).Thorough :=
      .option (.pair (Schema.thorough_integer .size))
    exact ⟨hinteger, thorough_offset, hshape, thorough_elements, trivial⟩
  | «attribute» =>
    exact ⟨hinteger, Schema.thorough_nothing, Schema.thorough_nothing, thorough_source, trivial⟩
  | uniform => exact ⟨hinteger, Schema.thorough_nothing, Schema.thorough_nothing,
      Schema.thorough_nothing, trivial⟩
  | texture => exact ⟨hinteger, Schema.thorough_nothing, hinteger, trivial⟩
  | interpolation => exact ⟨hinteger, Schema.thorough_nothing, Schema.thorough_nothing, trivial⟩
  | wrapping => exact ⟨hinteger, Schema.thorough_nothing, trivial⟩
  | draw => exact absurd rfl ht

theorem passesOver_of_schemas {c : Command} {name : String} {p : List Step}
    (h : c.tag.schemas.PassesOver c.tag.fields c.slots name p) :
    c.PassesOver (.key name :: p) := by
  by_cases htag : c.tag = .draw
  · cases c with
    | draw program mode selection =>
      have hname : name = "program" ∨ name = "mode" ∨ name = "selection" := by
        simpa [tag, Tag.fields, Field.required] using Schemas.mem_of_passesOver h
      rcases hname with rfl | rfl | rfl
      · exact False.elim h
      · exact False.elim h
      · exact passesOver_of_selection h program mode
    | _ => cases htag
  · exact absurd h (thorough_schemas htag).not_passesOver

/-- **A number that is read in the place of a whole number is one of its range**, and the
command holds it as it is. -/
theorem Stands.keeps {gap : List Frame} {m : JsonNumber} {c : Command} {k : WordKind}
    (h : Stands (fill gap (.number m)) c)
    (hk : c.tag.kind? (c.tag.named (place gap)) = some k) :
    (∃ w : Word k, m = .whole w.val ∧ c.held? (c.tag.named (place gap)) = some w.val) ∨
      c.PassesOver (c.tag.named (place gap)) := by
  obtain ⟨name, p, hplace⟩ := key_of_kind? hk
  rw [hplace] at hk ⊢
  obtain ⟨before, inner, after, rfl, htaken, -⟩ := h.exchanged hplace (Schemas.mem_of_kind? hk)
  exact (Schemas.keeps (nodup_fields c.tag) htaken hk).imp_right passesOver_of_schemas

/-- Where one number is read, every other of the range is. -/
theorem Stands.takes {gap : List Frame} {m : JsonNumber} {c : Command} {k : WordKind}
    (h : Stands (fill gap (.number m)) c)
    (hk : c.tag.kind? (c.tag.named (place gap)) = some k) (w : Word k) :
    ∃ c', c'.tag = c.tag ∧ Stands (fill gap (.number (.whole w.val))) c' := by
  obtain ⟨name, p, hplace⟩ := key_of_kind? hk
  rw [hplace] at hk
  obtain ⟨before, inner, after, rfl, htaken, hexchanged⟩ :=
    h.exchanged hplace (Schemas.mem_of_kind? hk)
  obtain ⟨slots', htaken'⟩ := Schemas.takes (nodup_fields c.tag) htaken hk w
  exact ⟨ofSlots c.tag slots', tag_ofSlots c.tag slots', (hexchanged _ _).2 ⟨slots', htaken', rfl⟩⟩

/-- The only whole number that a field holds without a value of its own. -/
theorem leftOut?_schemas {t : Tag} {name : String} {p : List Step} {n : Int}
    (h : t.schemas.leftOut? t.fields name p = some n) : name = "offset" ∧ p = [] ∧ n = 0 := by
  by_cases ht : t = .data
  · subst ht
    have hname : name = "id" ∨ name = "offset" ∨ name = "shape" ∨ name = "data" := by
      simpa [tag, Tag.fields, Field.required, Field.optional] using Schemas.mem_of_leftOut? h
    rcases hname with rfl | rfl | rfl | rfl
    · cases h
    · rcases p with _ | ⟨step, p⟩
      · exact ⟨rfl, rfl, (Option.some.inj h).symm⟩
      · cases h
    · cases h
    · cases h
  · have hrequired : ∀ f ∈ t.fields, f.absent = none := by
      cases t with
      | data => exact absurd rfl ht
      | _ => simp [Tag.fields, Field.required, Field.labelled]
    rw [Schemas.leftOut?_of_required hrequired] at h
    cases h

theorem zip_split {names : List String} {values : List Json} {before after : List (String × Json)}
    {name : String} {v : Json} (hlength : values.length ≤ names.length)
    (h : names.zip values = before ++ (name, v) :: after) :
    names[before.length]? = some name ∧
      values = before.map Prod.snd ++ v :: after.map Prod.snd := by
  have hvalues := List.map_snd_zip hlength
  have hname : (names.zip values)[before.length]? = some (name, v) := by
    rw [h]
    simp
  obtain ⟨hname, -⟩ := List.getElem?_zip_eq_some.1 hname
  rw [h, List.map_append, List.map_cons] at hvalues
  exact ⟨hname, hvalues.symm⟩

/-- The number stands in this place of the value, as it is.  Only an offset of 0 need not. -/
def Writes (c : Command) (v : Json) (p : List Step) (n : Int) : Prop :=
  (∃ gap, c.tag.named (place gap) = p ∧ (c.tag.kind? p).isSome ∧
    v = fill gap (.number (.whole n))) ∨
    p = [.key "offset"] ∧ n = 0 ∧ ∀ gap u, c.tag.named (place gap) = p → v ≠ fill gap u

section
variable {c : Command} {name : String} {p : List Step} {n : Int}

theorem writes_object {members : List (String × Json)}
    (h : Slots.Taken c.tag.fields c.slots members) (hn : c.held? (.key name :: p) = some n) :
    Writes c (.object members) (.key name :: p) n := by
  rcases Schemas.spelled h hn with
    ⟨before, gap, after, rfl, rfl, hknown⟩ | ⟨hmissing, hout⟩
  · exact .inl ⟨.member before name after :: gap, rfl, hknown, rfl⟩
  · obtain ⟨rfl, rfl, rfl⟩ := leftOut?_schemas hout
    refine .inr ⟨rfl, rfl, ?_⟩
    rintro (_ | ⟨⟨before, key, after⟩ | _, gap⟩) u hplace hv
    · cases hplace
    · obtain ⟨hkey, -⟩ := List.cons.inj hplace
      cases hkey
      cases hv
      exact hmissing (by simp [keys])
    · cases hv

theorem writes_list {tag : Json} {values : List Json}
    (hlength : values.length ≤ c.tag.fields.length)
    (h : Slots.Taken c.tag.fields c.slots ((c.tag.fields.map Field.name).zip values))
    (hn : c.held? (.key name :: p) = some n) :
    Writes c (.list (tag :: values)) (.key name :: p) n := by
  rw [← List.length_map Field.name] at hlength
  rcases Schemas.spelled h hn with ⟨before, gap, after, hzip, rfl, hknown⟩ | ⟨hmissing, hout⟩
  · obtain ⟨hname, rfl⟩ := zip_split hlength hzip
    have hplace := named_item (i := (before.map Prod.snd).length) (by simpa using hname)
      (place gap)
    exact .inl ⟨.item (tag :: before.map Prod.snd) (after.map Prod.snd) :: gap, hplace, hknown,
      rfl⟩
  · obtain ⟨rfl, rfl, rfl⟩ := leftOut?_schemas hout
    refine .inr ⟨rfl, rfl, ?_⟩
    rintro (_ | ⟨_ | ⟨_ | ⟨first, before⟩, after⟩, gap⟩) u hplace hv
    · cases hplace
    · cases hv
    · cases hplace
    · rw [fill, Frame.fill, List.cons_append] at hv
      obtain ⟨rfl, rfl⟩ := List.cons.inj (Json.list.inj hv)
      obtain ⟨-, j, hlength, hname⟩ := item_of_named hplace
      obtain rfl := Nat.succ.inj hlength
      refine hmissing ?_
      rw [zip_middle hname]
      simp [keys]

end

/-- **A whole number that a command holds stands in its value as it is**, unless it is the
offset 0 of an upload that names none. -/
theorem Stands.writes {v : Json} {c : Command} {p : List Step} {n : Int} (h : Stands v c)
    (hn : c.held? p = some n) : Writes c v p n := by
  rcases p with _ | ⟨name | _, p⟩
  · cases hn
  · rcases v with _ | _ | _ | _ | items | members
    case object => exact writes_object (stands_object_iff.1 h).2 hn
    case list =>
      obtain ⟨tag, values, rfl, -, hlength, htaken⟩ := stands_list_iff.1 h
      exact writes_list hlength htaken hn
    all_goals cases h
  · cases hn

end Command

end DrawStream
