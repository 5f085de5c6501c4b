import DrawStream.Proofs.Forms
import DrawStream.Proofs.Gaps

/-! # Where values hold whole numbers

A `Schema` is about a way to read values.  It says in which places a whole number belongs and
of what range, and which number the value read holds there, and it carries the three facts
that make the numbers safe: a number in such a place is one of the range and is held as it is
(`keeps`); if one number is read there, so is every other of the range (`takes`); and what is
held stands in the text of the value and nowhere else (`spelled`).

The schemas of lists, pairs, options, records and unions are put together of those of their
parts.  Of a union of two records the first is preferred, and then a number that only the
second has is not looked at (`prefer`).  A schema in which this does not happen is
`Thorough`. -/
namespace DrawStream

open Json

/-! ### Schemas -/

/-- Where values that are read by `reads` hold whole numbers. -/
structure Schema {α : Type} (reads : Json → α → Prop) where
  /-- The range of the whole number in a place; none if no whole number belongs there. -/
  kind? : List Step → Option WordKind
  /-- The whole number that is held in a place. -/
  held? : α → List Step → Option Int
  /-- The number in the place has not been looked at. -/
  PassesOver : α → List Step → Prop
  keeps : ∀ {gap : List Frame} {m : JsonNumber} {a : α} {k : WordKind},
    reads (fill gap (.number m)) a → kind? (place gap) = some k →
      (∃ w : Word k, m = .whole w.val ∧ held? a (place gap) = some w.val) ∨
        PassesOver a (place gap)
  takes : ∀ {gap : List Frame} {m : JsonNumber} {a : α} {k : WordKind},
    reads (fill gap (.number m)) a → kind? (place gap) = some k →
      ∀ w : Word k, ∃ a', reads (fill gap (.number (.whole w.val))) a'
  spelled : ∀ {v : Json} {a : α} {p : List Step} {n : Int},
    reads v a → held? a p = some n →
      ∃ gap, place gap = p ∧ (kind? p).isSome ∧ v = fill gap (.number (.whole n))

namespace Schema

/-- The schema of all values of a type. -/
abbrev Of (α : Type) [Codec α] : Type := Schema fun v (a : α) => Codec.read v = .ok a

variable {α β : Type} {reads : Json → α → Prop} {reads' : Json → β → Prop}

/-- Values without whole numbers. -/
def nothing : Schema reads where
  kind? _ := none
  held? _ _ := none
  PassesOver _ _ := False
  keeps _ hk := by cases hk
  takes _ hk := by cases hk
  spelled _ hn := by cases hn

theorem readWord_eq_ok_iff {k : WordKind} {v : Json} {w : Word k} :
    Codec.read v = .ok w ↔ v = .number (.whole w.val) := by
  change Codec.readWord k v = .ok w ↔ _
  constructor
  · intro h
    unfold Codec.readWord at h
    split at h
    · next n =>
      split at h
      · next hn =>
        cases h
        rw [Word.ofInt?_eq_some_iff.1 hn]
      · cases h
    · cases h
  · rintro rfl
    simp only [Codec.readWord, Word.ofInt?_val]

/-- A whole number. -/
def integer (k : WordKind) : Of (Word k) where
  kind?
    | [] => some k
    | _ => none
  held?
    | w, [] => some w.val
    | _, _ => none
  PassesOver _ _ := False
  keeps {gap m w k'} hread hk := by
    have hvalue := readWord_eq_ok_iff.1 hread
    rcases gap with _ | ⟨frame, gap⟩
    · cases hk
      cases hvalue
      exact .inl ⟨w, rfl, rfl⟩
    · cases hk
  takes {gap m w k'} _ hk w' := by
    rcases gap with _ | ⟨frame, gap⟩
    · cases hk
      exact ⟨w', readWord_eq_ok_iff.2 rfl⟩
    · cases hk
  spelled {v w p n} hread hn := by
    rcases p with _ | ⟨step, p⟩
    · cases hn
      exact ⟨[], rfl, rfl, readWord_eq_ok_iff.1 hread⟩
    · cases hn

/-- The values of another type that are made of those read. -/
def via (S : Schema reads) (make : α → β) (held? : β → List Step → Option Int)
    (hheld : ∀ a p, held? (make a) p = S.held? a p)
    (hreads : ∀ v b, reads' v b ↔ ∃ a, reads v a ∧ make a = b) : Schema reads' where
  kind? := S.kind?
  held? := held?
  PassesOver b p := ∃ a, make a = b ∧ S.PassesOver a p
  keeps hread hk := by
    obtain ⟨a, ha, rfl⟩ := (hreads _ _).1 hread
    rw [hheld]
    rcases S.keeps ha hk with hkept | hover
    · exact .inl hkept
    · exact .inr ⟨a, rfl, hover⟩
  takes hread hk w := by
    obtain ⟨a, ha, rfl⟩ := (hreads _ _).1 hread
    obtain ⟨a', ha'⟩ := S.takes ha hk w
    exact ⟨make a', (hreads _ _).2 ⟨a', ha', rfl⟩⟩
  spelled hread hn := by
    obtain ⟨a, ha, rfl⟩ := (hreads _ _).1 hread
    rw [hheld] at hn
    exact S.spelled ha hn

/-! ### Lists, pairs and options -/

theorem map_eq_ok_iff {ε : Type} {f : α → β} {x : Except ε α} {b : β} :
    f <$> x = .ok b ↔ ∃ a, x = .ok a ∧ f a = b := by
  rcases x with e | a
  · constructor
    · intro h
      cases h
    · rintro ⟨a, h, -⟩
      cases h
  · constructor
    · intro h
      exact ⟨a, rfl, Except.ok.inj h⟩
    · rintro ⟨a', ha, rfl⟩
      cases ha
      rfl

theorem mapM_eq_ok_iff {ε : Type} {f : Json → Except ε α} {items : List Json} {as : List α} :
    items.mapM f = .ok as ↔ List.Forall₂ (fun a v => f v = .ok a) as items := by
  induction items generalizing as with
  | nil =>
    rw [List.forall₂_nil_right_iff]
    constructor
    · intro h
      cases h
      rfl
    · rintro rfl
      rfl
  | cons v items ih =>
    rw [List.mapM_cons, List.forall₂_cons_right_iff]
    constructor
    · intro h
      obtain ⟨a, ha, h⟩ := ok_of_bind h
      obtain ⟨as', has, h⟩ := ok_of_bind h
      cases h
      exact ⟨a, as', ha, ih.1 has, rfl⟩
    · rintro ⟨a, as', ha, has, rfl⟩
      rw [ha, ok_bind, ih.2 has, ok_bind]
      rfl

theorem readList_eq_ok_iff [Codec α] {v : Json} {as : List α} :
    Codec.readList v = .ok as ↔
      ∃ items, v = .list items ∧ List.Forall₂ (fun a v => Codec.read v = .ok a) as items := by
  constructor
  · intro h
    rcases v with _ | _ | _ | _ | items | _
    case list => exact ⟨items, rfl, mapM_eq_ok_iff.1 h⟩
    all_goals cases h
  · rintro ⟨items, rfl, h⟩
    exact mapM_eq_ok_iff.2 h

/-- A list of such values. -/
def list [Codec α] (S : Of α) : Of (List α) where
  kind?
    | .item _ :: p => S.kind? p
    | _ => none
  held?
    | as, .item i :: p => as[i]?.bind (S.held? · p)
    | _, _ => none
  PassesOver
    | as, .item i :: p => ∃ a, as[i]? = some a ∧ S.PassesOver a p
    | _, _ => False
  keeps {gap m as k} hread hk := by
    obtain ⟨items, hitems, hread⟩ := readList_eq_ok_iff.1 hread
    rcases gap with _ | ⟨_ | ⟨before, after⟩, gap⟩
    · cases hk
    · cases hk
    · cases hitems
      obtain ⟨a, ha, hitem, -⟩ := forall₂_middle hread
      rcases S.keeps hitem hk with ⟨w, hm, hheld⟩ | hover
      · exact .inl ⟨w, hm, Option.bind_eq_some_iff.2 ⟨a, ha, hheld⟩⟩
      · exact .inr ⟨a, ha, hover⟩
  takes {gap m as k} hread hk w := by
    obtain ⟨items, hitems, hread⟩ := readList_eq_ok_iff.1 hread
    rcases gap with _ | ⟨_ | ⟨before, after⟩, gap⟩
    · cases hk
    · cases hk
    · cases hitems
      obtain ⟨a, -, hitem, hreplaced⟩ := forall₂_middle hread
      obtain ⟨a', hitem'⟩ := S.takes hitem hk w
      exact ⟨_, readList_eq_ok_iff.2 ⟨_, rfl, hreplaced _ a' hitem'⟩⟩
  spelled {v as p n} hread hn := by
    obtain ⟨items, rfl, hitems⟩ := readList_eq_ok_iff.1 hread
    rcases p with _ | ⟨_ | i, p⟩
    · cases hn
    · cases hn
    · obtain ⟨a, ha, hheld⟩ := Option.bind_eq_some_iff.1 hn
      obtain ⟨before, v, after, rfl, rfl, hitem⟩ := forall₂_getElem? hitems ha
      obtain ⟨gap, rfl, hknown, rfl⟩ := S.spelled hitem hheld
      exact ⟨.item before after :: gap, rfl, hknown, rfl⟩

theorem readPair_eq_ok_iff [Codec α] {v : Json} {ab : α × α} :
    Codec.readPair v = .ok ab ↔
      ∃ x y, v = .list [x, y] ∧ Codec.read x = .ok ab.1 ∧ Codec.read y = .ok ab.2 := by
  constructor
  · intro h
    rcases v with _ | _ | _ | _ | items | _
    case list =>
      rcases items with _ | ⟨x, items⟩
      · cases h
      obtain ⟨a, ha, h⟩ := ok_of_bind h
      rcases items with _ | ⟨y, items⟩
      · cases h
      obtain ⟨b, hb, h⟩ := ok_of_bind h
      rcases items with _ | ⟨z, items⟩
      · cases h
        exact ⟨x, y, rfl, ha, hb⟩
      · cases h
    all_goals cases h
  · rintro ⟨x, y, rfl, hx, hy⟩
    exact Command.readPair_of hx hy

/-- Two such values. -/
def pair [Codec α] (S : Of α) : Of (α × α) where
  kind?
    | .item 0 :: p | .item 1 :: p => S.kind? p
    | _ => none
  held?
    | (a, _), .item 0 :: p => S.held? a p
    | (_, b), .item 1 :: p => S.held? b p
    | _, _ => none
  PassesOver
    | (a, _), .item 0 :: p => S.PassesOver a p
    | (_, b), .item 1 :: p => S.PassesOver b p
    | _, _ => False
  keeps {gap m ab k} hread hk := by
    obtain ⟨x, y, hv, hx, hy⟩ := readPair_eq_ok_iff.1 hread
    rcases gap with _ | ⟨_ | ⟨_ | ⟨u, _ | ⟨w, before⟩⟩, after⟩, gap⟩
    · cases hk
    · cases hk
    · cases hv
      exact S.keeps hx hk
    · cases hv
      exact S.keeps hy hk
    · cases hk
  takes {gap m ab k} hread hk w := by
    obtain ⟨x, y, hv, hx, hy⟩ := readPair_eq_ok_iff.1 hread
    rcases gap with _ | ⟨_ | ⟨_ | ⟨u, _ | ⟨w, before⟩⟩, after⟩, gap⟩
    · cases hk
    · cases hk
    · cases hv
      obtain ⟨a, ha⟩ := S.takes hx hk w
      exact ⟨(a, ab.2), readPair_eq_ok_iff.2 ⟨_, _, rfl, ha, hy⟩⟩
    · cases hv
      obtain ⟨b, hb⟩ := S.takes hy hk w
      exact ⟨(ab.1, b), readPair_eq_ok_iff.2 ⟨_, _, rfl, hx, hb⟩⟩
    · cases hk
  spelled {v ab p n} hread hn := by
    obtain ⟨x, y, rfl, hx, hy⟩ := readPair_eq_ok_iff.1 hread
    rcases p with _ | ⟨_ | _ | _ | i, p⟩
    · cases hn
    · cases hn
    · obtain ⟨gap, rfl, hknown, rfl⟩ := S.spelled hx hn
      exact ⟨.item [] [y] :: gap, rfl, hknown, rfl⟩
    · obtain ⟨gap, rfl, hknown, rfl⟩ := S.spelled hy hn
      exact ⟨.item [x] [] :: gap, rfl, hknown, rfl⟩
    · cases hn

theorem readOption_eq_ok_iff [Codec α] {v : Json} (h : v ≠ .null) {o : Option α} :
    Codec.readOption v = .ok o ↔ ∃ a, Codec.read v = .ok a ∧ some a = o := by
  rw [← map_eq_ok_iff]
  rcases v with _ | _ | _ | _ | _ | _
  case null => exact absurd rfl h
  all_goals rfl

/-- Such a value, or null. -/
def option [Codec α] (S : Of α) : Of (Option α) where
  kind? := S.kind?
  held? o p := o.bind (S.held? · p)
  PassesOver o p := ∃ a, o = some a ∧ S.PassesOver a p
  keeps {gap m o k} hread hk := by
    obtain ⟨a, ha, rfl⟩ := (readOption_eq_ok_iff (fill_number_ne_null gap m)).1 hread
    rcases S.keeps ha hk with hkept | hover
    · exact .inl hkept
    · exact .inr ⟨a, rfl, hover⟩
  takes {gap m o k} hread hk w := by
    obtain ⟨a, ha, rfl⟩ := (readOption_eq_ok_iff (fill_number_ne_null gap m)).1 hread
    obtain ⟨a', ha'⟩ := S.takes ha hk w
    exact ⟨some a', (readOption_eq_ok_iff (fill_number_ne_null gap _)).2 ⟨a', ha', rfl⟩⟩
  spelled {v o p n} hread hn := by
    obtain ⟨a, rfl, hheld⟩ := Option.bind_eq_some_iff.1 hn
    by_cases hnull : v = .null
    · subst hnull
      cases hread
    · obtain ⟨b, hb, hsame⟩ := (readOption_eq_ok_iff hnull).1 hread
      cases hsame
      exact S.spelled hb hheld

/-- A value of one of two kinds that no number makes look like the other. -/
def either (S : Schema reads) (T : Schema reads')
    (hS : ∀ gap m a, reads (fill gap (.number m)) a → T.kind? (place gap) = none)
    (hT : ∀ gap m b, reads' (fill gap (.number m)) b → S.kind? (place gap) = none) :
    Schema fun v => Sum.elim (reads v) (reads' v) where
  kind? p := (S.kind? p).or (T.kind? p)
  held? := Sum.elim S.held? T.held?
  PassesOver := Sum.elim S.PassesOver T.PassesOver
  keeps {gap m ab k} hread hk := by
    rcases ab with a | b
    · rw [hS _ _ _ hread, Option.or_none] at hk
      exact S.keeps hread hk
    · rw [hT _ _ _ hread, Option.none_or] at hk
      exact T.keeps hread hk
  takes {gap m ab k} hread hk w := by
    rcases ab with a | b
    · rw [hS _ _ _ hread, Option.or_none] at hk
      obtain ⟨a', ha'⟩ := S.takes hread hk w
      exact ⟨.inl a', ha'⟩
    · rw [hT _ _ _ hread, Option.none_or] at hk
      obtain ⟨b', hb'⟩ := T.takes hread hk w
      exact ⟨.inr b', hb'⟩
  spelled {v ab p n} hread hn := by
    rcases ab with a | b
    · obtain ⟨gap, hplace, hknown, hv⟩ := S.spelled hread hn
      exact ⟨gap, hplace, by simp [hknown], hv⟩
    · obtain ⟨gap, hplace, hknown, hv⟩ := T.spelled hread hn
      exact ⟨gap, hplace, by simp [hknown], hv⟩

/-- Where two kinds agree, it does not matter which comes first. -/
theorem kind_of_or {o o' : Option WordKind} {k k' : WordKind}
    (h : ∀ {k k'}, o = some k → o' = some k' → k = k') (hor : o.or o' = some k)
    (hsecond : o' = some k') : k' = k := by
  rcases Option.or_eq_some_iff.1 hor with hfirst | ⟨-, hfirst⟩
  · exact (h hfirst hsecond).symm
  · exact Option.some.inj (hsecond.symm.trans hfirst)

/-- A value of the first kind if it can be read as one, and of the second kind otherwise.
Neither kind looks at a number in a place where only the other has one. -/
def prefer (S : Schema reads) (T : Schema reads')
    (hkinds : ∀ {p k k'}, S.kind? p = some k → T.kind? p = some k' → k = k')
    (hS : ∀ {gap m m' a k}, S.kind? (place gap) = none → T.kind? (place gap) = some k →
      reads (fill gap (.number m)) a → reads (fill gap (.number m')) a)
    (hT : ∀ {gap m m' b k}, T.kind? (place gap) = none → S.kind? (place gap) = some k →
      reads' (fill gap (.number m)) b → reads' (fill gap (.number m')) b) :
    Schema fun v => Sum.elim (reads v) fun b => (∀ a, ¬ reads v a) ∧ reads' v b where
  kind? p := (S.kind? p).or (T.kind? p)
  held? := Sum.elim S.held? T.held?
  PassesOver
    | .inl a, p => S.PassesOver a p ∨ S.kind? p = none ∧ (T.kind? p).isSome
    | .inr b, p => T.PassesOver b p ∨ T.kind? p = none ∧ (S.kind? p).isSome
  keeps {gap m ab k} hread hk := by
    rcases ab with a | b
    · rcases hkind : S.kind? (place gap) with _ | k'
      · rw [hkind, Option.none_or] at hk
        exact .inr (.inr ⟨hkind, by rw [hk]; rfl⟩)
      · rw [hkind, Option.some_or] at hk
        cases hk
        exact (S.keeps hread hkind).imp_right .inl
    · rcases hkind : T.kind? (place gap) with _ | k'
      · rw [hkind, Option.or_none] at hk
        exact .inr (.inr ⟨hkind, by rw [hk]; rfl⟩)
      · obtain rfl := kind_of_or hkinds hk hkind
        exact (T.keeps hread.2 hkind).imp_right .inl
  takes {gap m ab k} hread hk w := by
    -- Whatever is read of the second kind may as well be of the first.
    have hsecond : (∃ b, reads' (fill gap (.number (.whole w.val))) b) →
        ∃ ab, Sum.elim (reads (fill gap (.number (.whole w.val)))) (fun b =>
          (∀ a, ¬ reads (fill gap (.number (.whole w.val))) a) ∧
            reads' (fill gap (.number (.whole w.val))) b) ab := by
      rintro ⟨b, hb⟩
      by_cases hfirst : ∃ a, reads (fill gap (.number (.whole w.val))) a
      · obtain ⟨a, ha⟩ := hfirst
        exact ⟨.inl a, ha⟩
      · exact ⟨.inr b, not_exists.1 hfirst, hb⟩
    rcases ab with a | b
    · rcases hkind : S.kind? (place gap) with _ | k'
      · rw [hkind, Option.none_or] at hk
        exact ⟨.inl a, hS hkind hk hread⟩
      · rw [hkind, Option.some_or] at hk
        cases hk
        obtain ⟨a', ha'⟩ := S.takes hread hkind w
        exact ⟨.inl a', ha'⟩
    · apply hsecond
      rcases hkind : T.kind? (place gap) with _ | k'
      · rw [hkind, Option.or_none] at hk
        exact ⟨b, hT hkind hk hread.2⟩
      · obtain rfl := kind_of_or hkinds hk hkind
        exact T.takes hread.2 hkind w
  spelled {v ab p n} hread hn := by
    rcases ab with a | b
    · obtain ⟨gap, hplace, hknown, hv⟩ := S.spelled hread hn
      exact ⟨gap, hplace, by simp [hknown], hv⟩
    · obtain ⟨gap, hplace, hknown, hv⟩ := T.spelled hread.2 hn
      exact ⟨gap, hplace, by simp [hknown], hv⟩

end Schema

/-! ### Records -/

/-- A schema for every field. -/
def Schemas : List Field → Type
  | [] => Unit
  | f :: fs => Schema f.Reads × Schemas fs

namespace Schemas

/-- The range of the whole number in a place of the field with this name. -/
def kind? : (fs : List Field) → Schemas fs → String → List Step → Option WordKind
  | [], (), _, _ => none
  | f :: fs, (S, rest), name, p => if name = f.name then S.kind? p else kind? fs rest name p

/-- The whole number that is held there. -/
def held? : (fs : List Field) → Schemas fs → Slots fs → String → List Step → Option Int
  | [], (), (), _, _ => none
  | f :: fs, (S, rest), (a, slots), name, p =>
    if name = f.name then S.held? a p else held? fs rest slots name p

/-- The number there has not been looked at. -/
def PassesOver : (fs : List Field) → Schemas fs → Slots fs → String → List Step → Prop
  | [], (), (), _, _ => False
  | f :: fs, (S, rest), (a, slots), name, p =>
    if name = f.name then S.PassesOver a p else PassesOver fs rest slots name p

/-- The whole number that the stand-in of a field holds. -/
def leftOut? : (fs : List Field) → Schemas fs → String → List Step → Option Int
  | [], (), _, _ => none
  | f :: fs, (S, rest), name, p =>
    if name = f.name then f.absent.bind (S.held? · p) else leftOut? fs rest name p

end Schemas

theorem valuesUnder_middle (key : String) (before : List (String × Json)) (v : Json)
    (after : List (String × Json)) : valuesUnder key (before ++ (key, v) :: after) =
      valuesUnder key before ++ v :: valuesUnder key after := by
  rw [valuesUnder_append, valuesUnder_cons_self]

theorem valuesUnder_middle_of_ne {key other : String} (h : other ≠ key)
    (before : List (String × Json)) (v w : Json) (after : List (String × Json)) :
    valuesUnder key (before ++ (other, v) :: after) =
      valuesUnder key (before ++ (other, w) :: after) := by
  rw [valuesUnder_append, valuesUnder_append, valuesUnder_cons_of_ne h, valuesUnder_cons_of_ne h]

/-- Of values under its name, a field takes one that is alone. -/
theorem Field.takes_middle_iff {f : Field} {xs ys : List Json} {v : Json} {a : f.Value} :
    f.Takes (xs ++ v :: ys) a ↔ xs = [] ∧ ys = [] ∧ f.Reads v a := by
  constructor
  · intro h
    rcases xs with _ | ⟨x, xs⟩
    · rcases ys with _ | ⟨y, ys⟩
      · exact ⟨rfl, rfl, h⟩
      · exact h.elim
    · rcases xs with _ | ⟨x', xs⟩ <;> exact h.elim
  · rintro ⟨rfl, rfl, h⟩
    exact h

section
variable {fs : List Field} {before after : List (String × Json)} {name : String}

/-- What stands under an unknown key does not matter. -/
theorem Slots.Taken.of_unknown (h : name ∉ fs.map Field.name) {slots : Slots fs} {v w : Json}
    (htaken : Taken fs slots (before ++ (name, v) :: after)) :
    Taken fs slots (before ++ (name, w) :: after) := by
  refine htaken.of_valuesUnder ?_
  intro f hf
  have hne : name ≠ f.name := fun hsame => h (hsame ▸ List.mem_map_of_mem hf)
  rw [valuesUnder_middle_of_ne hne before v w after]

namespace Schemas
variable {S : Schemas fs} {slots : Slots fs} {p : List Step} {k : WordKind}

/-- There is nothing to say of a name that no field has. -/
theorem unknown (h : name ∉ fs.map Field.name) :
    kind? fs S name p = none ∧ leftOut? fs S name p = none ∧
      ∀ slots, ¬ PassesOver fs S slots name p := by
  induction fs with
  | nil => exact ⟨rfl, rfl, fun _ hover => hover⟩
  | cons f fs ih =>
    obtain ⟨first, rest⟩ := S
    obtain ⟨hname, hmem⟩ := not_or.1 (fun hor => h (List.mem_cons.2 hor))
    obtain ⟨hkind, hout, hover⟩ := ih (S := rest) hmem
    refine ⟨(if_neg hname).trans hkind, (if_neg hname).trans hout, ?_⟩
    rintro ⟨a, slots⟩
    rw [PassesOver, if_neg hname]
    exact hover slots

theorem mem_of_kind? (h : kind? fs S name p = some k) : name ∈ fs.map Field.name := by
  by_contra hmem
  rw [(unknown hmem).1] at h
  cases h

theorem mem_of_leftOut? {n : Int} (h : leftOut? fs S name p = some n) :
    name ∈ fs.map Field.name := by
  by_contra hmem
  rw [(unknown hmem).2.1] at h
  cases h

theorem mem_of_passesOver (h : PassesOver fs S slots name p) : name ∈ fs.map Field.name := by
  by_contra hmem
  exact (unknown hmem).2.2 slots h

theorem keeps (hnames : (fs.map Field.name).Nodup) {gap : List Frame} {m : JsonNumber}
    (h : Slots.Taken fs slots (before ++ (name, fill gap (.number m)) :: after))
    (hk : kind? fs S name (place gap) = some k) :
    (∃ w : Word k, m = .whole w.val ∧ held? fs S slots name (place gap) = some w.val) ∨
      PassesOver fs S slots name (place gap) := by
  induction fs with
  | nil => cases hk
  | cons f fs ih =>
    obtain ⟨first, rest⟩ := S
    obtain ⟨a, slots⟩ := slots
    obtain ⟨hfield, hrest⟩ := h
    obtain ⟨-, hnames⟩ := List.nodup_cons.1 hnames
    by_cases hname : name = f.name
    · subst hname
      rw [valuesUnder_middle] at hfield
      obtain ⟨-, -, hread⟩ := Field.takes_middle_iff.1 hfield
      simp only [kind?, held?, PassesOver, if_true] at hk ⊢
      exact first.keeps hread hk
    · simp only [kind?, held?, PassesOver, if_neg hname] at hk ⊢
      exact ih hnames hrest hk

theorem takes (hnames : (fs.map Field.name).Nodup) {gap : List Frame} {m : JsonNumber}
    (h : Slots.Taken fs slots (before ++ (name, fill gap (.number m)) :: after))
    (hk : kind? fs S name (place gap) = some k) (w : Word k) :
    ∃ slots', Slots.Taken fs slots'
      (before ++ (name, fill gap (.number (.whole w.val))) :: after) := by
  induction fs with
  | nil => cases hk
  | cons f fs ih =>
    obtain ⟨first, rest⟩ := S
    obtain ⟨a, slots⟩ := slots
    obtain ⟨hfield, hrest⟩ := h
    obtain ⟨hmem, hnames⟩ := List.nodup_cons.1 hnames
    by_cases hname : name = f.name
    · subst hname
      rw [valuesUnder_middle] at hfield
      obtain ⟨hbefore, hafter, hread⟩ := Field.takes_middle_iff.1 hfield
      simp only [kind?, if_true] at hk
      obtain ⟨a', ha'⟩ := first.takes hread hk w
      refine ⟨(a', slots), ?_, hrest.of_unknown hmem⟩
      rw [valuesUnder_middle]
      exact Field.takes_middle_iff.2 ⟨hbefore, hafter, ha'⟩
    · simp only [kind?, if_neg hname] at hk
      obtain ⟨slots', hslots'⟩ := ih hnames hrest hk
      refine ⟨(a, slots'), ?_, hslots'⟩
      rwa [valuesUnder_middle_of_ne hname before _ (fill gap (.number m)) after]

theorem spelled {members : List (String × Json)} (h : Slots.Taken fs slots members) {n : Int}
    (hn : held? fs S slots name p = some n) :
    (∃ before gap after, members = before ++ (name, fill gap (.number (.whole n))) :: after ∧
      place gap = p ∧ (kind? fs S name p).isSome) ∨
        name ∉ keys members ∧ leftOut? fs S name p = some n := by
  induction fs with
  | nil => cases hn
  | cons f fs ih =>
    obtain ⟨first, rest⟩ := S
    obtain ⟨a, slots⟩ := slots
    obtain ⟨hfield, hrest⟩ := h
    by_cases hname : name = f.name
    · subst hname
      simp only [held?, leftOut?, kind?, if_true] at hn ⊢
      match hvalues : valuesUnder f.name members with
      | [] =>
        rw [hvalues] at hfield
        refine .inr ⟨?_, Option.bind_eq_some_iff.2 ⟨a, hfield, hn⟩⟩
        rw [← List.count_eq_zero, ← length_valuesUnder, hvalues]
        rfl
      | [v] =>
        have hmem : (f.name, v) ∈ members := by
          rw [← mem_valuesUnder, hvalues]
          exact List.mem_singleton_self v
        rw [hvalues] at hfield
        obtain ⟨gap, rfl, hknown, rfl⟩ := first.spelled hfield hn
        obtain ⟨before, after, rfl⟩ := List.append_of_mem hmem
        exact .inl ⟨before, gap, after, rfl, rfl, hknown⟩
      | _ :: _ :: _ =>
        rw [hvalues] at hfield
        exact hfield.elim
    · simp only [held?, leftOut?, kind?, if_neg hname] at hn ⊢
      exact ih hrest hn

end Schemas
end

/-- Fields of different names, of which none may be left out. -/
structure AllRequired (fs : List Field) : Prop where
  nodup : (fs.map Field.name).Nodup
  required : ∀ f ∈ fs, f.absent = none

theorem Schemas.leftOut?_of_required {fs : List Field} (h : ∀ f ∈ fs, f.absent = none)
    (S : Schemas fs) (name : String) (p : List Step) : leftOut? fs S name p = none := by
  induction fs with
  | nil => rfl
  | cons f fs ih =>
    obtain ⟨first, rest⟩ := S
    obtain ⟨hfirst, hrest⟩ := List.forall_mem_cons.1 h
    by_cases hname : name = f.name
    · rw [leftOut?, if_pos hname, hfirst]
      rfl
    · rw [leftOut?, if_neg hname]
      exact ih hrest rest

theorem Slots.ofObject_eq_ok_iff {fs : List Field} (hnames : (fs.map Field.name).Nodup)
    {v : Json} {slots : Slots fs} :
    ofObject fs v = .ok slots ↔ ∃ members, v = .object members ∧ Taken fs slots members := by
  constructor
  · intro h
    rcases v with _ | _ | _ | _ | _ | members
    case object => exact ⟨members, rfl, (ofMembers_iff hnames).1 h⟩
    all_goals cases h
  · rintro ⟨members, rfl, h⟩
    exact (ofMembers_iff hnames).2 h

/-- A record. -/
def Schema.record {fs : List Field} (S : Schemas fs) (h : AllRequired fs) :
    Schema fun v (slots : Slots fs) => Slots.ofObject fs v = .ok slots where
  kind?
    | .key name :: p => S.kind? fs name p
    | _ => none
  held?
    | slots, .key name :: p => S.held? fs slots name p
    | _, _ => none
  PassesOver
    | slots, .key name :: p => S.PassesOver fs slots name p
    | _, _ => False
  keeps {gap m slots k} hread hk := by
    obtain ⟨members, hmembers, htaken⟩ := (Slots.ofObject_eq_ok_iff h.nodup).1 hread
    rcases gap with _ | ⟨⟨before, name, after⟩ | _, gap⟩
    · cases hk
    · cases hmembers
      exact Schemas.keeps h.nodup htaken hk
    · cases hk
  takes {gap m slots k} hread hk w := by
    obtain ⟨members, hmembers, htaken⟩ := (Slots.ofObject_eq_ok_iff h.nodup).1 hread
    rcases gap with _ | ⟨⟨before, name, after⟩ | _, gap⟩
    · cases hk
    · cases hmembers
      obtain ⟨slots', htaken'⟩ := Schemas.takes h.nodup htaken hk w
      exact ⟨slots', (Slots.ofObject_eq_ok_iff h.nodup).2 ⟨_, rfl, htaken'⟩⟩
    · cases hk
  spelled {v slots p n} hread hn := by
    obtain ⟨members, rfl, htaken⟩ := (Slots.ofObject_eq_ok_iff h.nodup).1 hread
    rcases p with _ | ⟨name | _, p⟩
    · cases hn
    · rcases Schemas.spelled htaken hn with ⟨before, gap, after, rfl, rfl, hknown⟩ | ⟨-, hout⟩
      · exact ⟨.member before name after :: gap, rfl, hknown, rfl⟩
      · rw [Schemas.leftOut?_of_required h.required] at hout
        cases hout
    · cases hn

/-! ### Numbers that are passed over -/

namespace Schema
variable {α β : Type} {reads : Json → α → Prop} {reads' : Json → β → Prop}

/-- No number in the place of a whole number is passed over. -/
def Thorough (S : Schema reads) : Prop := ∀ a p, ¬ S.PassesOver a p

theorem thorough_nothing : (nothing : Schema reads).Thorough := fun _ _ hover => hover

theorem thorough_integer (k : WordKind) : (integer k).Thorough := fun _ _ hover => hover

theorem Thorough.via {S : Schema reads} (h : S.Thorough) {make : α → β}
    {held? : β → List Step → Option Int} {hheld : ∀ a p, held? (make a) p = S.held? a p}
    {hreads : ∀ v b, reads' v b ↔ ∃ a, reads v a ∧ make a = b} :
    (S.via make held? hheld hreads).Thorough := by
  rintro b p ⟨a, -, hover⟩
  exact h a p hover

theorem Thorough.list [Codec α] {S : Of α} (h : S.Thorough) : (list S).Thorough := by
  rintro as (_ | ⟨_ | i, p⟩) hover
  · exact hover
  · exact hover
  · obtain ⟨a, -, hover⟩ := hover
    exact h a p hover

theorem Thorough.pair [Codec α] {S : Of α} (h : S.Thorough) : (pair S).Thorough := by
  rintro ⟨a, b⟩ (_ | ⟨_ | _ | _ | i, p⟩) hover
  · exact hover
  · exact hover
  · exact h a p hover
  · exact h b p hover
  · exact hover

theorem Thorough.option [Codec α] {S : Of α} (h : S.Thorough) : (option S).Thorough := by
  rintro o p ⟨a, -, hover⟩
  exact h a p hover

theorem Thorough.either {S : Schema reads} {T : Schema reads'} (h : S.Thorough) (h' : T.Thorough)
    {hS : ∀ gap m a, reads (fill gap (.number m)) a → T.kind? (place gap) = none}
    {hT : ∀ gap m b, reads' (fill gap (.number m)) b → S.kind? (place gap) = none} :
    (either S T hS hT).Thorough := by
  rintro (a | b) p hover
  · exact h a p hover
  · exact h' b p hover

end Schema

/-- The schemas of all fields are thorough. -/
def Schemas.Thorough : (fs : List Field) → Schemas fs → Prop
  | [], () => True
  | _ :: fs, (S, rest) => S.Thorough ∧ Thorough fs rest

theorem Schemas.Thorough.not_passesOver {fs : List Field} {S : Schemas fs} (h : S.Thorough fs)
    {slots : Slots fs} {name : String} {p : List Step} : ¬ S.PassesOver fs slots name p := by
  induction fs with
  | nil => exact fun hover => hover
  | cons f fs ih =>
    obtain ⟨first, rest⟩ := S
    obtain ⟨a, slots⟩ := slots
    obtain ⟨hfirst, hrest⟩ := h
    intro hover
    by_cases hname : name = f.name
    · rw [PassesOver, if_pos hname] at hover
      exact hfirst a p hover
    · rw [PassesOver, if_neg hname] at hover
      exact ih hrest hover

theorem Schema.thorough_record {fs : List Field} {S : Schemas fs} (h : S.Thorough fs)
    {hfs : AllRequired fs} : (record S hfs).Thorough := by
  rintro slots (_ | ⟨name | _, p⟩) hover
  · exact hover
  · exact h.not_passesOver hover
  · exact hover

end DrawStream
