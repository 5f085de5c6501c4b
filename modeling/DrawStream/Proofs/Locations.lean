import DrawStream.Proofs.Numerals
import DrawStream.Proofs.Resolution

/-! # Which element a name denotes, and where it lies

An element of a variable goes by one name or more: the first one by the name of the variable,
declared or bare, and every one by the array and its index in brackets (`Variable.Called`).
An index is digits, with a sign if one likes and with zeros in front.  A name denotes an
element of the first of the variables that has it (`Denotes`).

Element `j` of the `i`-th variable lies at `16 * i + j`.  That is where a recorder finds every
name that denotes it, and it finds no others (`found_of_declared`).  As the variables lie 16
places apart, different elements have different locations only as long as no array reaches
into the next variable: the element 16 of an array lies where the next variable begins
(`locations_overlap`).

Nothing is said here of names with an index below 0 (`Variable.CalledBelow`). -/
namespace DrawStream

open Json (Digits decimalValue)

/-! ### Names of elements -/

/-- Digits, perhaps behind a sign, and the number that they denote. -/
inductive SignedDigits : List Char → Int → Prop
  | plain {ds : List Char} (digits : Digits ds) : SignedDigits ds (decimalValue ds)
  | plus {ds : List Char} (digits : Digits ds) : SignedDigits ('+' :: ds) (decimalValue ds)
  | minus {ds : List Char} (digits : Digits ds) :
      SignedDigits ('-' :: ds) (-(decimalValue ds : Int))

/-- The text of an index, which is a 32-bit number. -/
structure IndexText (cs : List Char) (j : Int) : Prop where
  signed : SignedDigits cs j
  range : -2147483648 ≤ j ∧ j ≤ 2147483647

/-- The array with an index in brackets. -/
def subscripted (array index : List Char) : List Char := array ++ '[' :: (index ++ [']'])

namespace Variable

/-- The bare name: without the brackets of the first element, if it is declared with them. -/
def array (v : Variable) : List Char := Device.arrayName v.name.toList

/-- Element `j` of the variable goes by this name. -/
inductive Called (v : Variable) (name : List Char) : Int → Prop
  | declared (same : name = v.name.toList) : Called v name 0
  | bare (same : name = v.array) : Called v name 0
  | element {index : List Char} {j : Int} (same : name = subscripted v.array index)
      (spelled : IndexText index j) (least_le : 0 ≤ j) (inside : j < v.size) : Called v name j

/-- The name has an index below 0, and one below the size of the variable. -/
def CalledBelow (v : Variable) (name : List Char) : Prop :=
  ∃ index j, name = subscripted v.array index ∧ IndexText index j ∧ j < 0 ∧ j < v.size

end Variable

/-- The name denotes element `j` of the `i`-th variable, and no variable before has it. -/
inductive Denotes (name : List Char) : List Variable → (i : Nat) → (j : Int) → Prop
  | here {v : Variable} {rest : List Variable} {j : Int} (called : v.Called name j) :
      Denotes name (v :: rest) 0 j
  | there {v : Variable} {rest : List Variable} {i : Nat} {j : Int}
      (passed : ∀ k, ¬ v.Called name k) (denotes : Denotes name rest i j) :
      Denotes name (v :: rest) (i + 1) j

namespace Device

/-! ### Taking names apart -/

theorem stripFront?_eq_some_iff {front cs rest : List Char} :
    stripFront? front cs = some rest ↔ cs = front ++ rest := by
  induction front generalizing cs with
  | nil =>
    rw [stripFront?, Option.some.injEq]
    rfl
  | cons a front ih =>
    cases cs with
    | nil => simp [stripFront?]
    | cons b cs =>
      by_cases hab : a = b
      · subst hab
        rw [stripFront?, if_pos rfl, ih, List.cons_append, List.cons.injEq]
        exact (and_iff_right rfl).symm
      · rw [stripFront?, if_neg hab]
        simp [Ne.symm hab]

theorem stripBack?_eq_some_iff {back cs rest : List Char} :
    stripBack? back cs = some rest ↔ cs = rest ++ back := by
  rw [stripBack?, Option.map_eq_some_iff]
  constructor
  · rintro ⟨front, hfront, rfl⟩
    have hcs := stripFront?_eq_some_iff.1 hfront
    rw [← List.reverse_reverse cs, hcs, List.reverse_append, List.reverse_reverse]
  · rintro rfl
    refine ⟨rest.reverse, ?_, List.reverse_reverse rest⟩
    rw [stripFront?_eq_some_iff, List.reverse_append]

theorem digitsValue?_eq_some_iff {cs : List Char} {n : Nat} :
    digitsValue? cs = some n ↔ Digits cs ∧ decimalValue cs = n := by
  unfold digitsValue? Digits
  split
  · next h =>
    simp only [Bool.or_eq_true, List.isEmpty_iff, Bool.not_eq_true', List.all_eq_false] at h
    constructor
    · intro hnone
      cases hnone
    · rintro ⟨⟨hne, hall⟩, -⟩
      rcases h with hempty | ⟨c, hc, hdigit⟩
      · exact absurd hempty hne
      · exact absurd (hall c hc) hdigit
  · next h =>
    simp only [Bool.or_eq_true, List.isEmpty_iff, Bool.not_eq_true', not_or,
      Bool.not_eq_false, List.all_eq_true] at h
    rw [Option.some.injEq]
    exact (and_iff_right h).symm

/-- A digit is no sign. -/
theorem not_sign_of_digits {ds : List Char} (h : Digits ds) :
    (∀ rest, ds ≠ '-' :: rest) ∧ ∀ rest, ds ≠ '+' :: rest := by
  refine ⟨fun rest hds => ?_, fun rest hds => ?_⟩
  · exact absurd (h.2 '-' (hds ▸ List.mem_cons_self)) (by decide)
  · exact absurd (h.2 '+' (hds ▸ List.mem_cons_self)) (by decide)

/-- The number, if it fits 32 bits. -/
def fit? (n : Int) : Option Int := if -2147483648 ≤ n ∧ n ≤ 2147483647 then some n else none

theorem fit?_eq_some_iff {n j : Int} :
    fit? n = some j ↔ n = j ∧ -2147483648 ≤ j ∧ j ≤ 2147483647 := by
  rw [fit?, Option.ite_none_right_eq_some, Option.some.injEq]
  constructor
  · rintro ⟨hrange, rfl⟩
    exact ⟨rfl, hrange⟩
  · rintro ⟨rfl, hrange⟩
    exact ⟨hrange, rfl⟩

theorem readIndex?_minus (ds : List Char) :
    readIndex? ('-' :: ds) = (digitsValue? ds).bind fun n => fit? (-n) := by
  cases hvalue : digitsValue? ds <;> simp [readIndex?, hvalue, fit?]

theorem readIndex?_plus (ds : List Char) :
    readIndex? ('+' :: ds) = (digitsValue? ds).bind fun n => fit? n := by
  cases hvalue : digitsValue? ds <;> simp [readIndex?, hvalue, fit?]

theorem readIndex?_plain {cs : List Char} (hminus : ∀ ds, cs ≠ '-' :: ds)
    (hplus : ∀ ds, cs ≠ '+' :: ds) :
    readIndex? cs = (digitsValue? cs).bind fun n => fit? n := by
  unfold readIndex?
  split
  · next ds => exact absurd rfl (hminus ds)
  · next ds => exact absurd rfl (hplus ds)
  · cases hvalue : digitsValue? cs <;> simp [fit?]

/-- What is made of the value of digits. -/
theorem digits_fit_iff {ds : List Char} {value : Nat → Int} {j : Int} :
    ((digitsValue? ds).bind fun n => fit? (value n)) = some j ↔
      Digits ds ∧ value (decimalValue ds) = j ∧ -2147483648 ≤ j ∧ j ≤ 2147483647 := by
  simp only [Option.bind_eq_some_iff, digitsValue?_eq_some_iff, fit?_eq_some_iff]
  constructor
  · rintro ⟨n, ⟨hdigits, rfl⟩, hvalue, hrange⟩
    exact ⟨hdigits, hvalue, hrange⟩
  · rintro ⟨hdigits, hvalue, hrange⟩
    exact ⟨_, ⟨hdigits, rfl⟩, hvalue, hrange⟩

theorem readIndex?_eq_some_iff {cs : List Char} {j : Int} :
    readIndex? cs = some j ↔ IndexText cs j := by
  constructor
  · intro h
    by_cases hminus : ∃ ds, cs = '-' :: ds
    · obtain ⟨ds, rfl⟩ := hminus
      obtain ⟨hdigits, rfl, hrange⟩ := digits_fit_iff.1 ((readIndex?_minus ds).symm.trans h)
      exact ⟨.minus hdigits, hrange⟩
    by_cases hplus : ∃ ds, cs = '+' :: ds
    · obtain ⟨ds, rfl⟩ := hplus
      obtain ⟨hdigits, rfl, hrange⟩ := digits_fit_iff.1 ((readIndex?_plus ds).symm.trans h)
      exact ⟨.plus hdigits, hrange⟩
    rw [readIndex?_plain (not_exists.1 hminus) (not_exists.1 hplus), digits_fit_iff] at h
    obtain ⟨hdigits, rfl, hrange⟩ := h
    exact ⟨.plain hdigits, hrange⟩
  · rintro ⟨hsigned, hrange⟩
    cases hsigned with
    | plain hdigits =>
      obtain ⟨hminus, hplus⟩ := not_sign_of_digits hdigits
      rw [readIndex?_plain hminus hplus]
      exact digits_fit_iff.2 ⟨hdigits, rfl, hrange⟩
    | plus hdigits =>
      rw [readIndex?_plus]
      exact digits_fit_iff.2 ⟨hdigits, rfl, hrange⟩
    | minus hdigits =>
      rw [readIndex?_minus]
      exact digits_fit_iff.2 ⟨hdigits, rfl, hrange⟩

theorem elementOf?_eq_some_iff {array name : List Char} {j : Int} :
    elementOf? array name = some j ↔
      ∃ index, name = subscripted array index ∧ IndexText index j := by
  simp only [elementOf?, Option.bind_eq_bind, Option.bind_eq_some_iff, stripFront?_eq_some_iff,
    stripBack?_eq_some_iff, readIndex?_eq_some_iff]
  constructor
  · rintro ⟨_, rfl, _, rfl, index, rfl, hindex⟩
    exact ⟨index, rfl, hindex⟩
  · rintro ⟨index, rfl, hindex⟩
    exact ⟨_, rfl, _, rfl, index, rfl, hindex⟩

end Device

namespace Variable
open Device (elementOf?_eq_some_iff)
variable {v : Variable} {name : List Char} {j : Int}

theorem called_iff : v.Called name j ↔ (name = v.name.toList ∨ name = v.array) ∧ j = 0 ∨
    Device.elementOf? v.array name = some j ∧ 0 ≤ j ∧ j < v.size := by
  constructor
  · intro h
    cases h with
    | declared same => exact .inl ⟨.inl same, rfl⟩
    | bare same => exact .inl ⟨.inr same, rfl⟩
    | element same spelled hleast hinside =>
      exact .inr ⟨elementOf?_eq_some_iff.2 ⟨_, same, spelled⟩, hleast, hinside⟩
  · rintro (⟨hname | hname, rfl⟩ | ⟨helement, hleast, hinside⟩)
    · exact .declared hname
    · exact .bare hname
    · obtain ⟨index, hname, hindex⟩ := elementOf?_eq_some_iff.1 helement
      exact .element hname hindex hleast hinside

theorem calledBelow_iff : v.CalledBelow name ↔
    ∃ j ∈ Device.elementOf? v.array name, j < 0 ∧ j < v.size := by
  constructor
  · rintro ⟨index, j, hname, hindex, hneg, hinside⟩
    exact ⟨j, elementOf?_eq_some_iff.2 ⟨index, hname, hindex⟩, hneg, hinside⟩
  · rintro ⟨j, helement, hneg, hinside⟩
    obtain ⟨index, hname, hindex⟩ := elementOf?_eq_some_iff.1 helement
    exact ⟨index, j, hname, hindex, hneg, hinside⟩

/-- A name is passed over unless it is plain or has an index inside. -/
theorem not_called_iff : (∀ k, ¬ v.Called name k) ↔ ¬ (name = v.name.toList ∨ name = v.array) ∧
    ∀ j ∈ Device.elementOf? v.array name, 0 ≤ j → v.size ≤ j := by
  constructor
  · intro h
    refine ⟨fun hname => h 0 (called_iff.2 (.inl ⟨hname, rfl⟩)), fun j helement hleast => ?_⟩
    by_contra houtside
    exact h j (called_iff.2 (.inr ⟨helement, hleast, Int.not_le.1 houtside⟩))
  · rintro ⟨hplain, houtside⟩ k hcalled
    rcases called_iff.1 hcalled with ⟨hname, -⟩ | ⟨helement, hleast, hinside⟩
    · exact hplain hname
    · exact absurd hinside (Int.not_lt.2 (houtside k helement hleast))

instance : Decidable (v.Called name j) := decidable_of_iff' _ called_iff

instance : Decidable (∀ k, ¬ v.Called name k) := decidable_of_iff' _ not_called_iff

instance : Decidable (v.CalledBelow name) := decidable_of_iff' _ calledBelow_iff

end Variable

namespace Device

/-! ### The bare name -/

theorem arrayName_append (base : List Char) : arrayName (base ++ ['[', '0', ']']) = base := by
  rw [arrayName, stripBack?_eq_some_iff.2 rfl]
  rfl

theorem arrayName_of_ne {declared : List Char}
    (h : ∀ base, declared ≠ base ++ ['[', '0', ']']) : arrayName declared = declared := by
  rcases hback : stripBack? ['[', '0', ']'] declared with _ | base
  · rw [arrayName, hback]
    rfl
  · exact absurd (stripBack?_eq_some_iff.1 hback) (h base)

/-- A name is an array's with the brackets of the first element, or it is bare. -/
theorem arrayName_cases (declared : List Char) :
    declared = arrayName declared ++ ['[', '0', ']'] ∨ arrayName declared = declared := by
  by_cases h : ∃ base, declared = base ++ ['[', '0', ']']
  · obtain ⟨base, rfl⟩ := h
    exact .inl (by rw [arrayName_append])
  · exact .inr (arrayName_of_ne (not_exists.1 h))

end Device

/-! ### A name denotes one element -/

theorem length_subscripted (array index : List Char) :
    (subscripted array index).length = array.length + index.length + 2 := by
  simp only [subscripted, List.length_append, List.length_cons, List.length_nil]
  omega

theorem subscripted_inj {array index index' : List Char}
    (h : subscripted array index = subscripted array index') : index = index' :=
  List.append_cancel_right (List.cons.inj (List.append_cancel_left h)).2

theorem digits_zero : Digits ['0'] := ⟨by decide, List.forall_mem_singleton.2 (by decide)⟩

theorem SignedDigits.unique {cs : List Char} {j k : Int} (h : SignedDigits cs j)
    (h' : SignedDigits cs k) : j = k := by
  cases h with
  | plain hdigits =>
    obtain ⟨hminus, hplus⟩ := Device.not_sign_of_digits hdigits
    cases h' with
    | plain => rfl
    | plus => exact absurd rfl (hplus _)
    | minus => exact absurd rfl (hminus _)
  | plus => cases h' with
    | plain hdigits => exact absurd rfl ((Device.not_sign_of_digits hdigits).2 _)
    | plus => rfl
  | minus => cases h' with
    | plain hdigits => exact absurd rfl ((Device.not_sign_of_digits hdigits).1 _)
    | minus => rfl

namespace Variable
variable {v : Variable} {name : List Char} {j k : Int}

/-- The name of a variable is no element's but the first one's. -/
theorem index_of_declared {index : List Char}
    (hname : v.name.toList = subscripted v.array index) : index = ['0'] := by
  rcases Device.arrayName_cases v.name.toList with hsubscript | hbare
  · exact subscripted_inj (hname.symm.trans hsubscript)
  · have hlength := congrArg List.length hname
    rw [length_subscripted, array, hbare] at hlength
    omega

theorem index_of_bare {index : List Char} (hname : v.array = subscripted v.array index) :
    False := by
  have hlength := congrArg List.length hname
  rw [length_subscripted] at hlength
  omega

theorem Called.nonneg (h : v.Called name j) : 0 ≤ j := by
  cases h with
  | declared | bare => exact Int.le_refl 0
  | element _ _ hleast _ => exact hleast

/-- The first element is there even if the variable has none. -/
theorem Called.lt_size (h : v.Called name j) : j < max v.size 1 := by
  cases h with
  | declared | bare => exact Int.lt_of_lt_of_le Int.zero_lt_one (Int.le_max_right _ _)
  | element _ _ _ hinside => exact Int.lt_of_lt_of_le hinside (Int.le_max_left _ _)

theorem Called.index (h : v.Called name j) {index : List Char} {k : Int}
    (hname : name = subscripted v.array index) (hindex : IndexText index k) : k = j := by
  have hzero : SignedDigits ['0'] (decimalValue ['0']) := .plain digits_zero
  cases h with
  | declared same =>
    obtain rfl := index_of_declared (same.symm.trans hname)
    exact hindex.signed.unique hzero
  | bare same => exact (index_of_bare (same.symm.trans hname)).elim
  | element same spelled =>
    obtain rfl := subscripted_inj (same.symm.trans hname)
    exact hindex.signed.unique spelled.signed

theorem Called.eq_zero_or_indexed (h : v.Called name j) :
    j = 0 ∨ ∃ index, name = subscripted v.array index ∧ IndexText index j := by
  cases h with
  | declared | bare => exact .inl rfl
  | element same spelled => exact .inr ⟨_, same, spelled⟩

theorem Called.unique (h : v.Called name j) (h' : v.Called name k) : j = k := by
  rcases h.eq_zero_or_indexed with rfl | ⟨index, hname, hindex⟩
  · rcases h'.eq_zero_or_indexed with rfl | ⟨index, hname, hindex⟩
    · rfl
    · exact (h.index hname hindex).symm
  · exact h'.index hname hindex

end Variable

theorem Denotes.unique {name : List Char} {declared : List Variable} {i k : Nat} {j l : Int}
    (h : Denotes name declared i j) (h' : Denotes name declared k l) : i = k ∧ j = l := by
  induction h generalizing k with
  | here called =>
    cases h' with
    | here called' => exact ⟨rfl, called.unique called'⟩
    | there passed => exact absurd called (passed _)
  | there passed _ ih =>
    cases h' with
    | here called' => exact absurd called' (passed _)
    | there _ denotes' =>
      obtain ⟨rfl, rfl⟩ := ih denotes'
      exact ⟨rfl, rfl⟩

/-- The variable of which a name denotes an element. -/
theorem Denotes.called {name : List Char} {declared : List Variable} {i : Nat} {j : Int}
    (h : Denotes name declared i j) : ∃ v, declared[i]? = some v ∧ v.Called name j := by
  induction h with
  | here called => exact ⟨_, rfl, called⟩
  | there _ _ ih => exact ih

/-- Of the variables that have a name, one is the first. -/
theorem exists_denotes {name : List Char} {declared : List Variable} {v : Variable} {j : Int}
    (hv : v ∈ declared) (h : v.Called name j) : ∃ i k, Denotes name declared i k := by
  induction declared with
  | nil => cases hv
  | cons u rest ih =>
    by_cases hcalled : ∃ k, u.Called name k
    · obtain ⟨k, hcalled⟩ := hcalled
      exact ⟨0, k, .here hcalled⟩
    · have hpassed := not_exists.1 hcalled
      rcases List.mem_cons.1 hv with rfl | hv
      · exact absurd h (hpassed j)
      · obtain ⟨i, k, hdenotes⟩ := ih hv
        exact ⟨i + 1, k, .there hpassed hdenotes⟩

theorem not_denotes_iff {name : List Char} {declared : List Variable} :
    (∀ i j, ¬ Denotes name declared i j) ↔ ∀ v ∈ declared, ∀ k, ¬ v.Called name k := by
  constructor
  · intro h v hv k hcalled
    obtain ⟨i, l, hdenotes⟩ := exists_denotes hv hcalled
    exact h i l hdenotes
  · intro h i j hdenotes
    obtain ⟨v, hv, hcalled⟩ := hdenotes.called
    exact h v (List.mem_of_getElem? hv) j hcalled

/-! ### Where elements lie -/

namespace Device

/-- The location of element `j` of the `i`-th variable. -/
def elementLocation (i : Nat) (j : Int) : Int := wrapLocation (locationStride * i + j)

theorem wrapLocation_add (a b : Int) : wrapLocation (wrapLocation a + b) = wrapLocation (a + b) :=
  Int.bmod_add_bmod

theorem wrapLocation_eq_iff {a b : Int} :
    wrapLocation a = wrapLocation b ↔ (4294967296 : Int) ∣ a - b :=
  Int.bmod_eq_bmod_iff_bmod_sub_eq_zero.trans Int.dvd_iff_bmod_eq_zero.symm

theorem wrapLocation_stride (i : Nat) (j : Int) :
    wrapLocation (wrapLocation (i * locationStride : Nat) + j) = elementLocation i j := by
  rw [wrapLocation_add, elementLocation, Nat.cast_mul, mul_comm]

section
variable {name : List Char} {v : Variable} {rest declared : List Variable} {j : Int}

theorem locateFrom_of_called (h : v.Called name j) (i : Nat) :
    locateFrom name i (v :: rest) = elementLocation i j := by
  rw [locateFrom]
  split
  · next hplain =>
    obtain rfl : j = 0 := h.unique (Variable.called_iff.2 (.inl ⟨hplain, rfl⟩))
    rw [← wrapLocation_stride, wrapLocation_add, add_zero]
  · next hplain =>
    rcases Variable.called_iff.1 h with ⟨hname, -⟩ | ⟨helement, -, hinside⟩
    · exact absurd hname hplain
    · have helement : elementOf? (arrayName v.name.toList) name = some j := helement
      simp only [helement, if_pos hinside]
      exact wrapLocation_stride i j

theorem locateFrom_of_passed (hpassed : ∀ j, ¬ v.Called name j) (hbelow : ¬ v.CalledBelow name)
    (i : Nat) : locateFrom name i (v :: rest) = locateFrom name (i + 1) rest := by
  have hplain : ¬ (name = v.name.toList ∨ name = arrayName v.name.toList) :=
    fun hname => hpassed 0 (Variable.called_iff.2 (.inl ⟨hname, rfl⟩))
  rw [locateFrom, if_neg hplain]
  split
  · next j helement =>
    refine if_neg fun hinside => ?_
    by_cases hneg : j < 0
    · exact hbelow (Variable.calledBelow_iff.2 ⟨j, helement, hneg, hinside⟩)
    · exact hpassed j (Variable.called_iff.2 (.inr ⟨helement, Int.not_lt.1 hneg, hinside⟩))
  · rfl

/-- A name that denotes an element is found where the element lies. -/
theorem locateFrom_of_denotes {k : Nat} (h : Denotes name declared k j)
    (hbelow : ∀ v ∈ declared, ¬ v.CalledBelow name) (i : Nat) :
    locateFrom name i declared = elementLocation (i + k) j := by
  induction h generalizing i with
  | here called => exact locateFrom_of_called called i
  | @there v rest k j hpassed _ ih =>
    obtain ⟨hfirst, hrest⟩ := List.forall_mem_cons.1 hbelow
    rw [locateFrom_of_passed hpassed hfirst, ih hrest]
    congr 1
    omega

/-- Other names are not found. -/
theorem locateFrom_of_none (hnone : ∀ v ∈ declared, ∀ j, ¬ v.Called name j)
    (hbelow : ∀ v ∈ declared, ¬ v.CalledBelow name) (i : Nat) :
    locateFrom name i declared = nowhere := by
  induction declared generalizing i with
  | nil => rfl
  | cons v rest ih =>
    obtain ⟨hpassed, hnone⟩ := List.forall_mem_cons.1 hnone
    obtain ⟨hfirst, hrest⟩ := List.forall_mem_cons.1 hbelow
    rw [locateFrom_of_passed hpassed hfirst, ih hnone hrest]

end

/-- Elements share a location only if the places that are counted for them are a multiple of
`2 ^ 32` apart. -/
theorem elementLocation_eq_iff {i k : Nat} {j l : Int} :
    elementLocation i j = elementLocation k l ↔
      (4294967296 : Int) ∣ (locationStride * i + j) - (locationStride * k + l) :=
  wrapLocation_eq_iff

end Device

/-- No array but the last reaches into the next variable. -/
def Spaced (declared : List Variable) : Prop :=
  ∀ (i : Nat) (v : Variable), declared[i]? = some v → i + 1 < declared.length →
    v.size ≤ (Device.locationStride : Int)

section
variable {name name' : List Char} {declared : List Variable} {i k : Nat} {j l : Int}

/-- The elements of a variable lie before the next one. -/
theorem Spaced.lt (h : Spaced declared) (hdenotes : Denotes name declared i j)
    (hdenotes' : Denotes name' declared k l) (hik : i < k) :
    (Device.locationStride * i + j : Int) < Device.locationStride * k + l := by
  obtain ⟨v, hv, hcalled⟩ := hdenotes.called
  obtain ⟨u, hu, hcalled'⟩ := hdenotes'.called
  have hlength := (List.getElem?_eq_some_iff.1 hu).1
  have hsize := h i v hv (by omega)
  have hj := hcalled.lt_size
  have hl := hcalled'.nonneg
  unfold Device.locationStride at hsize ⊢
  omega

/-- So different elements lie in different places, if these can be told apart in 32 bits. -/
theorem Spaced.elementLocation_ne (h : Spaced declared) (hdenotes : Denotes name declared i j)
    (hdenotes' : Denotes name' declared k l) (hne : (i, j) ≠ (k, l))
    (hfits : (Device.locationStride * i + j : Int) < 4294967296)
    (hfits' : (Device.locationStride * k + l : Int) < 4294967296) :
    Device.elementLocation i j ≠ Device.elementLocation k l := by
  have hapart : (Device.locationStride * i + j : Int) ≠ Device.locationStride * k + l := by
    rcases Nat.lt_trichotomy i k with hik | rfl | hki
    · exact (h.lt hdenotes hdenotes' hik).ne
    · intro hsame
      exact hne (Prod.ext rfl (Int.add_left_cancel hsame))
    · exact (h.lt hdenotes' hdenotes hki).ne'
  obtain ⟨v, -, hcalled⟩ := hdenotes.called
  obtain ⟨u, -, hcalled'⟩ := hdenotes'.called
  have hj := hcalled.nonneg
  have hl := hcalled'.nonneg
  rw [Ne, Device.elementLocation_eq_iff]
  unfold Device.locationStride at *
  omega

end

namespace Recorder

/-- The location query of a recorder that finds nothing else than what is declared. -/
theorem resolve_of_strict {r : Recorder} (hstrict : ¬ r.permissive) (kind : VariableKind)
    (name : String) : r.resolve kind name = Device.locate (r.declared kind) name := by
  rw [resolve, find_of_settled (.inr hstrict)]

theorem resolve_of_denotes {r : Recorder} (hstrict : ¬ r.permissive) {kind : VariableKind}
    {name : String} (hbelow : ∀ v ∈ r.declared kind, ¬ v.CalledBelow name.toList) {i : Nat}
    {j : Int} (h : Denotes name.toList (r.declared kind) i j) :
    r.resolve kind name = Device.elementLocation i j := by
  rw [resolve_of_strict hstrict, Device.locate, Device.locateFrom_of_denotes h hbelow, zero_add]

theorem resolve_of_none {r : Recorder} (hstrict : ¬ r.permissive) {kind : VariableKind}
    {name : String} (hbelow : ∀ v ∈ r.declared kind, ¬ v.CalledBelow name.toList)
    (hnone : ∀ i j, ¬ Denotes name.toList (r.declared kind) i j) :
    r.resolve kind name = Device.nowhere := by
  rw [resolve_of_strict hstrict, Device.locate]
  exact Device.locateFrom_of_none (not_denotes_iff.1 hnone) hbelow 0

/-- **A recorder finds the names of elements where the elements lie, and no other names.**  A name
denotes one element at most, and different elements lie in different places as far as arrays
leave room for the next variable. -/
theorem found_of_declared (r : Recorder) (hstrict : ¬ r.permissive) (kind : VariableKind) :
    (∀ name : String, (∀ v ∈ r.declared kind, ¬ v.CalledBelow name.toList) →
      (0 ≤ r.resolve kind name → ∃ i j, Denotes name.toList (r.declared kind) i j) ∧
        (∀ i j, Denotes name.toList (r.declared kind) i j →
          r.resolve kind name = Device.elementLocation i j ∧
            ∀ k l, Denotes name.toList (r.declared kind) k l → k = i ∧ l = j) ∧
        ((∀ i j, ¬ Denotes name.toList (r.declared kind) i j) → r.resolve kind name = -1)) ∧
      ∀ name name' : String, (∀ v ∈ r.declared kind, ¬ v.CalledBelow name.toList) →
        (∀ v ∈ r.declared kind, ¬ v.CalledBelow name'.toList) → ∀ i j k l,
          Denotes name.toList (r.declared kind) i j →
            Denotes name'.toList (r.declared kind) k l → (i, j) ≠ (k, l) →
              (r.resolve kind name = r.resolve kind name' ↔
                (4294967296 : Int) ∣
                  (Device.locationStride * i + j) - (Device.locationStride * k + l)) ∧
              (Spaced (r.declared kind) →
                (Device.locationStride * i + j : Int) < 4294967296 →
                  (Device.locationStride * k + l : Int) < 4294967296 →
                    r.resolve kind name ≠ r.resolve kind name') := by
  refine ⟨fun name hbelow => ⟨fun hfound => ?_, fun i j h => ⟨resolve_of_denotes hstrict hbelow h,
    fun k l h' => h'.unique h⟩, resolve_of_none hstrict hbelow⟩, ?_⟩
  · by_contra hnone
    have hnowhere := resolve_of_none hstrict hbelow fun i j h => hnone ⟨i, j, h⟩
    rw [hnowhere] at hfound
    exact absurd hfound (by decide)
  · intro name name' hbelow hbelow' i j k l h h' hne
    rw [resolve_of_denotes hstrict hbelow h, resolve_of_denotes hstrict hbelow' h']
    exact ⟨Device.elementLocation_eq_iff, fun hspaced => hspaced.elementLocation_ne h h' hne⟩

/-! ### An array that reaches into the next variable -/

/-- An array of 17 elements, and a variable behind it. -/
def overlapping : Recorder := { uniforms := [⟨"a[0]", 0x1406, 17⟩, ⟨"b", 0x1406, 1⟩] }

theorem elements_found :
    ¬ overlapping.permissive ∧ overlapping.resolve .uniform "a[15]" = 15 ∧
      overlapping.resolve .uniform "b[+0]" = 16 ∧ overlapping.resolve .uniform "c" = -1 ∧
      overlapping.resolve .uniform "a[15]" ≠ overlapping.resolve .uniform "b[+0]" := by
  have hstrict : ¬ overlapping.permissive := by decide
  obtain ⟨hfound, hshared⟩ := found_of_declared overlapping hstrict .uniform
  have ha : Denotes "a[15]".toList overlapping.uniforms 0 15 := .here (by decide)
  have hb : Denotes "b[+0]".toList overlapping.uniforms 1 0 :=
    .there (by decide) (.here (by decide))
  have hbelow : ∀ v ∈ overlapping.uniforms, ¬ v.CalledBelow "a[15]".toList := by decide
  have hbelow' : ∀ v ∈ overlapping.uniforms, ¬ v.CalledBelow "b[+0]".toList := by decide
  obtain ⟨-, hfifteen, -⟩ := hfound "a[15]" hbelow
  obtain ⟨-, hsixteen, -⟩ := hfound "b[+0]" hbelow'
  obtain ⟨-, -, hnowhere⟩ := hfound "c" (by decide)
  obtain ⟨hiff, -⟩ := hshared "a[15]" "b[+0]" hbelow hbelow' 0 15 1 0 ha hb (by decide)
  exact ⟨hstrict, (hfifteen 0 15 ha).1, (hsixteen 1 0 hb).1,
    hnowhere (not_denotes_iff.2 (by decide)), mt hiff.1 (by decide)⟩

/-- The element 16 of the array and the variable behind it lie in the same place.  An index
below 0 leads to the variable in front. -/
theorem locations_overlap :
    ¬ overlapping.permissive ∧ (overlapping.uniforms.map Variable.array).Nodup ∧
      Denotes "a[16]".toList overlapping.uniforms 0 16 ∧
      Denotes "b".toList overlapping.uniforms 1 0 ∧
      overlapping.resolve .uniform "a[16]" = 16 ∧ overlapping.resolve .uniform "b" = 16 ∧
      (∀ i j, ¬ Denotes "b[-1]".toList overlapping.uniforms i j) ∧
      overlapping.resolve .uniform "b[-1]" = 15 :=
  ⟨by decide, by decide, .here (by decide), .there (by decide) (.here (by decide)), by decide,
    by decide, not_denotes_iff.2 (by decide), by decide⟩

end Recorder

end DrawStream
