import DrawStream.Json.Number
import Mathlib.Data.Nat.Digits.Defs

/-! # The texts of numbers, and that they are read back

`SpellsNumber n cs` says that `cs` is a text of `n`.  A whole number has a single text, its
decimal digits with a minus sign below zero.  Any other number has many: every text of the
grammar whose parts have it for their value (`NumberText.value?`), be it `1.5`, `15e-1` or
`0.15E+1`.

A text is read to its end and no further, provided that what follows it cannot be mistaken
for more of the number (`Ends`). -/
namespace DrawStream.Json

/-! ### Texts -/

/-- At least one digit, and nothing else. -/
def Digits (cs : List Char) : Prop := cs ≠ [] ∧ ∀ c ∈ cs, c.isDigit = true

/-- The digits before the point: no 0 in front of others. -/
def WholeDigits (cs : List Char) : Prop := Digits cs ∧ (cs.head? = some '0' → cs = ['0'])

/-- The digits behind the point, with the point if there are any. -/
inductive FractionText : List Char → List Char → Prop
  | absent : FractionText [] []
  | point {ds : List Char} (digits : Digits ds) : FractionText ds ('.' :: ds)

/-- A letter that begins an exponent. -/
def IsExponentMark (c : Char) : Prop := c = 'e' ∨ c = 'E'

/-- The sign of an exponent, and whether it makes the exponent negative. -/
inductive ExponentSign : Bool → List Char → Prop
  | absent : ExponentSign false []
  | plus : ExponentSign false ['+']
  | minus : ExponentSign true ['-']

/-- An exponent with its letter, or nothing. -/
inductive ExponentText : Option Int → List Char → Prop
  | absent : ExponentText none []
  | power {mark : Char} {negative : Bool} {sign ds : List Char} (letter : IsExponentMark mark)
      (signed : ExponentSign negative sign) (digits : Digits ds) :
      ExponentText (some (if negative then -(decimalValue ds : Int) else decimalValue ds))
        (mark :: (sign ++ ds))

/-- The sign in front of a number. -/
def signText (negative : Bool) : List Char := if negative then ['-'] else []

/-- The text has these parts. -/
def NumberText.Spells (t : NumberText) (cs : List Char) : Prop :=
  WholeDigits t.whole ∧ ∃ point power, FractionText t.fraction point ∧
    ExponentText t.exponent power ∧ cs = signText t.negative ++ (t.whole ++ (point ++ power))

/-- The least number that is kept whole. -/
def leastWhole : Int := -9223372036854775808

/-- The text is one of the number's. -/
def SpellsNumber : JsonNumber → List Char → Prop
  | .whole n, cs => leastWhole ≤ n ∧ n ≤ greatestLead ∧ cs = (toString n).toList
  | .real x, cs => ∃ t : NumberText, t.Spells cs ∧ t.value? = some (.real x)

/-! ### What follows a number -/

/-- What follows does not begin with a digit. -/
def NoDigit (rest : List Char) : Prop := ∀ c ∈ rest.head?, c.isDigit = false

/-- What follows cannot be mistaken for more of a number. -/
def Ends (rest : List Char) : Prop :=
  ∀ c ∈ rest.head?, c.isDigit = false ∧ c ≠ '.' ∧ c ≠ 'e' ∧ c ≠ 'E'

theorem Ends.noDigit {rest : List Char} (h : Ends rest) : NoDigit rest := fun c hc => (h c hc).1

theorem IsExponentMark.isDigit {c : Char} (h : IsExponentMark c) : c.isDigit = false := by
  rcases h with rfl | rfl <;> rfl

theorem IsExponentMark.ne_point {c : Char} (h : IsExponentMark c) : c ≠ '.' := by
  rcases h with rfl | rfl <;> decide

/-- An exponent is no more digits and no point. -/
theorem ExponentText.follows {e : Option Int} {power rest : List Char} (h : ExponentText e power)
    (hrest : Ends rest) : ∀ c ∈ (power ++ rest).head?, c.isDigit = false ∧ c ≠ '.' := by
  intro c hc
  cases h with
  | absent => exact ⟨(hrest c hc).1, (hrest c hc).2.1⟩
  | power letter _ _ =>
    obtain rfl : _ = c := by simpa using hc
    exact ⟨letter.isDigit, letter.ne_point⟩

theorem FractionText.follows {f point power rest : List Char} {e : Option Int}
    (h : FractionText f point) (he : ExponentText e power) (hrest : Ends rest) :
    NoDigit (point ++ (power ++ rest)) := by
  cases h with
  | absent => exact fun c hc => (he.follows hrest c hc).1
  | point _ =>
    intro c hc
    obtain rfl : '.' = c := by simpa using hc
    rfl

/-! ### Reading the parts -/

theorem spanDigits_append {ds rest : List Char} (h : ∀ c ∈ ds, c.isDigit = true)
    (hrest : NoDigit rest) : spanDigits (ds ++ rest) = (ds, rest) := by
  have htake : rest.takeWhile Char.isDigit = [] := by
    cases rest with
    | nil => rfl
    | cons c rest => simp [hrest c rfl]
  have hdrop : rest.dropWhile Char.isDigit = rest := by
    cases rest with
    | nil => rfl
    | cons c rest => simp [hrest c rfl]
  rw [spanDigits, List.takeWhile_append_of_pos h, List.dropWhile_append_of_pos h, htake, hdrop,
    List.append_nil]

theorem wholePart?_append {ds rest : List Char} (h : WholeDigits ds) (hrest : NoDigit rest) :
    wholePart? (ds ++ rest) = some (ds, rest) := by
  obtain ⟨⟨hne, hall⟩, hzero⟩ := h
  rw [wholePart?, spanDigits_append hall hrest]
  split
  · next heq => cases heq; exact absurd rfl hne
  · next heq => cases heq; cases hzero rfl
  · rfl

theorem fractionPart?_append {f point rest : List Char} (h : FractionText f point)
    (hrest : ∀ c ∈ rest.head?, c.isDigit = false ∧ c ≠ '.') :
    fractionPart? (point ++ rest) = some (f, rest) := by
  cases h with
  | absent =>
    cases rest with
    | nil => rfl
    | cons c rest => simp [fractionPart?, (hrest c rfl).2]
  | point digits =>
    obtain ⟨hne, hall⟩ := digits
    rw [List.cons_append, fractionPart?, spanDigits_append hall fun c hc => (hrest c hc).1]
    split
    · next heq => cases heq; exact absurd rfl hne
    · rfl

theorem exponentDigits?_append {negative : Bool} {sign ds rest : List Char}
    (h : ExponentSign negative sign) (hds : Digits ds) (hrest : NoDigit rest) :
    exponentDigits? (sign ++ (ds ++ rest)) =
      some (if negative then -(decimalValue ds : Int) else decimalValue ds, rest) := by
  obtain ⟨hne, hall⟩ := hds
  obtain ⟨c, tail, rfl⟩ := List.exists_cons_of_ne_nil hne
  have hc : c.isDigit = true := hall c List.mem_cons_self
  -- a digit is not taken for the sign
  have hplus : c ≠ '+' := by rintro rfl; exact absurd hc (by decide)
  have hminus : c ≠ '-' := by rintro rfl; exact absurd hc (by decide)
  have hspan := spanDigits_append hall hrest
  rw [List.cons_append] at hspan ⊢
  cases h <;> simp [exponentDigits?, hplus, hminus, hspan]

theorem exponentPart?_append {e : Option Int} {power rest : List Char} (h : ExponentText e power)
    (hrest : Ends rest) : exponentPart? (power ++ rest) = some (e, rest) := by
  cases h with
  | absent =>
    cases rest with
    | nil => rfl
    | cons c rest => simp [exponentPart?, hrest c rfl]
  | power letter signed digits =>
    have hread := exponentDigits?_append signed digits hrest.noDigit
    rcases letter with rfl | rfl <;> simp [exponentPart?, hread]

/-- A text of a number is its sign and something that is read to its end: as a number if the
parts have a value, and else not at all. -/
theorem NumberText.Spells.readNumber? {t : NumberText} {cs : List Char} (h : t.Spells cs) :
    ∃ body, cs = signText t.negative ++ body ∧ (∃ c ∈ body.head?, c.isDigit = true) ∧
      ∀ rest, Ends rest →
        Json.readNumber? t.negative (body ++ rest) = t.value?.map fun n => (n, rest) := by
  obtain ⟨hwhole, point, power, hpoint, hpower, rfl⟩ := h
  refine ⟨_, rfl, ?_, fun rest hrest => ?_⟩
  · obtain ⟨c, tail, hc⟩ := List.exists_cons_of_ne_nil hwhole.1.1
    exact ⟨c, by simp [hc], hwhole.1.2 c (by simp [hc])⟩
  · have h₁ := wholePart?_append hwhole (hpoint.follows hpower hrest)
    have h₂ := fractionPart?_append hpoint (hpower.follows hrest)
    have h₃ := exponentPart?_append hpower hrest
    simp only [List.append_assoc, Json.readNumber?, h₁, h₂, h₃, Option.bind_eq_bind,
      Option.bind_some, Option.pure_def]
    rcases t.value? with _ | n <;> rfl

/-! ### Whole numbers -/

theorem le_foldl_digits (ds : List Char) : ∀ lead : Nat,
    lead ≤ ds.foldl (fun n c => n * 10 + digitValue c) lead := by
  induction ds with
  | nil => exact fun lead => Nat.le_refl lead
  | cons c ds ih =>
    intro lead
    calc lead ≤ lead * 10 + digitValue c := by omega
      _ ≤ _ := ih _

theorem takeLead_of_le {ds : List Char} : ∀ {lead : Nat},
    ds.foldl (fun n c => n * 10 + digitValue c) lead ≤ greatestLead →
    takeLead lead ds = (ds.foldl (fun n c => n * 10 + digitValue c) lead, []) := by
  induction ds with
  | nil => exact fun _ => rfl
  | cons c ds ih =>
    intro lead h
    have hnext : lead * 10 + digitValue c ≤ greatestLead := Nat.le_trans (le_foldl_digits ds _) h
    rw [takeLead, if_pos hnext]
    exact ih h

theorem decimalValue_toDigits (n : Nat) : decimalValue (Nat.toDigits 10 n) = n := by
  have h := Nat.ofDigitChars_ten_toDigits (n := n)
  rw [Nat.ofDigitChars_eq_foldl] at h
  simpa [decimalValue, digitValue, Nat.mul_comm] using h

/-- Only the digits of 0 begin with a 0. -/
theorem head?_toDigits_ne_zero (n : Nat) (h : 0 < n) : (Nat.toDigits 10 n).head? ≠ some '0' := by
  induction n using Nat.strong_induction_on with
  | _ n ih =>
    by_cases hn : n < 10
    · have hdigit : ∀ m < 10, 0 < m → [m.digitChar].head? ≠ some '0' := by decide
      rw [Nat.toDigits_of_lt_base hn]
      exact hdigit n hn h
    · obtain ⟨c, tail, hc⟩ := List.exists_cons_of_ne_nil
        (Nat.toDigits_ne_nil (b := 10) (n := n / 10))
      have hhead := ih (n / 10) (by omega) (by omega)
      rw [Nat.toDigits_of_base_le (by decide) (by omega)]
      simpa [hc] using hhead

/-- The decimal digits of a number are digits in front of a point. -/
theorem wholeDigits_toDigits (n : Nat) : WholeDigits (Nat.toDigits 10 n) := by
  refine ⟨⟨Nat.toDigits_ne_nil, fun c hc =>
    Nat.isDigit_of_mem_toDigits (by decide) (Nat.le_refl 10) hc⟩, fun h => ?_⟩
  obtain rfl : n = 0 := by
    by_contra hn
    exact head?_toDigits_ne_zero n (by omega) h
  rfl

theorem takeLead_toDigits {n : Nat} (h : n ≤ greatestLead) :
    takeLead 0 (Nat.toDigits 10 n) = (n, []) := by
  have hvalue := decimalValue_toDigits n
  unfold decimalValue at hvalue
  rw [takeLead_of_le (by rwa [hvalue]), hvalue]

/-- A whole number is spelled by its sign and its digits. -/
theorem exists_numberText_of_whole {n : Int} (hleast : leastWhole ≤ n)
    (hgreatest : n ≤ greatestLead) :
    ∃ t : NumberText, t.Spells (toString n).toList ∧ t.value? = some (.whole n) := by
  cases n with
  | ofNat m =>
    have hm : m ≤ greatestLead := by simpa using hgreatest
    refine ⟨⟨false, Nat.toDigits 10 m, [], none⟩, ⟨wholeDigits_toDigits m, [], [], .absent, .absent,
      ?_⟩, ?_⟩
    · simp [Int.toString_eq_repr, Int.repr, signText]
    · simp [NumberText.value?, takeLead_toDigits hm]
  | negSucc m =>
    have hm : m + 1 ≤ 9223372036854775808 := by unfold leastWhole at hleast; omega
    have hlead : m + 1 ≤ greatestLead := by unfold greatestLead; omega
    refine ⟨⟨true, Nat.toDigits 10 (m + 1), [], none⟩, ⟨wholeDigits_toDigits (m + 1), [], [],
      .absent, .absent, ?_⟩, ?_⟩
    · simp [Int.toString_eq_repr, Int.repr, signText]
    · simp [NumberText.value?, takeLead_toDigits hlead, hm]
      omega

/-- A text of a number is a sign and something that reads as the number. -/
theorem SpellsNumber.read {n : JsonNumber} {cs : List Char} (h : SpellsNumber n cs) :
    ∃ negative body, cs = signText negative ++ body ∧ (∃ c ∈ body.head?, c.isDigit = true) ∧
      ∀ rest, Ends rest → readNumber? negative (body ++ rest) = some (n, rest) := by
  have htext : ∃ t : NumberText, t.Spells cs ∧ t.value? = some n := by
    cases n with
    | whole n =>
      obtain ⟨hleast, hgreatest, rfl⟩ := h
      exact exists_numberText_of_whole hleast hgreatest
    | real x => exact h
  obtain ⟨t, hspells, hvalue⟩ := htext
  obtain ⟨body, hbody, hdigit, hread⟩ := hspells.readNumber?
  refine ⟨t.negative, body, hbody, hdigit, ?_⟩
  intro rest hrest
  rw [hread rest hrest, hvalue]
  rfl

end DrawStream.Json
