import DrawStream.Proofs.Numerals
import Mathlib.Data.List.Induction

/-! # Numbers that are read are spelled

A number is read off the front of a text in parts: the digits before the point, those behind
it, the exponent.  Each part that is taken is a text of the grammar, and the value of the
parts says which number they spell: a whole one has no more parts than its digits, which are
its decimal digits, since they do not begin with a 0 (`toDigits_decimalValue`).  So what is
read is a text of the number (`spells_of_readNumber?`), as every text of it is read. -/
namespace DrawStream.Json

/-! ### Parts -/

theorem spanDigits_split {cs ds rest : List Char} (h : spanDigits cs = (ds, rest)) :
    cs = ds ++ rest ∧ ∀ c ∈ ds, c.isDigit = true := by
  obtain ⟨rfl, rfl⟩ := Prod.mk.inj h
  exact ⟨List.takeWhile_append_dropWhile.symm, List.all_eq_true.mp List.all_takeWhile⟩

/-- Digits that are taken, where none are refused. -/
theorem digits_of_spanDigits {cs ds rest : List Char} (h : spanDigits cs = (ds, rest))
    (hne : ds ≠ []) : Digits ds ∧ cs = ds ++ rest := by
  obtain ⟨hsplit, hall⟩ := spanDigits_split h
  exact ⟨⟨hne, hall⟩, hsplit⟩

theorem wholeDigits_of_wholePart? {cs ds rest : List Char}
    (h : wholePart? cs = some (ds, rest)) : WholeDigits ds ∧ cs = ds ++ rest := by
  unfold wholePart? at h
  split at h
  · cases h
  · cases h
  · next hempty hzero =>
    have hspan : spanDigits cs = (ds, rest) := Option.some.inj h
    have hne : ds ≠ [] := by
      rintro rfl
      exact hempty rest hspan
    obtain ⟨hdigits, hsplit⟩ := digits_of_spanDigits hspan hne
    refine ⟨⟨hdigits, ?_⟩, hsplit⟩
    intro hhead
    obtain ⟨tail, rfl⟩ := List.head?_eq_some_iff.1 hhead
    rcases tail with _ | ⟨c, tail⟩
    · rfl
    · exact absurd hspan fun hspan => hzero c tail rest hspan

theorem fractionText_of_fractionPart? {cs f rest : List Char}
    (h : fractionPart? cs = some (f, rest)) :
    ∃ point, FractionText f point ∧ cs = point ++ rest := by
  unfold fractionPart? at h
  split at h
  · next left =>
    split at h
    · cases h
    · next hempty =>
      have hspan : spanDigits left = (f, rest) := Option.some.inj h
      have hne : f ≠ [] := by
        rintro rfl
        exact hempty rest hspan
      obtain ⟨hdigits, rfl⟩ := digits_of_spanDigits hspan hne
      exact ⟨'.' :: f, .point hdigits, rfl⟩
  · cases h
    exact ⟨[], .absent, rfl⟩

/-- The digits of an exponent, behind its sign. -/
theorem power_of_spanDigits {cs rest : List Char} {negative : Bool} {e : Int}
    (h : (match spanDigits cs with
      | ([], _) => none
      | (digits, rest) =>
        let n : Int := decimalValue digits
        some (if negative then -n else n, rest)) = some (e, rest)) :
    ∃ ds, Digits ds ∧ cs = ds ++ rest ∧
      e = if negative then -(decimalValue ds : Int) else decimalValue ds := by
  split at h
  · cases h
  · next ds left hempty hspan =>
    cases h
    have hne : ds ≠ [] := by
      rintro rfl
      exact hempty rfl
    obtain ⟨hdigits, hsplit⟩ := digits_of_spanDigits hspan hne
    exact ⟨ds, hdigits, hsplit, rfl⟩

theorem exponent_of_exponentDigits? {cs rest : List Char} {e : Int}
    (h : exponentDigits? cs = some (e, rest)) :
    ∃ negative sign ds, ExponentSign negative sign ∧ Digits ds ∧ cs = sign ++ (ds ++ rest) ∧
      e = if negative then -(decimalValue ds : Int) else decimalValue ds := by
  unfold exponentDigits? at h
  split at h
  next negative left hsign =>
  obtain ⟨ds, hdigits, rfl, he⟩ := power_of_spanDigits h
  split at hsign
  · cases hsign
    exact ⟨false, ['+'], ds, .plus, hdigits, rfl, he⟩
  · cases hsign
    exact ⟨true, ['-'], ds, .minus, hdigits, rfl, he⟩
  · cases hsign
    exact ⟨false, [], ds, .absent, hdigits, rfl, he⟩

theorem exponentText_of_exponentPart? {cs rest : List Char} {e : Option Int}
    (h : exponentPart? cs = some (e, rest)) :
    ∃ power, ExponentText e power ∧ cs = power ++ rest := by
  unfold exponentPart? at h
  split at h
  · next left =>
    obtain ⟨⟨n, tail⟩, hdigits, hn⟩ := Option.map_eq_some_iff.1 h
    cases hn
    obtain ⟨negative, sign, ds, hsign, hds, rfl, rfl⟩ := exponent_of_exponentDigits? hdigits
    exact ⟨'e' :: (sign ++ ds), .power (.inl rfl) hsign hds, by simp⟩
  · next left =>
    obtain ⟨⟨n, tail⟩, hdigits, hn⟩ := Option.map_eq_some_iff.1 h
    cases hn
    obtain ⟨negative, sign, ds, hsign, hds, rfl, rfl⟩ := exponent_of_exponentDigits? hdigits
    exact ⟨'E' :: (sign ++ ds), .power (.inr rfl) hsign hds, by simp⟩
  · cases h
    exact ⟨[], .absent, rfl⟩

/-! ### Whole numbers -/

theorem digitChar_digitValue {c : Char} (h : c.isDigit = true) :
    digitValue c < 10 ∧ (digitValue c).digitChar = c := by
  have hbounds : 48 ≤ c.toNat ∧ c.toNat ≤ 57 := by
    simpa [Char.isDigit, UInt32.le_iff_toNat_le] using h
  have hvalue : digitValue c = c.toNat - 48 := rfl
  have hchars : ∀ n < 10, n.digitChar = Char.ofNat (48 + n) := by decide
  have hlt : digitValue c < 10 := by omega
  have hcode : 48 + digitValue c = c.toNat := by omega
  refine ⟨hlt, ?_⟩
  rw [hchars _ hlt, hcode, Char.ofNat_toNat]

theorem decimalValue_concat (ds : List Char) (c : Char) :
    decimalValue (ds ++ [c]) = decimalValue ds * 10 + digitValue c := by
  simp [decimalValue]

/-- Digits without a 0 in front are the decimal digits of their number.  The induction is
from the back, as decimal digits come about. -/
theorem toDigits_decimalValue {ds : List Char} (h : WholeDigits ds) :
    Nat.toDigits 10 (decimalValue ds) = ds := by
  induction ds using List.reverseRecOn with
  | nil => exact absurd rfl h.1.1
  | append_singleton ds c ih =>
    obtain ⟨⟨-, hall⟩, hzero⟩ := h
    obtain ⟨hlt, hchar⟩ := digitChar_digitValue (hall c (by simp))
    rw [decimalValue_concat]
    by_cases hne : ds = []
    · subst hne
      simp only [decimalValue, List.foldl_nil, Nat.zero_mul, Nat.zero_add, List.nil_append]
      rw [Nat.toDigits_of_lt_base hlt, hchar]
    · have hhead : ds.head? ≠ some '0' := by
        intro hhead
        obtain ⟨tail, rfl⟩ := List.head?_eq_some_iff.1 hhead
        simpa using hzero rfl
      have hds :=
        ih ⟨⟨hne, fun d hd => hall d (List.mem_append_left _ hd)⟩, fun h => absurd h hhead⟩
      have hpos : 0 < decimalValue ds := by
        by_contra hvalue
        have hvalue : decimalValue ds = 0 := by omega
        rw [hvalue] at hds
        rw [← hds] at hhead
        exact hhead rfl
      have hdiv : (decimalValue ds * 10 + digitValue c) / 10 = decimalValue ds := by omega
      have hmod : (decimalValue ds * 10 + digitValue c) % 10 = digitValue c := by omega
      rw [Nat.toDigits_of_base_le (by decide) (by omega), hdiv, hmod, hds, hchar]

theorem le_of_takeLead {ds : List Char} {n : Nat} : ∀ {lead : Nat}, lead ≤ greatestLead →
    takeLead lead ds = (n, []) →
    n = ds.foldl (fun n c => n * 10 + digitValue c) lead ∧ n ≤ greatestLead := by
  induction ds with
  | nil =>
    intro lead hlead h
    cases h
    exact ⟨rfl, hlead⟩
  | cons c ds ih =>
    intro lead _ h
    unfold takeLead at h
    dsimp only at h
    split at h
    · next hnext => exact ih hnext h
    · cases h

/-- The parts of a whole number: digits within bounds, and perhaps a sign. -/
theorem whole_of_value? {t : NumberText} {n : Int} (h : t.value? = some (.whole n)) :
    t.fraction = [] ∧ t.exponent = none ∧ decimalValue t.whole ≤ greatestLead ∧
      (t.negative = false ∧ n = decimalValue t.whole ∨
        t.negative = true ∧ 0 < decimalValue t.whole ∧
          decimalValue t.whole ≤ 9223372036854775808 ∧ n = -(decimalValue t.whole : Int)) := by
  unfold NumberText.value? at h
  rcases hlead : takeLead 0 t.whole with ⟨lead, left⟩
  rw [hlead] at h
  dsimp only at h
  have hvalue (hleft : left = []) : lead = decimalValue t.whole ∧ lead ≤ greatestLead := by
    subst hleft
    exact le_of_takeLead (Nat.zero_le _) hlead
  split at h
  · next hwhole =>
    simp only [Bool.and_eq_true, List.isEmpty_iff, Option.isNone_iff_eq_none,
      Bool.not_eq_true'] at hwhole
    obtain ⟨⟨⟨hleft, hfraction⟩, hexponent⟩, hsign⟩ := hwhole
    obtain ⟨rfl, hgreatest⟩ := hvalue hleft
    cases h
    exact ⟨hfraction, hexponent, hgreatest, .inl ⟨hsign, rfl⟩⟩
  split at h
  · next hwhole =>
    simp only [Bool.and_eq_true, List.isEmpty_iff, Option.isNone_iff_eq_none, bne_iff_ne,
      decide_eq_true_eq] at hwhole
    obtain ⟨⟨⟨⟨⟨hleft, hfraction⟩, hexponent⟩, hsign⟩, hzero⟩, hbound⟩ := hwhole
    obtain ⟨rfl, hgreatest⟩ := hvalue hleft
    cases h
    exact ⟨hfraction, hexponent, hgreatest, .inr ⟨hsign, Nat.pos_of_ne_zero hzero, hbound, rfl⟩⟩
  · obtain ⟨x, -, hx⟩ := Option.map_eq_some_iff.1 h
    cases hx

/-- A whole number is written as its decimal digits. -/
theorem toString_of_value? {t : NumberText} {n : Int} (hdigits : WholeDigits t.whole)
    (h : t.value? = some (.whole n)) :
    leastWhole ≤ n ∧ n ≤ greatestLead ∧
      signText t.negative ++ t.whole = (toString n).toList := by
  obtain ⟨-, -, hgreatest, hsign⟩ := whole_of_value? h
  have hwhole := toDigits_decimalValue hdigits
  generalize decimalValue t.whole = m at hgreatest hsign hwhole
  unfold leastWhole
  rcases hsign with ⟨hsign, rfl⟩ | ⟨hsign, hpos, hleast, rfl⟩
  · refine ⟨by omega, by omega, ?_⟩
    rw [hsign, ← hwhole]
    simp [Int.toString_eq_repr, Int.repr, signText]
  · obtain ⟨k, rfl⟩ := Nat.exists_eq_add_of_lt hpos
    refine ⟨by omega, by omega, ?_⟩
    rw [hsign, ← hwhole]
    have hneg : -((0 + k + 1 : Nat) : Int) = Int.negSucc k := by omega
    rw [hneg]
    simp [Int.toString_eq_repr, Int.repr, signText]

/-- A text whose parts have a value is one of the number. -/
theorem NumberText.Spells.spellsNumber {t : NumberText} {cs : List Char} {n : JsonNumber}
    (h : t.Spells cs) (hn : t.value? = some n) : SpellsNumber n cs := by
  rcases n with n | x
  · obtain ⟨hdigits, point, power, hpoint, hpower, rfl⟩ := h
    obtain ⟨hfraction, hexponent, -, -⟩ := whole_of_value? hn
    obtain ⟨hleast, hgreatest, htext⟩ := toString_of_value? hdigits hn
    rw [hfraction] at hpoint
    rw [hexponent] at hpower
    cases hpower
    rcases hpoint with _ | ⟨⟨hne, -⟩⟩
    · refine ⟨hleast, hgreatest, ?_⟩
      rw [List.append_nil, List.append_nil]
      exact htext
    · exact absurd rfl hne
  · exact ⟨t, h, hn⟩

/-- What is read of a number is a text of it. -/
theorem spells_of_readNumber? {negative : Bool} {cs rest : List Char} {n : JsonNumber}
    (h : readNumber? negative cs = some (n, rest)) :
    ∃ body, cs = body ++ rest ∧ SpellsNumber n (signText negative ++ body) := by
  simp only [readNumber?, Option.bind_eq_bind, Option.bind_eq_some_iff] at h
  obtain ⟨⟨whole, left₁⟩, hwhole, ⟨fraction, left₂⟩, hfraction, ⟨e, left₃⟩, hexponent, value,
    hvalue, hread⟩ := h
  cases hread
  obtain ⟨hdigits, rfl⟩ := wholeDigits_of_wholePart? hwhole
  obtain ⟨point, hpoint, rfl⟩ := fractionText_of_fractionPart? hfraction
  obtain ⟨power, hpower, rfl⟩ := exponentText_of_exponentPart? hexponent
  have hspells : NumberText.Spells ⟨negative, whole, fraction, e⟩
      (signText negative ++ (whole ++ (point ++ power))) :=
    ⟨hdigits, point, power, hpoint, hpower, rfl⟩
  exact ⟨whole ++ (point ++ power), by simp only [List.append_assoc],
    hspells.spellsNumber hvalue⟩

end DrawStream.Json
