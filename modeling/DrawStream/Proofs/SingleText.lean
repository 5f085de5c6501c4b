import DrawStream.Proofs.Numerals
import DrawStream.Proofs.Nearness

/-! # Every finite 32-bit number has a text

A number in a text is rounded several times before it is a 32-bit number: the digits and the
power of ten become doubles, these are multiplied or divided, and the result is cut to 32
bits.  Sixteen digits are enough for all of it: they are so much closer to the number than
the next 32-bit one that the errors of all roundings together do not matter
(`Single.exists_text`). -/
namespace DrawStream
open Binary

namespace Double

/-! ### Arithmetic of doubles -/

/-- One rounding; the bounds leave out much of the range, but no 32-bit number. -/
theorem round_near {n d : Nat} (hd : 0 < d) (hlow : (2 : ℚ) ^ (-250 : ℤ) ≤ n / d)
    (hhigh : (n : ℚ) / d < 2 ^ (250 : ℤ)) :
    ∃ y, Format.double.round n d = some y ∧ Near (2 ^ (-53 : ℤ)) y.value (n / d) :=
  Format.round_near (by decide) hd
    (le_trans (zpow_le_zpow_right₀ one_le_two (by decide)) hlow)
    (lt_of_lt_of_le hhigh (zpow_le_zpow_right₀ one_le_two (by decide)))

theorem nearest?_near {n : Nat} (hn : 0 < n) (hhigh : (n : ℚ) < 2 ^ (250 : ℤ)) :
    ∃ y, nearest? n = some y ∧ Near (2 ^ (-53 : ℤ)) y.value n := by
  have hone : (1 : ℚ) ≤ n := by exact_mod_cast hn
  have hlow : (2 : ℚ) ^ (-250 : ℤ) ≤ 1 := zpow_le_one_of_nonpos₀ one_le_two (by decide)
  unfold nearest?
  simpa using round_near (d := 1) one_pos (by simpa using hlow.trans hone) (by simpa using hhigh)

theorem mul?_near {x y : Scaled} (hlow : (2 : ℚ) ^ (-250 : ℤ) ≤ x.value * y.value)
    (hhigh : x.value * y.value < 2 ^ (250 : ℤ)) :
    ∃ z, mul? x y = some z ∧ Near (2 ^ (-53 : ℤ)) z.value (x.value * y.value) := by
  have hvalue : ((x.num * y.num : Nat) : ℚ) / ((x.den * y.den : Nat) : ℚ) = x.value * y.value := by
    push_cast
    rw [← x.value_eq, ← y.value_eq, div_mul_div_comm]
  rw [← hvalue] at hlow hhigh ⊢
  exact round_near (Nat.mul_pos x.den_pos y.den_pos) hlow hhigh

theorem div?_near {x y : Scaled} (hy : 0 < y.value)
    (hlow : (2 : ℚ) ^ (-250 : ℤ) ≤ x.value * y.value⁻¹)
    (hhigh : x.value * y.value⁻¹ < 2 ^ (250 : ℤ)) :
    ∃ z, div? x y = some z ∧ Near (2 ^ (-53 : ℤ)) z.value (x.value * y.value⁻¹) := by
  have hvalue : ((x.num * y.den : Nat) : ℚ) / ((x.den * y.num : Nat) : ℚ) =
      x.value * y.value⁻¹ := by
    push_cast
    rw [← x.value_eq, ← y.value_eq, ← div_mul_div_comm, inv_div]
  have hnum : 0 < y.num := by
    by_contra h
    rw [← y.value_eq, show y.num = 0 by omega] at hy
    simp at hy
  rw [← hvalue] at hlow hhigh ⊢
  exact round_near (Nat.mul_pos x.den_pos hnum) hlow hhigh

/-! ### Powers of ten -/

/-- What is near a number of moderate size is far from the ends of the range. -/
theorem inRange_of_near {ε v w : ℚ} (h : Near ε v w) (hε : ε ≤ 1 / 2)
    (hlow : (10 : ℚ) ^ (-50 : ℤ) ≤ w) (hhigh : w ≤ 10 ^ (50 : ℤ)) :
    (2 : ℚ) ^ (-250 : ℤ) ≤ v ∧ v < 2 ^ (250 : ℤ) := by
  have hpos : 0 < w := lt_of_lt_of_le (by positivity) hlow
  have hε := mul_le_mul_of_nonneg_left hε hpos.le
  have hge := h.ge
  have hle := h.le
  constructor
  · calc (2 : ℚ) ^ (-250 : ℤ) ≤ 10 ^ (-50 : ℤ) / 2 := by norm_num
      _ ≤ w / 2 := div_le_div_of_nonneg_right hlow two_pos.le
      _ ≤ v := by linarith
  · calc v ≤ 2 * w := by linarith
      _ ≤ 2 * 10 ^ (50 : ℤ) := mul_le_mul_of_nonneg_left hhigh two_pos.le
      _ < 2 ^ (250 : ℤ) := by norm_num

theorem nearest?_pow_near {n : Nat} (hn : n ≤ 60) :
    ∃ y, nearest? (Nat.pow 10 n) = some y ∧ Near (2 ^ (-53 : ℤ)) y.value (10 ^ n) := by
  have hlt : ((Nat.pow 10 n : Nat) : ℚ) < 2 ^ (250 : ℤ) :=
    calc ((Nat.pow 10 n : Nat) : ℚ) ≤ (Nat.pow 10 60 : Nat) := by
          exact_mod_cast Nat.pow_le_pow_right (by decide) hn
      _ < 2 ^ (250 : ℤ) := by norm_num
  obtain ⟨y, hy, hnear⟩ := nearest?_near (Nat.pow_pos (by decide) : 0 < Nat.pow 10 n) hlt
  have hcast : ((Nat.pow 10 n : Nat) : ℚ) = 10 ^ n := by exact_mod_cast Nat.cast_pow 10 n
  exact ⟨y, hy, hcast ▸ hnear⟩

/-- A power of ten is applied with an error of a few units. -/
theorem scaleByTen_near {x : Scaled} {k : ℤ} {v : ℚ} (hk : k.natAbs ≤ 60)
    (hx : Near (2 ^ (-53 : ℤ)) x.value v) (hlow : (10 : ℚ) ^ (-50 : ℤ) ≤ v * 10 ^ k)
    (hhigh : v * 10 ^ k ≤ 10 ^ (50 : ℤ)) :
    ∃ y, scaleByTen x k = some y ∧ Near (2 ^ (-50 : ℤ)) y.value (v * 10 ^ k) := by
  have hten : (0 : ℚ) < 10 ^ k := by positivity
  have hpos : 0 < v * 10 ^ k := lt_of_lt_of_le (by positivity) hlow
  have hv : 0 < v := (pos_iff_pos_of_mul_pos hpos).2 hten
  have hexp : k = k.natAbs ∨ k = -(k.natAbs : ℤ) := Int.natAbs_eq k
  obtain ⟨b, hb, hnear⟩ := nearest?_pow_near hk
  have hbpos : 0 < b.value := hnear.pos (by positivity) (by norm_num)
  -- what is rounded last, and that it is in range
  have hlast {p : ℚ} (hp : Near (2 ^ (-51 : ℤ)) p (v * 10 ^ k)) :=
    inRange_of_near hp (by norm_num) hlow hhigh
  have hall {p z : ℚ} (hz : Near (2 ^ (-53 : ℤ)) z p)
      (hp : Near (2 ^ (-51 : ℤ)) p (v * 10 ^ k)) : Near (2 ^ (-50 : ℤ)) z (v * 10 ^ k) :=
    (hz.trans hp (by norm_num)).mono (by norm_num) hpos.le
  unfold scaleByTen
  split
  · next hsign =>
    have hk' : k = k.natAbs := by omega
    have hn : k.toNat = k.natAbs := by omega
    have hp : Near (2 ^ (-51 : ℤ)) (x.value * b.value) (v * 10 ^ k) := by
      have h := hx.mul hnear hv.le (by positivity) (by norm_num)
      rw [← zpow_natCast, ← hk'] at h
      exact h.mono (by norm_num) hpos.le
    obtain ⟨z, hz, hzp⟩ := mul?_near (hlast hp).1 (hlast hp).2
    refine ⟨z, ?_, hall hzp hp⟩
    rw [if_pos (by unfold stride; omega), hn, hb]
    exact hz
  · next hsign =>
    have hk' : k = -(k.natAbs : ℤ) := by omega
    have hn : (-k).toNat = k.natAbs := by omega
    have hp : Near (2 ^ (-51 : ℤ)) (x.value * b.value⁻¹) (v * 10 ^ k) := by
      have h := hx.mul (hnear.inv (by positivity) (by norm_num) (by norm_num)) hv.le
        (by positivity) (by norm_num)
      rw [← zpow_natCast, ← zpow_neg, ← hk'] at h
      exact h.mono (by norm_num) hpos.le
    obtain ⟨z, hz, hzp⟩ := div?_near hbpos (hlast hp).1 (hlast hp).2
    refine ⟨z, ?_, hall hzp hp⟩
    have hstrides : (k.natAbs - 1) / stride = 0 := Nat.div_eq_of_lt (by unfold stride; omega)
    simp only [hn, hstrides, Nat.zero_mul, Nat.sub_zero, shrink, hb]
    exact hz

/-- What digits and a power of ten denote is read with an error of a few units. -/
theorem ofDecimal?_near (negative : Bool) {digits : Nat} {k : ℤ} (hdigits : digits ≤ 10 ^ 20)
    (hk : k.natAbs ≤ 60) (hlow : (10 : ℚ) ^ (-50 : ℤ) ≤ digits * 10 ^ k)
    (hhigh : digits * 10 ^ k ≤ (10 : ℚ) ^ (50 : ℤ)) :
    ∃ y, ofDecimal? negative digits k = some ⟨negative, y⟩ ∧
      Near (2 ^ (-50 : ℤ)) y.value (digits * 10 ^ k) := by
  have hpos : 0 < digits := by
    by_contra h
    rw [show digits = 0 by omega] at hlow
    norm_num at hlow
  have hlt : (digits : ℚ) < 2 ^ (250 : ℤ) :=
    calc (digits : ℚ) ≤ (10 ^ 20 : Nat) := by exact_mod_cast hdigits
      _ < 2 ^ (250 : ℤ) := by norm_num
  obtain ⟨x, hx, hxd⟩ := nearest?_near hpos hlt
  obtain ⟨y, hy, hyv⟩ := scaleByTen_near hk hxd hlow hhigh
  exact ⟨y, by simp [ofDecimal?, hx, hy], hyv⟩

end Double

/-! ### Sixteen digits -/

/-- Sixteen digits and a power of ten come next to every number. -/
theorem exists_decimal {v : ℚ} (hpos : 0 < v) : ∃ (digits : Nat) (k : ℤ),
    digits < 10 ^ 16 ∧ 10 ^ (k + 15) ≤ v ∧ v < 10 ^ (k + 15 + 1) ∧
      Near (10 ^ (-15 : ℤ)) (digits * 10 ^ k) v := by
  obtain ⟨j, hlow, hhigh⟩ := exists_mem_Ico_zpow hpos (by norm_num : (1 : ℚ) < 10)
  obtain ⟨k, rfl⟩ : ∃ k, j = k + 15 := ⟨j - 15, by ring⟩
  have hten : (0 : ℚ) < 10 ^ k := by positivity
  have hsixteen : (10 : ℚ) ^ (k + 15 + 1) = 10 ^ 16 * 10 ^ k := by
    rw [add_assoc, zpow_add₀ (by norm_num), mul_comm]
    norm_num
  have hfloor := Nat.floor_le (div_pos hpos hten).le
  have hceil := Nat.lt_floor_add_one (v / 10 ^ k)
  rw [le_div_iff₀ hten] at hfloor
  rw [div_lt_iff₀ hten] at hceil
  refine ⟨⌊v / 10 ^ k⌋₊, k, ?_, hlow, hhigh, ?_⟩
  · rw [Nat.floor_lt (div_pos hpos hten).le, div_lt_iff₀ hten]
    rw [hsixteen] at hhigh
    exact_mod_cast hhigh
  · rw [Near, abs_sub_comm, abs_of_nonneg (by linarith)]
    calc v - ⌊v / 10 ^ k⌋₊ * 10 ^ k ≤ 10 ^ k := by linarith
      _ = 10 ^ (k + 15) * 10 ^ (-15 : ℤ) := by rw [← zpow_add₀ (by norm_num)]; congr 1; ring
      _ ≤ v * 10 ^ (-15 : ℤ) := mul_le_mul_of_nonneg_right hlow (by positivity)

namespace Single
variable {x : Single} {m : Scaled}

/-! ### Finite numbers -/

/-- The magnitude of a finite number is one of the format. -/
theorem holds_of_finite? (h : x.finite? = some m) : Format.single.Holds m := by
  have hfield : x.exponentField < 256 := Nat.mod_lt _ (by decide)
  have hfraction : x.fraction < 0x800000 := Nat.mod_lt _ (by decide)
  unfold finite? at h
  split at h
  · cases h
  · split at h <;> cases h
    · exact ⟨by dsimp only [Format.single]; omega, .inr rfl, le_rfl,
        by dsimp only [Format.single]; omega⟩
    · refine ⟨?_, .inl ?_, ?_, ?_⟩ <;> dsimp only [Format.single] <;> omega

/-- A finite number is its sign and its magnitude. -/
theorem ofMagnitude_of_finite? (h : x.finite? = some m) : ofMagnitude x.negative (some m) = x := by
  have hbits := x.bits.toNat_lt
  have hfield : x.exponentField < 256 := Nat.mod_lt _ (by decide)
  have hsum : x.bits.toNat =
      (if x.negative then 0x80000000 else 0) + (x.exponentField * 0x800000 + x.fraction) := by
    simp only [negative, exponentField, fraction, decide_eq_true_eq]
    split <;> omega
  have hbody : (if m.mantissa < 0x800000 then m.mantissa
      else (m.exponent + 150).toNat * 0x800000 + (m.mantissa - 0x800000)) =
      x.exponentField * 0x800000 + x.fraction := by
    have hfraction : x.fraction < 0x800000 := Nat.mod_lt _ (by decide)
    unfold finite? at h
    split at h
    · cases h
    · split at h <;> cases h
      · dsimp only
        rw [if_pos hfraction]
        omega
      · dsimp only
        rw [if_neg (by omega)]
        omega
  simp only [ofMagnitude, hbody, ← hsum, UInt32.ofNat_toNat]

theorem ofDouble_of_near (h : x.finite? = some m) (hpos : 0 < m.mantissa) {y : Scaled}
    (hy : Near (2 ^ (-27 : ℤ)) y.value m.value) : ofDouble ⟨x.negative, y⟩ = x := by
  have hholds := holds_of_finite? h
  have hround : Format.single.round y.num y.den = some m := by
    refine Format.round_eq_of_near hholds hpos y.den_pos ?_
    rw [y.value_eq]
    have h2 := zpow_two_pos m.exponent
    have hm : (m.mantissa : ℚ) ≤ 2 ^ 24 := by exact_mod_cast hholds.fits.le
    calc |y.value - m.value| ≤ m.mantissa * 2 ^ m.exponent * 2 ^ (-27 : ℤ) := hy
      _ ≤ 2 ^ 24 * 2 ^ m.exponent * 2 ^ (-27 : ℤ) := by gcongr
      _ < 2 ^ m.exponent / 4 := by norm_num; linarith
  rw [ofDouble, hround, ofMagnitude_of_finite? h]

/-- The values of finite numbers are of moderate size. -/
theorem value_bounds (h : x.finite? = some m) (hpos : 0 < m.mantissa) :
    (2 : ℚ) ^ (-149 : ℤ) ≤ m.value ∧ m.value < 2 ^ (128 : ℤ) := by
  obtain ⟨hfits, -, hleast, hgreatest⟩ := holds_of_finite? h
  have h2 := zpow_two_pos m.exponent
  have hone : (1 : ℚ) ≤ m.mantissa := by exact_mod_cast hpos
  have hm : (m.mantissa : ℚ) < 2 ^ 24 := by exact_mod_cast hfits
  constructor
  · calc (2 : ℚ) ^ (-149 : ℤ) ≤ 2 ^ m.exponent := zpow_le_zpow_right₀ one_le_two hleast
      _ = 1 * 2 ^ m.exponent := (one_mul _).symm
      _ ≤ m.mantissa * 2 ^ m.exponent := mul_le_mul_of_nonneg_right hone h2.le
  · calc m.value < 2 ^ 24 * 2 ^ m.exponent := mul_lt_mul_of_pos_right hm h2
      _ ≤ 2 ^ 24 * 2 ^ (104 : ℤ) :=
        mul_le_mul_of_nonneg_left (zpow_le_zpow_right₀ one_le_two hgreatest) (by positivity)
      _ = 2 ^ (128 : ℤ) := by norm_num

/-- Digits and a power of ten that are read as the number. -/
theorem exists_ofDecimal? (h : x.finite? = some m) : ∃ (digits : Nat) (k : ℤ) (y : Double),
    digits ≤ Json.greatestLead ∧ Double.ofDecimal? x.negative digits k = some y ∧
      ofDouble y = x := by
  rcases Nat.eq_zero_or_pos m.mantissa with hzero | hpos
  · -- a zero has the sign that is written
    refine ⟨0, 0, ⟨x.negative, ⟨0, -1074⟩⟩, by decide, by cases x.negative <;> rfl, ?_⟩
    have hsame : ofDouble ⟨x.negative, ⟨0, -1074⟩⟩ = ofMagnitude x.negative (some m) := by
      have hnum : Scaled.num ⟨0, -1074⟩ = 0 := Nat.zero_mul _
      simp [ofDouble, Format.round, ofMagnitude, hnum, hzero]
    exact hsame.trans (ofMagnitude_of_finite? h)
  · obtain ⟨hlow, hhigh⟩ := value_bounds h hpos
    have hvalue : 0 < m.value := (zpow_two_pos _).trans_le hlow
    obtain ⟨digits, k, hdigits, hklow, hkhigh, hnear⟩ := exists_decimal hvalue
    have hk : k.natAbs ≤ 60 := by
      have h₁ : k + 15 < 39 := by
        rw [← zpow_lt_zpow_iff_right₀ (by norm_num : (1 : ℚ) < 10)]
        calc (10 : ℚ) ^ (k + 15) ≤ m.value := hklow
          _ < 2 ^ (128 : ℤ) := hhigh
          _ < 10 ^ (39 : ℤ) := by norm_num
      have h₂ : -45 < k + 15 + 1 := by
        rw [← zpow_lt_zpow_iff_right₀ (by norm_num : (1 : ℚ) < 10)]
        calc (10 : ℚ) ^ (-45 : ℤ) < 2 ^ (-149 : ℤ) := by norm_num
          _ ≤ m.value := hlow
          _ < 10 ^ (k + 15 + 1) := hkhigh
      omega
    have hleast : (10 : ℚ) ^ (-50 : ℤ) ≤ digits * 10 ^ k :=
      calc (10 : ℚ) ^ (-50 : ℤ) ≤ 2 ^ (-149 : ℤ) * (1 - 10 ^ (-15 : ℤ)) := by norm_num
        _ ≤ m.value * (1 - 10 ^ (-15 : ℤ)) := mul_le_mul_of_nonneg_right hlow (by norm_num)
        _ ≤ digits * 10 ^ k := hnear.ge
    have hgreatest : digits * 10 ^ k ≤ (10 : ℚ) ^ (50 : ℤ) :=
      calc digits * 10 ^ k ≤ m.value * (1 + 10 ^ (-15 : ℤ)) := hnear.le
        _ ≤ 2 ^ (128 : ℤ) * (1 + 10 ^ (-15 : ℤ)) :=
          mul_le_mul_of_nonneg_right hhigh.le (by norm_num)
        _ ≤ 10 ^ (50 : ℤ) := by norm_num
    obtain ⟨y, hy, hyv⟩ := Double.ofDecimal?_near x.negative
      (hdigits.le.trans (by norm_num)) hk hleast hgreatest
    refine ⟨digits, k, _, ?_, hy, ofDouble_of_near h hpos ?_⟩
    · unfold Json.greatestLead
      omega
    · exact (hyv.trans hnear (by norm_num)).mono (by norm_num) hvalue.le

end Single

/-! ### Texts -/

namespace Json

/-- Every exponent has a text. -/
theorem exists_exponentText (k : ℤ) : ∃ power, ExponentText (some k) power := by
  obtain ⟨hdigits, -⟩ := wholeDigits_toDigits k.natAbs
  have hvalue := decimalValue_toDigits k.natAbs
  rcases Int.natAbs_eq k with hk | hk
  · have h := ExponentText.power (.inl rfl) .absent hdigits
    rw [if_neg Bool.false_ne_true, hvalue, ← hk] at h
    exact ⟨_, h⟩
  · have h := ExponentText.power (.inl rfl) .minus hdigits
    rw [if_pos rfl, hvalue, ← hk] at h
    exact ⟨_, h⟩

/-- Digits and a power of ten are a text of the number they denote. -/
theorem exists_text_of_ofDecimal? {negative : Bool} {digits : Nat} {k : ℤ} {y : Double}
    (hdigits : digits ≤ greatestLead) (hy : Double.ofDecimal? negative digits k = some y) :
    ∃ cs, SpellsNumber (.real y) cs := by
  obtain ⟨power, hpower⟩ := exists_exponentText k
  refine ⟨_, ⟨negative, Nat.toDigits 10 digits, [], some k⟩,
    ⟨wholeDigits_toDigits digits, [], power, .absent, hpower, rfl⟩, ?_⟩
  simp [NumberText.value?, takeLead_toDigits hdigits, takeLead, hy]

end Json

/-- **Every finite 32-bit number has a text** that is read as a number which is rounded to it. -/
theorem Single.exists_text {x : Single} {m : Scaled} (h : x.finite? = some m) :
    ∃ n cs, Json.SpellsNumber n cs ∧ n.toSingle = x := by
  obtain ⟨digits, k, y, hdigits, hy, hx⟩ := exists_ofDecimal? h
  obtain ⟨cs, hcs⟩ := Json.exists_text_of_ofDecimal? hdigits hy
  exact ⟨.real y, cs, hcs, hx⟩

end DrawStream
