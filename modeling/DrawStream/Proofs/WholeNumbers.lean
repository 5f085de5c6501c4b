import DrawStream.Binary.Single
import DrawStream.Proofs.Nearness

/-! # Whole numbers in 32 bits of floating point, and back

A 32-bit number has 24 bits of mantissa.  A whole number of more bits is rounded to the nearest
multiple of its unit (`Single.unitOf`), the power of two in which 24 bits are left; of two
equally near multiples, to the even one.  Back as a whole number of 32 bits it is that multiple,
except that the greatest ones are rounded up beyond the range and then cut to its end
(`Single.toInt_ofInt`).  So exactly the numbers of 24 bits, with any number of zeros behind them,
and the end of the range come back (`Single.keptWhole_eq_iff`). -/
namespace DrawStream
open Binary

/-! ## Rounded quotients -/

namespace Binary

theorem divRoundEven_one (n : Nat) : divRoundEven n 1 = n := by
  simp [divRoundEven, Nat.mod_one]

/-- Rounding keeps to whole bounds below. -/
theorem le_divRoundEven {n d b : Nat} (hd : 0 < d) (h : b * d ≤ n) : b ≤ divRoundEven n d := by
  have hquotient : b ≤ n / d := (Nat.le_div_iff_mul_le hd).mpr h
  unfold divRoundEven
  dsimp only
  split
  · exact hquotient
  · split <;> omega

/-- Rounding keeps to whole bounds above. -/
theorem divRoundEven_le {n d b : Nat} (hd : 0 < d) (h : n ≤ b * d) : divRoundEven n d ≤ b := by
  have hsum := Nat.div_add_mod n d
  rw [Nat.mul_comm] at h
  rcases Nat.lt_or_ge (n / d) b with hlt | hge
  · unfold divRoundEven
    dsimp only
    split
    · omega
    · split <;> omega
  · -- the quotient is the bound and nothing is left over
    have hmul : d * b ≤ d * (n / d) := Nat.mul_le_mul_left d hge
    have hrest : n % d = 0 := by omega
    have hquotient : n / d = b :=
      Nat.eq_of_mul_eq_mul_left hd (by omega)
    simp [divRoundEven, hrest, hd, hquotient]

theorem mul_divRoundEven_eq_iff {n d : Nat} (hd : 0 < d) : d * divRoundEven n d = n ↔ d ∣ n := by
  constructor
  · exact fun h => ⟨_, h.symm⟩
  · rintro ⟨q, rfl⟩
    simp [divRoundEven, hd]

/-- A rounded quotient is a nearest one; halfway between two, it is even. -/
theorem divRoundEven_nearest (n : Nat) {d : Nat} (hd : 0 < d) :
    2 * n ≤ 2 * (d * divRoundEven n d) + d ∧ 2 * (d * divRoundEven n d) ≤ 2 * n + d ∧
      ((2 * n = 2 * (d * divRoundEven n d) + d ∨ 2 * (d * divRoundEven n d) = 2 * n + d) →
        divRoundEven n d % 2 = 0) := by
  have hsum := Nat.div_add_mod n d
  have hrest := Nat.mod_lt n hd
  unfold divRoundEven
  dsimp only
  split
  · omega
  · split
    · rw [Nat.mul_add, Nat.mul_one]
      omega
    · rcases Nat.mod_two_eq_zero_or_one (n / d) with heven | hodd
      · rw [heven, Nat.add_zero]
        omega
      · rw [hodd, Nat.mul_add, Nat.mul_one]
        omega

/-- The logarithm of a whole number. -/
theorem floorLog2_one (n : Nat) (hn : 0 < n) : floorLog2 n 1 = n.log2 := by
  have hlow : ¬ n < 2 ^ n.log2 := Nat.not_lt.mpr (Nat.log2_self_le hn.ne')
  have hone : Nat.log2 1 = 0 := by decide
  simp [floorLog2, hone, hlow]

end Binary

/-! ## There -/

namespace Single

/-- The power of two in which 24 bits of a whole number are left. -/
def unitOf (n : Nat) : Nat := 2 ^ (n.log2 + 1 - 24)

/-- The multiple of the unit that a whole number is rounded to. -/
def roundedWhole (n : Nat) : Nat := unitOf n * divRoundEven n (unitOf n)

/-- What is left of a whole number once it has been a 32-bit number. -/
def keptWhole (n : Int) : Int := min greatestInt (n.sign * roundedWhole n.natAbs)

theorem unitOf_pos (n : Nat) : 0 < unitOf n := Nat.two_pow_pos _

/-- In its unit a number has 24 bits. -/
theorem lt_mul_unitOf (n : Nat) : n < 2 ^ 24 * unitOf n := by
  rw [unitOf, ← Nat.pow_add]
  calc n < 2 ^ (n.log2 + 1) := Nat.lt_log2_self
    _ ≤ 2 ^ (24 + (n.log2 + 1 - 24)) := Nat.pow_le_pow_right two_pos (by omega)

theorem unitOf_of_lt {n : Nat} (h : n < 2 ^ 24) : unitOf n = 1 := by
  rcases Nat.eq_zero_or_pos n with rfl | hpos
  · rfl
  · have hlog := (Nat.log2_lt hpos.ne').mpr h
    rw [unitOf, show n.log2 + 1 - 24 = 0 by omega, Nat.pow_zero]

/-- The unit divides the numbers of 24 bits, with any number of zeros behind them. -/
theorem unitOf_dvd_iff {n : Nat} : unitOf n ∣ n ↔ ∃ m k, m < 2 ^ 24 ∧ n = m * 2 ^ k := by
  constructor
  · rintro ⟨m, hm⟩
    refine ⟨m, n.log2 + 1 - 24, ?_, hm.trans (Nat.mul_comm _ _)⟩
    refine Nat.lt_of_mul_lt_mul_left (a := unitOf n) ?_
    calc unitOf n * m = n := hm.symm
      _ < 2 ^ 24 * unitOf n := lt_mul_unitOf n
      _ = unitOf n * 2 ^ 24 := Nat.mul_comm ..
  · rintro ⟨m, k, hm, rfl⟩
    rcases Nat.eq_zero_or_pos m with rfl | hpos
    · simp
    · have hlog : (m * 2 ^ k).log2 < 24 + k := by
        rw [Nat.log2_lt (by positivity), Nat.pow_add]
        exact Nat.mul_lt_mul_of_pos_right hm (Nat.two_pow_pos k)
      exact Dvd.dvd.mul_left (Nat.pow_dvd_pow 2 (by omega)) m

/-- Numbers of 24 bits are taken as they are, with zeros behind them. -/
theorem round_of_lt {n : Nat} (hpos : 0 < n) (hlt : n < 2 ^ 24) :
    Format.single.round n 1 = some ⟨n * 2 ^ (23 - n.log2), -((23 - n.log2 : Nat) : Int)⟩ ∧
      2 ^ 23 ≤ n * 2 ^ (23 - n.log2) ∧ n * 2 ^ (23 - n.log2) < 2 ^ 24 := by
  have hlog := (Nat.log2_lt hpos.ne').mpr hlt
  obtain ⟨s, hs⟩ : ∃ s, n.log2 + s = 23 := ⟨23 - n.log2, by omega⟩
  rw [show 23 - n.log2 = s by omega]
  have hlow : 2 ^ 23 ≤ n * 2 ^ s := by
    rw [← hs, Nat.pow_add]
    exact Nat.mul_le_mul_right _ (Nat.log2_self_le hpos.ne')
  have hhigh : n * 2 ^ s < 2 ^ 24 := by
    rw [show 24 = n.log2 + 1 + s by omega, Nat.pow_add]
    exact Nat.mul_lt_mul_of_pos_right Nat.lt_log2_self (Nat.two_pow_pos s)
  have hunits : inUnits n 1 (-(s : Int)) = n * 2 ^ s := by
    simp [inUnits, divRoundEven_one]
  have hunit : Format.single.unitExponent n 1 = -(s : Int) := by
    rw [Format.unitExponent, floorLog2_one n hpos]
    dsimp only [Format.single]
    omega
  have hcarried : Format.single.carried (n * 2 ^ s) (-(s : Int)) = ⟨n * 2 ^ s, -(s : Int)⟩ :=
    if_neg hhigh.ne
  refine ⟨?_, hlow, hhigh⟩
  rw [← hcarried, ← hunits]
  refine Format.round_of_pos hpos hunit ?_
  rw [hunits, hcarried]
  dsimp only [Format.single]
  omega

/-- What is rounded up to more than 24 bits has 24 bits in the next unit. -/
theorem holds_carried {q k : Nat} (hlow : 2 ^ 23 ≤ q) (hhigh : q ≤ 2 ^ 24) (hk : k ≤ 103) :
    Format.single.Holds (Format.single.carried q k) ∧
      0 ≤ (Format.single.carried q k).exponent ∧
      (Format.single.carried q k).num = q * 2 ^ k := by
  rcases hhigh.eq_or_lt with heq | hlt
  · have hcarried : Format.single.carried q k = ⟨2 ^ 23, (k : Int) + 1⟩ := if_pos heq
    have hnum : Scaled.num ⟨2 ^ 23, (k : Int) + 1⟩ = 2 ^ 24 * 2 ^ k := by
      rw [Scaled.num, show ((k : Int) + 1).toNat = k + 1 by omega, Nat.pow_eq, Nat.pow_succ]
      dsimp only
      omega
    rw [hcarried, heq]
    clear hlow hhigh heq
    refine ⟨⟨?_, .inl ?_, ?_, ?_⟩, Int.natCast_nonneg (k + 1), hnum⟩ <;>
      dsimp only [Format.single] <;> omega
  · have hcarried : Format.single.carried q k = ⟨q, (k : Int)⟩ := by
      refine if_neg ?_
      dsimp only [Format.single]
      omega
    rw [hcarried]
    refine ⟨⟨?_, .inl ?_, ?_, ?_⟩, Int.natCast_nonneg k, rfl⟩ <;> dsimp only [Format.single] <;>
      omega

/-- Greater numbers are rounded in their unit. -/
theorem round_of_le {n : Nat} (hle : 2 ^ 24 ≤ n) (hn : n ≤ 2 ^ 31) :
    ∃ x, Format.single.round n 1 = some x ∧ Format.single.Holds x ∧ 0 ≤ x.exponent ∧
      x.num = roundedWhole n := by
  have hpos : 0 < n := by omega
  have hlog : 23 < n.log2 := by
    by_contra h
    exact absurd ((Nat.log2_lt (k := 24) hpos.ne').mp (by omega)) (Nat.not_lt.mpr hle)
  have hlog' : n.log2 < 32 := (Nat.log2_lt hpos.ne').mpr (by omega)
  obtain ⟨k, hk⟩ : ∃ k, n.log2 = 23 + k := ⟨n.log2 - 23, by omega⟩
  have hunitOf : unitOf n = 2 ^ k := by rw [unitOf, hk, show 23 + k + 1 - 24 = k by omega]
  obtain ⟨q, hq⟩ : ∃ q, divRoundEven n (2 ^ k) = q := ⟨_, rfl⟩
  have hlow : 2 ^ 23 ≤ q := by
    rw [← hq]
    refine le_divRoundEven (Nat.two_pow_pos k) ?_
    rw [← Nat.pow_add, ← hk]
    exact Nat.log2_self_le hpos.ne'
  have hhigh : q ≤ 2 ^ 24 := by
    rw [← hq]
    exact divRoundEven_le (Nat.two_pow_pos k) (hunitOf ▸ (lt_mul_unitOf n).le)
  have hunits : inUnits n 1 (k : Int) = q := by
    simp [inUnits, hq]
  have hunit : Format.single.unitExponent n 1 = (k : Int) := by
    rw [Format.unitExponent, floorLog2_one n hpos]
    dsimp only [Format.single]
    omega
  have hvalue : roundedWhole n = q * 2 ^ k := by
    rw [roundedWhole, hunitOf, hq, Nat.mul_comm]
  obtain ⟨hholds, hexponent, hnum⟩ := holds_carried hlow hhigh (show k ≤ 103 by omega)
  refine ⟨_, ?_, hholds, hexponent, hnum.trans hvalue.symm⟩
  rw [← hunits]
  refine Format.round_of_pos hpos hunit ?_
  rw [hunits]
  exact hholds.greatest

/-- Every whole number of 32 bits is rounded in its unit. -/
theorem round_whole {n : Nat} (hpos : 0 < n) (hn : n ≤ 2 ^ 31) :
    ∃ x, Format.single.round n 1 = some x ∧ Format.single.Holds x ∧
      x.num / x.den = roundedWhole n := by
  rcases Nat.lt_or_ge n (2 ^ 24) with hlt | hle
  · obtain ⟨hround, hlow, hhigh⟩ := round_of_lt hpos hlt
    refine ⟨_, hround, ⟨hhigh, .inl ?_, ?_, ?_⟩, ?_⟩
    · dsimp only [Format.single]
      omega
    · dsimp only [Format.single]
      omega
    · dsimp only [Format.single]
      omega
    · rw [roundedWhole, unitOf_of_lt hlt, divRoundEven_one]
      simp [Scaled.num, Scaled.den]
  · obtain ⟨x, hround, hholds, hexponent, hnum⟩ := round_of_le hle hn
    refine ⟨x, hround, hholds, ?_⟩
    have hden : x.den = 1 := by
      rw [Scaled.den, show (-x.exponent).toNat = 0 by omega, Nat.pow_eq, Nat.pow_zero]
    rw [hden, hnum, Nat.div_one]

/-- Rounding stays within 32 bits, the end included. -/
theorem roundedWhole_le {n : Nat} (hn : n ≤ 2 ^ 31) : roundedWhole n ≤ 2 ^ 31 := by
  obtain ⟨k, hk, hunit⟩ : ∃ k ≤ 31, unitOf n = 2 ^ k := by
    refine ⟨n.log2 + 1 - 24, ?_, rfl⟩
    rcases Nat.eq_zero_or_pos n with rfl | hpos
    · decide
    · have hlog : n.log2 < 32 := (Nat.log2_lt hpos.ne').mpr (by omega)
      omega
  have hsplit : 2 ^ (31 - k) * 2 ^ k = 2 ^ 31 := by
    rw [← Nat.pow_add, Nat.sub_add_cancel hk]
  calc roundedWhole n = divRoundEven n (2 ^ k) * 2 ^ k := by rw [roundedWhole, hunit, Nat.mul_comm]
    _ ≤ 2 ^ (31 - k) * 2 ^ k :=
      Nat.mul_le_mul_right _ (divRoundEven_le (Nat.two_pow_pos k) (hsplit ▸ hn))
    _ = 2 ^ 31 := hsplit

/-! ## And back -/

/-- The bits of a finite number without that of the sign. -/
def magnitudeBits (m : Nat) (e : Int) : Nat :=
  if m < 0x800000 then m else (e + 150).toNat * 0x800000 + (m - 0x800000)

theorem magnitudeBits_lt {m : Nat} {e : Int} (h : Format.single.Holds ⟨m, e⟩) :
    magnitudeBits m e < 0xFF * 0x800000 := by
  obtain ⟨hfits, hfull, hleast, hgreatest⟩ := h
  dsimp only [Format.single] at hfits hfull hleast hgreatest
  unfold magnitudeBits
  split <;> omega

theorem bits_ofMagnitude {m : Nat} {e : Int} (h : Format.single.Holds ⟨m, e⟩)
    (negative : Bool) : (ofMagnitude negative (some ⟨m, e⟩)).bits.toNat =
      (if negative then 0x80000000 else 0) + magnitudeBits m e := by
  have hlt := magnitudeBits_lt h
  refine UInt32.toNat_ofNat_of_lt' ?_
  change (if negative then 0x80000000 else 0) + magnitudeBits m e < UInt32.size
  rw [UInt32.size]
  split <;> omega

theorem negative_ofMagnitude {x : Scaled} (h : Format.single.Holds x) (negative : Bool) :
    (ofMagnitude negative (some x)).negative = negative := by
  have hlt := magnitudeBits_lt h
  simp only [Single.negative, bits_ofMagnitude h]
  cases negative with
  | false =>
    simp only [Bool.false_eq_true, if_false, decide_eq_false_iff_not]
    omega
  | true =>
    simp only [if_true, decide_eq_true_eq]
    omega

/-- A number of the format is its bits. -/
theorem finite?_ofMagnitude {x : Scaled} (h : Format.single.Holds x) (negative : Bool) :
    (ofMagnitude negative (some x)).finite? = some x := by
  obtain ⟨m, e⟩ := x
  have hbits := bits_ofMagnitude h negative
  obtain ⟨hfits, hfull, hleast, hgreatest⟩ := h
  dsimp only [Format.single] at hfits hfull hleast hgreatest
  by_cases hsmall : m < 0x800000
  · rw [magnitudeBits, if_pos hsmall] at hbits
    have hfield : ((if negative then 0x80000000 else 0) + m) / 0x800000 % 0x100 = 0 := by
      split <;> omega
    have hfraction : ((if negative then 0x80000000 else 0) + m) % 0x800000 = m := by
      split <;> omega
    obtain rfl : e = -149 := hfull.resolve_left (by omega)
    simp only [finite?, exponentField, fraction, hbits, hfield, hfraction]
    rfl
  · rw [magnitudeBits, if_neg hsmall] at hbits
    have hfield : ((if negative then 0x80000000 else 0) +
        ((e + 150).toNat * 0x800000 + (m - 0x800000))) / 0x800000 % 0x100 = (e + 150).toNat := by
      split <;> omega
    have hfraction : ((if negative then 0x80000000 else 0) +
        ((e + 150).toNat * 0x800000 + (m - 0x800000))) % 0x800000 = m - 0x800000 := by
      split <;> omega
    simp only [finite?, exponentField, fraction, hbits, hfield, hfraction]
    rw [if_neg (by omega), if_neg (by omega), show 0x800000 + (m - 0x800000) = m by omega,
      show ((e + 150).toNat : Int) - 150 = e by omega]

/-- What comes back of a rounded whole number. -/
theorem toInt_ofMagnitude {x : Scaled} (h : Format.single.Holds x) (negative : Bool) :
    (ofMagnitude negative (some x)).toInt =
      max leastInt (min greatestInt (if negative then -((x.num / x.den : Nat) : Int)
        else ((x.num / x.den : Nat) : Int))) := by
  simp only [toInt, finite?_ofMagnitude h, negative_ofMagnitude h]

/-- **A whole number is rounded in its unit**, and cut to the range at its upper end. -/
theorem toInt_ofInt {n : Int} (hn : n.natAbs ≤ 2 ^ 31) : (ofInt n).toInt = keptWhole n := by
  rcases Nat.eq_zero_or_pos n.natAbs with hzero | hpos
  · rw [Int.natAbs_eq_zero.mp hzero]
    decide
  obtain ⟨x, hround, hholds, hvalue⟩ := round_whole hpos hn
  have hkept := roundedWhole_le hn
  rw [ofInt, hround, toInt_ofMagnitude hholds, hvalue, keptWhole]
  simp only [leastInt, greatestInt, decide_eq_true_eq]
  by_cases hneg : n < 0
  · rw [if_pos hneg, Int.sign_eq_neg_one_of_neg hneg]
    omega
  · rw [if_neg hneg, Int.sign_eq_one_of_pos (by omega)]
    omega

/-- What comes back is off by half a unit at most. -/
theorem keptWhole_near {n : Int} (hgreatest : n ≤ greatestInt) :
    2 * (keptWhole n - n).natAbs ≤ unitOf n.natAbs := by
  obtain ⟨hlow, hhigh, -⟩ := divRoundEven_nearest n.natAbs (unitOf_pos n.natAbs)
  change 2 * n.natAbs ≤ 2 * roundedWhole n.natAbs + _ at hlow
  change 2 * roundedWhole n.natAbs ≤ _ at hhigh
  have hsign : n.sign * n.natAbs = n := Int.sign_mul_natAbs n
  have hunit := unitOf_pos n.natAbs
  rw [keptWhole]
  rcases Int.lt_trichotomy n 0 with hneg | rfl | hpos
  · rw [Int.sign_eq_neg_one_of_neg hneg]
    omega
  · rw [Int.sign_zero]
    simp [greatestInt]
  · rw [Int.sign_eq_one_of_pos hpos]
    omega

/-- **What comes back is the number itself** for 24 bits with any number of zeros behind them, and
for the greatest number, which is rounded up and cut. -/
theorem keptWhole_eq_iff {n : Int} (hgreatest : n ≤ greatestInt) :
    keptWhole n = n ↔ (∃ m k, m < 2 ^ 24 ∧ n.natAbs = m * 2 ^ k) ∨ n = greatestInt := by
  rw [← unitOf_dvd_iff, ← mul_divRoundEven_eq_iff (unitOf_pos _)]
  change _ ↔ roundedWhole n.natAbs = n.natAbs ∨ n = greatestInt
  have hsign : n.sign * n.natAbs = n := Int.sign_mul_natAbs n
  constructor
  · intro h
    rcases min_choice greatestInt (n.sign * roundedWhole n.natAbs) with hmin | hmin
    · exact .inr (h.symm.trans hmin)
    · left
      rcases eq_or_ne n 0 with rfl | hne
      · decide
      · have heq : n.sign * (roundedWhole n.natAbs : Int) = n.sign * n.natAbs :=
          (hmin.symm.trans h).trans hsign.symm
        exact_mod_cast mul_left_cancel₀ (mt Int.sign_eq_zero_iff_zero.mp hne) heq
  · rintro (h | rfl)
    · rw [keptWhole, h, hsign]
      exact min_eq_right hgreatest
    · decide

end Single
end DrawStream
