import DrawStream.Binary.Rounding
import Mathlib.Algebra.Order.Archimedean.Basic
import Mathlib.Algebra.Order.Field.Power
import Mathlib.Algebra.Order.Ring.Rat
import Mathlib.Tactic.FieldSimp
import Mathlib.Tactic.Linarith
import Mathlib.Tactic.Positivity
import Mathlib.Tactic.Ring

/-! # How far rounding goes

`Format.round` works on natural numbers.  Here its result is compared with the quotient it
rounds, as rational numbers.  Away from the ends of the range of the format the two differ by
at most half a unit (`Format.round_near`).  Conversely, a quotient that is less than a
quarter of a unit away from a number of the format is rounded to just that number
(`Format.round_eq_of_near`).

Errors are counted relative to the exact value (`Near`), so that they add up over the steps
of a computation. -/
namespace DrawStream.Binary

/-! ### Relative errors -/

/-- The value `y` is off from `v` by at most the part `ε` of it. -/
def Near (ε y v : ℚ) : Prop := |y - v| ≤ v * ε

namespace Near
variable {ε δ y z v w : ℚ}

theorem mono (h : Near ε y v) (hε : ε ≤ δ) (hv : 0 ≤ v) : Near δ y v :=
  h.trans (mul_le_mul_of_nonneg_left hε hv)

theorem le (h : Near ε y v) : y ≤ v * (1 + ε) := by
  have := (abs_le.1 h).2
  linarith

theorem ge (h : Near ε y v) : v * (1 - ε) ≤ y := by
  have := (abs_le.1 h).1
  linarith

theorem pos (h : Near ε y v) (hv : 0 < v) (hε : ε < 1) : 0 < y :=
  (mul_pos hv (sub_pos.2 hε)).trans_le h.ge

theorem trans (hz : Near ε z y) (hy : Near δ y v) (hε : 0 ≤ ε) :
    Near (ε + δ + ε * δ) z v :=
  calc |z - v| ≤ |z - y| + |y - v| := abs_sub_le z y v
    _ ≤ y * ε + v * δ := add_le_add hz hy
    _ ≤ v * (1 + δ) * ε + v * δ := by
      have := mul_le_mul_of_nonneg_right hy.le hε
      linarith
    _ = v * (ε + δ + ε * δ) := by ring

theorem mul (hy : Near ε y v) (hz : Near δ z w) (hv : 0 ≤ v) (hw : 0 ≤ w) (hε : 0 ≤ ε) :
    Near (ε + δ + ε * δ) (y * z) (v * w) :=
  calc |y * z - v * w| = |(y - v) * (z - w) + (y - v) * w + v * (z - w)| := by congr 1; ring
    _ ≤ |(y - v) * (z - w)| + |(y - v) * w| + |v * (z - w)| := abs_add_three _ _ _
    _ = |y - v| * |z - w| + |y - v| * w + v * |z - w| := by
      rw [abs_mul, abs_mul, abs_mul, abs_of_nonneg hw, abs_of_nonneg hv]
    _ ≤ v * ε * (w * δ) + v * ε * w + v * (w * δ) := by
      have := mul_le_mul hy hz (abs_nonneg _) (mul_nonneg hv hε)
      have := mul_le_mul_of_nonneg_right hy hw
      have := mul_le_mul_of_nonneg_left hz hv
      linarith
    _ = v * w * (ε + δ + ε * δ) := by ring

/-- The error of a reciprocal, for errors up to one half. -/
theorem inv (hy : Near ε y v) (hv : 0 < v) (hε : 0 ≤ ε) (hhalf : ε ≤ 1 / 2) :
    Near (2 * ε) y⁻¹ v⁻¹ := by
  have hlow : v / 2 ≤ y := by
    have := hy.ge
    have := mul_le_mul_of_nonneg_left hhalf hv.le
    linarith
  have hpos : 0 < y := hy.pos hv (by linarith)
  have habs : |y⁻¹ * v⁻¹| = y⁻¹ * v⁻¹ := abs_of_pos (by positivity)
  calc |y⁻¹ - v⁻¹| = |(v - y) * (y⁻¹ * v⁻¹)| := by congr 1; field_simp
    _ = |y - v| * (y⁻¹ * v⁻¹) := by rw [abs_mul, abs_sub_comm, habs]
    _ ≤ v * ε * (y⁻¹ * v⁻¹) := mul_le_mul_of_nonneg_right hy (by positivity)
    _ = ε * y⁻¹ := by field_simp
    _ ≤ ε * (v / 2)⁻¹ := mul_le_mul_of_nonneg_left (inv_anti₀ (by linarith) hlow) hε
    _ = v⁻¹ * (2 * ε) := by field_simp

end Near

/-! ### Values -/

/-- The number as a rational one. -/
def Scaled.value (x : Scaled) : ℚ := x.mantissa * 2 ^ x.exponent

theorem cast_pow_two (k : Nat) : ((Nat.pow 2 k : Nat) : ℚ) = 2 ^ k := by
  exact_mod_cast Nat.cast_pow 2 k

/-- An integer power of two, by its two natural exponents. -/
theorem zpow_two_toNat (e : Int) : (2 : ℚ) ^ e * 2 ^ (-e).toNat = 2 ^ e.toNat := by
  rw [← zpow_natCast (2 : ℚ) (-e).toNat, ← zpow_natCast (2 : ℚ) e.toNat,
    ← zpow_add₀ (two_ne_zero' ℚ)]
  congr 1
  omega

theorem zpow_two_pos (e : Int) : (0 : ℚ) < 2 ^ e := zpow_pos two_pos e

theorem Scaled.value_eq (x : Scaled) : (x.num : ℚ) / x.den = x.value := by
  have hpos : (0 : ℚ) < 2 ^ (-x.exponent).toNat := by positivity
  unfold num den value
  push_cast [cast_pow_two]
  rw [← zpow_two_toNat x.exponent]
  field_simp

theorem Scaled.den_pos (x : Scaled) : 0 < x.den := Nat.two_pow_pos _

/-! ### Quotients -/

/-- A quotient is rounded by at most one half. -/
theorem divRoundEven_error (n : Nat) {d : Nat} (hd : 0 < d) :
    |(divRoundEven n d : ℚ) - n / d| ≤ 1 / 2 := by
  have hspec : 2 * (d * divRoundEven n d) ≤ 2 * n + d ∧
      2 * n ≤ 2 * (d * divRoundEven n d) + d := by
    have hn := Nat.div_add_mod n d
    have hr := Nat.mod_lt n hd
    have hodd : d * (n / d % 2) ≤ d := by
      simpa using Nat.mul_le_mul_left d (Nat.le_of_lt_succ (Nat.mod_lt (n / d) two_pos))
    unfold divRoundEven
    dsimp only
    split
    · omega
    · split <;> rw [Nat.mul_add] <;> omega
  have hd' : (0 : ℚ) < d := by exact_mod_cast hd
  have hlow : (2 : ℚ) * (d * divRoundEven n d) ≤ 2 * n + d := by exact_mod_cast hspec.1
  have hhigh : (2 : ℚ) * n ≤ 2 * (d * divRoundEven n d) + d := by exact_mod_cast hspec.2
  rw [abs_le, neg_le_sub_iff_le_add, sub_le_iff_le_add, div_le_iff₀ hd', ← sub_le_iff_le_add',
    le_div_iff₀ hd']
  constructor <;> linarith

/-- Powers of two, compared across a quotient. -/
theorem mul_pow_toNat_lt_iff {n d : Nat} (hd : 0 < d) (k : Int) :
    n * Nat.pow 2 (-k).toNat < d * Nat.pow 2 k.toNat ↔ (n : ℚ) / d < 2 ^ k := by
  have hd' : (0 : ℚ) < d := by exact_mod_cast hd
  have hpos : (0 : ℚ) < 2 ^ (-k).toNat := by positivity
  have hcast : n * Nat.pow 2 (-k).toNat < d * Nat.pow 2 k.toNat ↔
      (n : ℚ) * 2 ^ (-k).toNat < d * 2 ^ k.toNat := by
    rw [← cast_pow_two, ← cast_pow_two]
    exact_mod_cast Iff.rfl
  rw [hcast, ← zpow_two_toNat k, ← mul_assoc, mul_lt_mul_iff_left₀ hpos, div_lt_iff₀' hd']

/-- The logarithm is the power of two next below. -/
theorem floorLog2_spec {n d : Nat} (hn : 0 < n) (hd : 0 < d) :
    (2 : ℚ) ^ floorLog2 n d ≤ n / d ∧ (n : ℚ) / d < 2 ^ (floorLog2 n d + 1) := by
  have hd' : (0 : ℚ) < d := by exact_mod_cast hd
  have hnlow : (2 : ℚ) ^ (n.log2 : Int) ≤ n := by exact_mod_cast Nat.log2_self_le hn.ne'
  have hnhigh : (n : ℚ) < 2 ^ ((n.log2 : Int) + 1) := by exact_mod_cast Nat.lt_log2_self
  have hdlow : (2 : ℚ) ^ (d.log2 : Int) ≤ d := by exact_mod_cast Nat.log2_self_le hd.ne'
  have hdhigh : (d : ℚ) < 2 ^ ((d.log2 : Int) + 1) := by exact_mod_cast Nat.lt_log2_self
  have hlow : (2 : ℚ) ^ ((n.log2 : Int) - d.log2 - 1) ≤ n / d := by
    rw [le_div_iff₀ hd']
    calc (2 : ℚ) ^ ((n.log2 : Int) - d.log2 - 1) * d
        ≤ 2 ^ ((n.log2 : Int) - d.log2 - 1) * 2 ^ ((d.log2 : Int) + 1) :=
          mul_le_mul_of_nonneg_left hdhigh.le (zpow_two_pos _).le
      _ = 2 ^ (n.log2 : Int) := by rw [← zpow_add₀ two_ne_zero]; congr 1; ring
      _ ≤ n := hnlow
  have hhigh : (n : ℚ) / d < 2 ^ ((n.log2 : Int) - d.log2 + 1) := by
    rw [div_lt_iff₀ hd']
    calc (n : ℚ) < 2 ^ ((n.log2 : Int) + 1) := hnhigh
      _ = 2 ^ ((n.log2 : Int) - d.log2 + 1) * 2 ^ (d.log2 : Int) := by
        rw [← zpow_add₀ two_ne_zero]; congr 1; ring
      _ ≤ 2 ^ ((n.log2 : Int) - d.log2 + 1) * d :=
        mul_le_mul_of_nonneg_left hdlow (zpow_two_pos _).le
  unfold floorLog2
  dsimp only
  split
  · next h => exact ⟨hlow, by simpa using (mul_pow_toNat_lt_iff hd _).1 h⟩
  · next h => exact ⟨not_lt.1 fun hlt => h ((mul_pow_toNat_lt_iff hd _).2 hlt), hhigh⟩

/-- Below a power of two, so is the logarithm. -/
theorem floorLog2_lt {n d : Nat} (hn : 0 < n) (hd : 0 < d) {k : Int} :
    floorLog2 n d < k ↔ (n : ℚ) / d < 2 ^ k := by
  obtain ⟨hlow, hhigh⟩ := floorLog2_spec hn hd
  constructor
  · intro h
    exact hhigh.trans_le (zpow_le_zpow_right₀ one_le_two h)
  · intro h
    exact (zpow_lt_zpow_iff_right₀ one_lt_two).1 (hlow.trans_lt h)

/-! ### Rounding to a format -/

/-- The quotient in units of `2 ^ e`, rounded. -/
def inUnits (n d : Nat) (e : Int) : Nat :=
  divRoundEven (n * Nat.pow 2 (-e).toNat) (d * Nat.pow 2 e.toNat)

theorem inUnits_error (n : Nat) {d : Nat} (hd : 0 < d) (e : Int) :
    |(inUnits n d e : ℚ) * 2 ^ e - n / d| ≤ 2 ^ e / 2 := by
  have hd' : (0 : ℚ) < d := by exact_mod_cast hd
  have h2 := zpow_two_pos e
  have hpos : (0 : ℚ) < 2 ^ (-e).toNat := by positivity
  have hunits : ((n * Nat.pow 2 (-e).toNat : Nat) : ℚ) / ((d * Nat.pow 2 e.toNat : Nat) : ℚ) =
      n / d / 2 ^ e := by
    push_cast [cast_pow_two]
    rw [← zpow_two_toNat e]
    field_simp
  have hden : 0 < d * Nat.pow 2 e.toNat := Nat.mul_pos hd (Nat.two_pow_pos _)
  have herror : |(inUnits n d e : ℚ) - n / d / 2 ^ e| ≤ 1 / 2 := by
    rw [← hunits]
    exact divRoundEven_error _ hden
  calc |(inUnits n d e : ℚ) * 2 ^ e - n / d|
      = |((inUnits n d e : ℚ) - n / d / 2 ^ e) * 2 ^ e| := by congr 1; field_simp
    _ = |(inUnits n d e : ℚ) - n / d / 2 ^ e| * 2 ^ e := by rw [abs_mul, abs_of_pos h2]
    _ ≤ 1 / 2 * 2 ^ e := mul_le_mul_of_nonneg_right herror h2.le
    _ = 2 ^ e / 2 := by ring

/-- A number of the format: it has the exponent that `round` gives it. -/
structure Format.Holds (f : Format) (x : Scaled) : Prop where
  fits : x.mantissa < 2 ^ f.precision
  full : 2 ^ f.precision ≤ 2 * x.mantissa ∨ x.exponent = f.minExponent
  least : f.minExponent ≤ x.exponent
  greatest : x.exponent ≤ f.maxExponent

namespace Format
variable {f : Format} {n d : Nat}

/-- So many units; a mantissa that has become too long is carried into the exponent. -/
def carried (f : Format) (units : Nat) (e : Int) : Scaled :=
  if units = 2 ^ f.precision then ⟨2 ^ (f.precision - 1), e + 1⟩ else ⟨units, e⟩

theorem carried_value (hp : 0 < f.precision) (units : Nat) (e : Int) :
    (f.carried units e).value = units * 2 ^ e := by
  obtain ⟨p, hp⟩ : ∃ p, f.precision = p + 1 := ⟨f.precision - 1, by omega⟩
  unfold carried
  split
  · next hcarry =>
    simp only [Scaled.value, hcarry, hp, zpow_add_one₀ (two_ne_zero' ℚ), pow_succ,
      Nat.add_sub_cancel]
    push_cast
    ring
  · rfl

theorem carried_exponent_le (units : Nat) (e : Int) : (f.carried units e).exponent ≤ e + 1 := by
  unfold carried
  split <;> dsimp only <;> omega

/-- What `round` gives, if it is in range. -/
theorem round_of_pos (hn : 0 < n) {e : Int} (he : f.unitExponent n d = e)
    (hmax : (f.carried (inUnits n d e) e).exponent ≤ f.maxExponent) :
    f.round n d = some (f.carried (inUnits n d e) e) := by
  subst he
  unfold round
  rw [if_neg hn.ne']
  exact if_pos hmax

/-- **Rounding moves by half a unit at most.**  The quotient is not below the normal numbers
of the format, and not among the largest. -/
theorem round_near (hp : 0 < f.precision) (hd : 0 < d)
    (hlow : (2 : ℚ) ^ (f.minExponent + (f.precision - 1)) ≤ n / d)
    (hhigh : (n : ℚ) / d < 2 ^ (f.maxExponent + (f.precision - 1))) :
    ∃ y, f.round n d = some y ∧ Near (2 ^ (-f.precision : Int)) y.value (n / d) := by
  have hn : 0 < n := by
    by_contra h
    obtain rfl : n = 0 := by omega
    exact absurd hlow (by simpa using zpow_two_pos _)
  have hleast : f.minExponent + (f.precision - 1) ≤ floorLog2 n d :=
    not_lt.1 fun h => absurd ((floorLog2_lt hn hd).1 h) (not_lt.2 hlow)
  have hgreatest := (floorLog2_lt hn hd).2 hhigh
  obtain ⟨e, hlog⟩ : ∃ e, floorLog2 n d = e + (f.precision - 1) :=
    ⟨floorLog2 n d - (f.precision - 1), by omega⟩
  have he : f.unitExponent n d = e := by
    rw [unitExponent]
    omega
  have hmax := f.carried_exponent_le (inUnits n d e) e
  refine ⟨_, round_of_pos hn he (by omega), ?_⟩
  rw [carried_value hp, Near]
  calc |(inUnits n d e : ℚ) * 2 ^ e - n / d| ≤ 2 ^ e / 2 := inUnits_error n hd e
    _ = 2 ^ floorLog2 n d * 2 ^ (-f.precision : Int) := by
      rw [← zpow_add₀ two_ne_zero, div_eq_mul_inv, ← zpow_sub_one₀ two_ne_zero, hlog]
      congr 1
      ring
    _ ≤ n / d * 2 ^ (-f.precision : Int) :=
      mul_le_mul_of_nonneg_right (floorLog2_spec hn hd).1 (zpow_two_pos _).le

/-- Next to a number of the format, its unit is the one that is rounded to; only right below
a power of two it may be the next smaller one. -/
theorem unitExponent_of_near {x : Scaled} (hx : f.Holds x) (hpos : 0 < x.mantissa)
    (hn : 0 < n) (hd : 0 < d) (hnear : |(n : ℚ) / d - x.value| < 2 ^ x.exponent / 4) :
    f.unitExponent n d = x.exponent ∨
      f.unitExponent n d + 1 = x.exponent ∧ 2 * x.mantissa = 2 ^ f.precision := by
  obtain ⟨m, e⟩ := x
  obtain ⟨hlow, hhigh⟩ := abs_sub_lt_iff.1 hnear
  obtain ⟨hfits, hfull, hleast, -⟩ := hx
  simp only [Scaled.value] at hlow hhigh hfits hfull hleast ⊢
  have h2 := zpow_two_pos e
  have hfits : (m : ℚ) + 1 ≤ 2 ^ f.precision := by exact_mod_cast hfits
  have hlt : floorLog2 n d < f.precision + e := by
    rw [floorLog2_lt hn hd, zpow_add₀ two_ne_zero, zpow_natCast]
    calc (n : ℚ) / d < (m + 1) * 2 ^ e := by linarith
      _ ≤ 2 ^ f.precision * 2 ^ e := mul_le_mul_of_nonneg_right hfits h2.le
  -- how far up the quotient is, given a bound for the mantissa
  have hge {k : ℤ} (hk : (2 : ℚ) ^ k ≤ m - 1 / 4) : k + e ≤ floorLog2 n d := by
    by_contra h
    have hlog := (floorLog2_lt hn hd).1 (not_le.1 h)
    rw [zpow_add₀ two_ne_zero] at hlog
    have hm := mul_le_mul_of_nonneg_right hk h2.le
    linarith
  rcases hfull with hfull | hfull
  · have hone : (1 : ℚ) ≤ 2 ^ f.precision := one_le_pow₀ one_le_two
    have hhalf : (2 : ℚ) ^ ((f.precision : ℤ) - 1) = 2 ^ f.precision / 2 := by
      rw [zpow_sub_one₀ two_ne_zero, zpow_natCast, div_eq_mul_inv]
    rcases hfull.eq_or_lt with hpower | hmore
    · have hm : (2 : ℚ) ^ f.precision = 2 * m := by exact_mod_cast hpower
      have hlog := hge (k := (f.precision : ℤ) - 1 - 1) (by
        rw [zpow_sub_one₀ two_ne_zero, hhalf]
        linarith)
      rw [unitExponent]
      omega
    · have hm : (2 : ℚ) ^ f.precision + 1 ≤ 2 * m := by exact_mod_cast hmore
      have hlog := hge (k := (f.precision : ℤ) - 1) (by rw [hhalf]; linarith)
      rw [unitExponent]
      omega
  · rw [unitExponent]
    omega

/-- Numbers less than a unit apart are equal. -/
theorem eq_of_units {a b : Nat} {e : Int} (h : |(a : ℚ) * 2 ^ e - b * 2 ^ e| < 2 ^ e) : a = b := by
  have h2 := zpow_two_pos e
  rw [← sub_mul, abs_mul, abs_of_pos h2] at h
  have hlt : |(a : ℚ) - b| < 1 := lt_of_mul_lt_mul_right (by simpa using h) h2.le
  have hz : |(a : ℤ) - b| < 1 := by exact_mod_cast hlt
  rw [Int.abs_lt_one_iff] at hz
  omega

/-- What is rounded to that unit is the number. -/
theorem carried_of_near {x : Scaled} (hx : f.Holds x) (hpos : 0 < x.mantissa) {e : Int} {q : Nat}
    (hunit : e = x.exponent ∨ e + 1 = x.exponent ∧ 2 * x.mantissa = 2 ^ f.precision)
    (hnear : |(q : ℚ) * 2 ^ e - x.value| < 2 ^ e / 2 + 2 ^ x.exponent / 4) :
    f.carried q e = x := by
  obtain ⟨m, _⟩ := x
  rcases hunit with rfl | ⟨rfl, hpower⟩
  · have h2 := zpow_two_pos e
    have hq : q = m := eq_of_units (hnear.trans_le (by dsimp only; linarith))
    rw [carried, if_neg (by rw [hq]; exact hx.fits.ne), hq]
  · have hdouble : (2 : ℚ) ^ (e + 1) = 2 * 2 ^ e := by
      rw [zpow_add_one₀ two_ne_zero, mul_comm]
    have hq : q = 2 * m := by
      refine eq_of_units (e := e) ?_
      rw [Scaled.value, hdouble] at hnear
      push_cast
      convert hnear using 2 <;> ring
    have hm : 2 ^ (f.precision - 1) = m := by
      obtain ⟨p, hp⟩ : ∃ p, f.precision = p + 1 :=
        Nat.exists_eq_succ_of_ne_zero fun h => by rw [h, pow_zero] at hpower; omega
      simp only [hp, pow_succ] at hpower
      rw [hp, Nat.add_sub_cancel]
      omega
    rw [carried, if_pos (by rw [hq, hpower]), hm]

/-- **A quotient next to a number of the format is rounded to it.** -/
theorem round_eq_of_near {x : Scaled} (hx : f.Holds x) (hpos : 0 < x.mantissa) (hd : 0 < d)
    (hnear : |(n : ℚ) / d - x.value| < 2 ^ x.exponent / 4) : f.round n d = some x := by
  have hn : 0 < n := by
    by_contra h
    obtain rfl : n = 0 := by omega
    have h2 := zpow_two_pos x.exponent
    have hm : (1 : ℚ) ≤ x.mantissa := by exact_mod_cast hpos
    have hx : 1 * 2 ^ x.exponent ≤ x.value := mul_le_mul_of_nonneg_right hm h2.le
    rw [Nat.cast_zero, zero_div, zero_sub, abs_neg] at hnear
    have hle := le_abs_self x.value
    linarith
  have hunit := unitExponent_of_near hx hpos hn hd hnear
  obtain ⟨e, he⟩ : ∃ e, f.unitExponent n d = e := ⟨_, rfl⟩
  rw [he] at hunit
  have hsum : |(inUnits n d e : ℚ) * 2 ^ e - x.value| < 2 ^ e / 2 + 2 ^ x.exponent / 4 :=
    (abs_sub_le _ ((n : ℚ) / d) _).trans_lt
      (add_lt_add_of_le_of_lt (inUnits_error n hd e) hnear)
  have hcarried := carried_of_near hx hpos hunit hsum
  rw [← hcarried]
  exact round_of_pos hn he (by rw [hcarried]; exact hx.greatest)

end Format

end DrawStream.Binary
