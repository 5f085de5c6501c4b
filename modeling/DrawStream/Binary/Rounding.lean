/-! # Rounding to binary floating-point numbers, in exact natural-number arithmetic

A number of a format is `mantissa * 2 ^ exponent`, where the mantissa has at most
`precision` bits and the exponent stays between two bounds.  `Format.round` takes
a quotient of natural numbers to the nearest number of the format; of two equally
near ones it takes the one with the even mantissa.  What would need a larger
exponent than the format has is no number of it (`none`). -/
namespace DrawStream.Binary

/-- A binary floating-point format. -/
structure Format where
  /-- Bits of the mantissa. -/
  precision : Nat
  /-- Exponent of the unit of the smallest numbers. -/
  minExponent : Int
  /-- Exponent of the unit of the largest numbers. -/
  maxExponent : Int
  deriving DecidableEq, Repr

/-- Numbers of 32 bits. -/
def Format.single : Format := ⟨24, -149, 104⟩

/-- Numbers of 64 bits. -/
def Format.double : Format := ⟨53, -1074, 971⟩

/-- The number `mantissa * 2 ^ exponent`. -/
structure Scaled where
  mantissa : Nat
  exponent : Int
  deriving DecidableEq, Repr

namespace Scaled

/-- The numerator of the value as a quotient. -/
def num (x : Scaled) : Nat := x.mantissa * Nat.pow 2 x.exponent.toNat

/-- The denominator of the value as a quotient. -/
def den (x : Scaled) : Nat := Nat.pow 2 (-x.exponent).toNat

end Scaled

/-- The quotient to the nearest natural number, a half to the even neighbour. -/
def divRoundEven (n d : Nat) : Nat :=
  let q := n / d
  let r := n % d
  if 2 * r < d then q else if d < 2 * r then q + 1 else q + q % 2

/-- The integer part of the binary logarithm of `n / d`, for positive `n` and `d`. -/
def floorLog2 (n d : Nat) : Int :=
  let k : Int := (Nat.log2 n : Int) - Nat.log2 d
  if n * Nat.pow 2 (-k).toNat < d * Nat.pow 2 k.toNat then k - 1 else k

/-- The exponent of the unit that `n / d` is rounded to. -/
def Format.unitExponent (f : Format) (n d : Nat) : Int :=
  max f.minExponent (floorLog2 n d - (f.precision - 1))

/-- The number of the format nearest to `n / d`. -/
def Format.round (f : Format) (n d : Nat) : Option Scaled :=
  if n = 0 then some ⟨0, f.minExponent⟩
  else
    let e := f.unitExponent n d
    let q := divRoundEven (n * Nat.pow 2 (-e).toNat) (d * Nat.pow 2 e.toNat)
    let x : Scaled :=
      if q = Nat.pow 2 f.precision then ⟨Nat.pow 2 (f.precision - 1), e + 1⟩ else ⟨q, e⟩
    if x.exponent ≤ f.maxExponent then some x else none

end DrawStream.Binary
