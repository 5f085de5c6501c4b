import DrawStream.Binary.Rounding

/-! # Finite numbers of 64 bits, as decimal text denotes them

Text is read in two steps.  The leading digits, as many as fit 64 bits, become the
nearest double; then the power of ten that is left is applied to it by one
multiplication or division with the double nearest to that power (`scaleByTen`).
Powers below the least one are applied in strides of 308.  A result beyond the
largest double is refused. -/
namespace DrawStream

/-- A finite number of 64 bits: a sign and a magnitude. -/
structure Double where
  negative : Bool
  magnitude : Binary.Scaled
  deriving DecidableEq, Repr

namespace Double
open Binary

/-- The magnitude nearest to a natural number. -/
def nearest? (n : Nat) : Option Scaled := Format.double.round n 1

/-- The product, rounded. -/
def mul? (x y : Scaled) : Option Scaled :=
  Format.double.round (x.num * y.num) (x.den * y.den)

/-- The quotient, rounded. -/
def div? (x y : Scaled) : Option Scaled :=
  Format.double.round (x.num * y.den) (x.den * y.num)

/-- The largest power of ten below which a double is nearest to it. -/
def stride : Nat := 308

/-- Divides by powers of ten, `strides` times by the largest one and then by what is left. -/
def shrink (x : Scaled) (left : Nat) : Nat → Option Scaled
  | 0 => do div? x (← nearest? (Nat.pow 10 left))
  | strides + 1 => do
    if x.mantissa = 0 then return x
    shrink (← div? x (← nearest? (Nat.pow 10 stride))) left strides

/-- The magnitude times a power of ten, in the rounding steps described above. -/
def scaleByTen (x : Scaled) (exponent : Int) : Option Scaled :=
  if 0 ≤ exponent then
    if exponent ≤ stride then do mul? x (← nearest? (Nat.pow 10 exponent.toNat))
    else if x.mantissa = 0 then some x else none
  else
    let n := (-exponent).toNat
    -- an exponent that is a multiple of the stride ends with a full last step
    let strides := (n - 1) / stride
    shrink x (n - strides * stride) strides

/-- The number that digits and a power of ten denote, if it is in range. -/
def ofDecimal? (negative : Bool) (digits : Nat) (exponent : Int) : Option Double := do
  return ⟨negative, ← scaleByTen (← nearest? digits) exponent⟩

/-- Whether a decimal number is so large that no double is nearest to it.  The count of
digits settles it except near the largest double. -/
def isBeyond (digits : Nat) (exponent : Int) : Bool :=
  let magnitude := (Nat.toDigits 10 digits).length + exponent
  if digits = 0 || magnitude < 300 then false
  else if 310 < magnitude then true
  else
    (Format.double.round (digits * Nat.pow 10 exponent.toNat)
      (Nat.pow 10 (-exponent).toNat)).isNone

end Double
end DrawStream
