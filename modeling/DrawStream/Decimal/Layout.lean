import DrawStream.Decimal.Shortest
import DrawStream.Binary.Single

/-! # How floating-point numbers are written in messages and descriptions

Both texts use the shortest digits that read back.  A number of moderate size is
written positionally, with `.0` when it is whole, any other one with an exponent.
What counts as moderate and how the exponent is written is what a `Layout` records. -/
namespace DrawStream.Decimal
open Binary

/-- The decisions of a text for numbers. -/
structure Layout where
  /-- Least exponent of the first digit that is written positionally. -/
  lowest : Int
  /-- Greatest exponent of the first digit that is written positionally. -/
  highest : Int
  /-- An exponent of 0 or more has a plus sign. -/
  plusSign : Bool
  /-- Which of two equally near decimals is written. -/
  tie : Tie
  deriving Repr

/-- Descriptions of 32-bit numbers: positional from 0.0001 to below 10^16, otherwise
as in `1e16` and `1.5e-7`; the greater of two equally near decimals. -/
def Layout.single : Layout := ⟨-4, 15, false, .up⟩

/-- Messages about 64-bit numbers: positional from 0.00001 to below 10^16, otherwise
as in `1e+16` and `1.5e-7`; the even one of two equally near decimals. -/
def Layout.double : Layout := ⟨-5, 15, true, .even⟩

/-- The digits of a decimal, first digit first, without zeros at the end. -/
def significant (c : Decimal) : List Char :=
  ((Nat.toDigits 10 c.digits).reverse.dropWhile (· == '0')).reverse

/-- The exponent of the first digit. -/
def leadingExponent (c : Decimal) : Int := c.exponent + digitCount c.digits - 1

/-- Digits with a point, as many places as they need and at least one. -/
def positional (digits : List Char) (exponent : Int) : List Char :=
  if 0 ≤ exponent then
    let whole := exponent.toNat + 1
    let padded := digits ++ List.replicate (whole - digits.length) '0'
    let fraction := padded.drop whole
    padded.take whole ++ '.' :: (if fraction.isEmpty then ['0'] else fraction)
  else
    '0' :: '.' :: (List.replicate (-exponent - 1).toNat '0' ++ digits)

/-- The text of an exponent. -/
def Layout.exponent (l : Layout) (x : Int) : List Char :=
  let digits := Nat.toDigits 10 x.natAbs
  let sign := if x < 0 then ['-'] else if l.plusSign then ['+'] else []
  'e' :: (sign ++ digits)

/-- One digit, the others behind a point, and the exponent. -/
def Layout.scientific (l : Layout) (digits : List Char) (exponent : Int) : List Char :=
  let body := match digits with
    | [] => ['0']
    | [d] => [d]
    | d :: rest => d :: '.' :: rest
  body ++ l.exponent exponent

/-- The text of a positive decimal. -/
def Layout.write (l : Layout) (c : Decimal) : List Char :=
  let x := leadingExponent c
  if l.lowest ≤ x ∧ x ≤ l.highest then positional (significant c) x
  else l.scientific (significant c) x

/-- The text of a finite number. -/
def Layout.finite (l : Layout) (f : Format) (negative : Bool) (x : Scaled) : String :=
  let body := if x.mantissa = 0 then ['0', '.', '0'] else l.write (shortest f l.tie x)
  String.ofList (if negative then '-' :: body else body)

end DrawStream.Decimal

namespace DrawStream

/-- The number as descriptions show it. -/
def Single.text (x : Single) : String :=
  match x.finite? with
  | some m => Decimal.Layout.single.finite .single x.negative m
  | none => if x.isNaN then "NaN" else if x.negative then "-inf" else "inf"

/-- The number as messages show it. -/
def Double.text (x : Double) : String :=
  Decimal.Layout.double.finite .double x.negative x.magnitude

end DrawStream
