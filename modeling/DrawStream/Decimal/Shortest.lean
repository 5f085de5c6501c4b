import DrawStream.Binary.Rounding

/-! # The shortest decimal that reads back as a given binary number

Around a number of a binary format lies the interval of quotients that round to
it; its ends belong to it exactly if the mantissa is even.  For 1, 2, … digits in
turn, `shortest` looks at the two neighbours of the number on the grid of
decimals with that many digits.  The first grid with a neighbour inside the
interval wins, and of two neighbours the nearer one; a `Tie` says which of two
equally near ones. -/
namespace DrawStream

/-- The decimal `digits * 10 ^ exponent`. -/
structure Decimal where
  digits : Nat
  exponent : Int
  deriving DecidableEq, Repr

namespace Decimal
open Binary

/-- Which of two equally near neighbours is taken. -/
inductive Tie
  /-- The greater one. -/
  | up
  /-- The one with the even last digit. -/
  | even
  deriving DecidableEq, Repr

/-- Whether the neighbour below, with digits `q`, is taken when `r / d` is how far the
number lies above it. -/
def Tie.staysBelow (t : Tie) (q r d : Nat) : Bool :=
  if 2 * r = d then t = .even && q % 2 = 0 else 2 * r < d

/-- How many decimal digits `n` has; none for 0. -/
def digitCount (n : Nat) : Nat := if n = 0 then 0 else (Nat.toDigits 10 n).length

/-- The integer part of the decimal logarithm of `n / d`, for positive `n` and `d`. -/
def floorLog10 (n d : Nat) : Int :=
  if d ≤ n then (digitCount (n / d) : Int) - 1
  else -(digitCount ((d + n - 1) / n - 1) : Int)

/-- The interval of what rounds to a number, in quarters of the number's unit. -/
structure Interval where
  low : Nat
  mid : Nat
  high : Nat
  closed : Bool
  deriving Repr

/-- The interval around `x`; below a power of two the neighbour is half as far. -/
def Interval.around (f : Format) (x : Scaled) : Interval :=
  let narrow := x.mantissa = Nat.pow 2 (f.precision - 1) ∧ f.minExponent < x.exponent
  ⟨4 * x.mantissa - (if narrow then 1 else 2), 4 * x.mantissa, 4 * x.mantissa + 2,
    x.mantissa % 2 = 0⟩

/-- The decimal lies in the interval whose quarter unit is `2 ^ e`. -/
def Interval.holds (i : Interval) (e : Int) (c : Decimal) : Bool :=
  let n := c.digits * Nat.pow 10 c.exponent.toNat * Nat.pow 2 (-e).toNat
  let d := Nat.pow 10 (-c.exponent).toNat * Nat.pow 2 e.toNat
  if i.closed then i.low * d ≤ n && n ≤ i.high * d else i.low * d < n && n < i.high * d

/-- The better of a number's two neighbours on the grid of `10 ^ k`, if one will do. -/
def onGrid (f : Format) (t : Tie) (x : Scaled) (k : Int) : Option Decimal :=
  let i := Interval.around f x
  let e := x.exponent - 2
  let n := x.num * Nat.pow 10 (-k).toNat
  let d := x.den * Nat.pow 10 k.toNat
  let below : Decimal := ⟨n / d, k⟩
  let above : Decimal := ⟨n / d + 1, k⟩
  match i.holds e below, i.holds e above with
  | true, true => some (if t.staysBelow (n / d) (n % d) d then below else above)
  | true, false => some below
  | false, true => some above
  | false, false => none

/-- Tries ever finer grids, from `k` downward. -/
def search (f : Format) (t : Tie) (x : Scaled) : Nat → Int → Decimal
  | 0, k => ⟨x.num * Nat.pow 10 (-k).toNat / (x.den * Nat.pow 10 k.toNat), k⟩
  | steps + 1, k => (onGrid f t x k).getD (search f t x steps (k - 1))

/-- Seventeen digits always tell two doubles apart. -/
def maxDigits : Nat := 17

/-- The shortest decimal that reads back as the positive number `x`. -/
def shortest (f : Format) (t : Tie) (x : Scaled) : Decimal :=
  search f t x maxDigits (floorLog10 x.num x.den)

end Decimal
end DrawStream
