import DrawStream.Binary.Double

/-! # Numbers of 32 bits, kept as their bits

The bits are what travels: `NaN`s keep their payload and zero keeps its sign.
`Single.finite?` gives the exact value of a finite number, and `toInt` cuts any
number to a whole one toward zero, inside the range of 32-bit integers. -/
namespace DrawStream

/-- A floating-point number of 32 bits. -/
structure Single where
  bits : UInt32
  deriving DecidableEq, Repr

namespace Single
open Binary

/-- The sign bit. -/
def negative (x : Single) : Bool := 0x80000000 ≤ x.bits.toNat

/-- The eight bits of the exponent. -/
def exponentField (x : Single) : Nat := x.bits.toNat / 0x800000 % 0x100

/-- The twenty-three bits of the fraction. -/
def fraction (x : Single) : Nat := x.bits.toNat % 0x800000

/-- Not a number. -/
def isNaN (x : Single) : Bool := x.exponentField == 255 && x.fraction != 0

/-- The magnitude of a finite number. -/
def finite? (x : Single) : Option Scaled :=
  if x.exponentField = 255 then none
  else if x.exponentField = 0 then some ⟨x.fraction, -149⟩
  else some ⟨0x800000 + x.fraction, (x.exponentField : Int) - 150⟩

/-- The number with this sign and magnitude; no magnitude stands for infinity. -/
def ofMagnitude (negative : Bool) (m : Option Scaled) : Single :=
  let sign := if negative then 0x80000000 else 0
  let body := match m with
    | none => 0xFF * 0x800000
    | some x =>
      if x.mantissa < 0x800000 then x.mantissa
      else (x.exponent + 150).toNat * 0x800000 + (x.mantissa - 0x800000)
  ⟨UInt32.ofNat (sign + body)⟩

/-- The number nearest to a whole number. -/
def ofInt (n : Int) : Single := ofMagnitude (n < 0) (Format.single.round n.natAbs 1)

/-- The number nearest to a double; beyond the largest one, infinity. -/
def ofDouble (x : Double) : Single :=
  ofMagnitude x.negative (Format.single.round x.magnitude.num x.magnitude.den)

/-- The least whole number `toInt` gives. -/
def leastInt : Int := -2147483648

/-- The greatest whole number `toInt` gives. -/
def greatestInt : Int := 2147483647

/-- The whole number next toward zero, kept inside 32 bits; 0 for what is no number. -/
def toInt (x : Single) : Int :=
  match x.finite? with
  | some m =>
    let n : Int := (m.num / m.den : Nat)
    max leastInt (min greatestInt (if x.negative then -n else n))
  | none => if x.isNaN then 0 else if x.negative then leastInt else greatestInt

/-- The four bytes of the number, least significant first. -/
def bytes (x : Single) : List UInt8 :=
  (List.range 4).map fun i => UInt8.ofNat (x.bits.toNat / Nat.pow 256 i)

@[simp] theorem length_bytes (x : Single) : x.bytes.length = 4 := by
  simp [bytes]

end Single
end DrawStream
