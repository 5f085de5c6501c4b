/-! # Hexadecimal text -/
namespace DrawStream.Text

/-- The digits of `n` in base 16, with zeros in front up to `width` places. -/
def hexDigits (width n : Nat) : List Char :=
  let digits := Nat.toDigits 16 n
  List.replicate (width - digits.length) '0' ++ digits

/-- Lower-case hexadecimal digits in at least `width` places. -/
def hexLower (width n : Nat) : String := String.ofList (hexDigits width n)

/-- Upper-case hexadecimal digits in at least `width` places. -/
def hexUpper (width n : Nat) : String := String.ofList ((hexDigits width n).map Char.toUpper)

/-- The value of a hexadecimal digit of either case. -/
def hexValue? (c : Char) : Option Nat :=
  if '0' ≤ c ∧ c ≤ '9' then some (c.toNat - '0'.toNat)
  else if 'a' ≤ c ∧ c ≤ 'f' then some (c.toNat - 'a'.toNat + 10)
  else if 'A' ≤ c ∧ c ≤ 'F' then some (c.toNat - 'A'.toNat + 10)
  else none

/-- The number that hexadecimal digits denote, after the digits of `n`. -/
def hexNumber? (n : Nat) : List Char → Option Nat
  | [] => some n
  | c :: rest => do hexNumber? (16 * n + (← hexValue? c)) rest

end DrawStream.Text
