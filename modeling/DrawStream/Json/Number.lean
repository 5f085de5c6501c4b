import DrawStream.Json.Value

/-! # Reading a JSON number

The text of a number is split into its parts first (`NumberText`), and only then
given a value.  A number written without point and exponent is whole as long as it
fits 64 bits; all others become doubles, from the leading digits that fit 64 bits
and the power of ten that belongs to them. -/
namespace DrawStream.Json

/-- The parts of a number's text. -/
structure NumberText where
  negative : Bool
  /-- Digits before the point. -/
  whole : List Char
  /-- Digits behind the point; none if there is no point. -/
  fraction : List Char
  /-- The exponent, if one is written. -/
  exponent : Option Int

/-- The value of a decimal digit. -/
def digitValue (c : Char) : Nat := c.toNat - '0'.toNat

/-- The greatest number the leading digits may form. -/
def greatestLead : Nat := 18446744073709551615

/-- Appends digits to `lead` as long as it stays in bounds; the digits left come back. -/
def takeLead (lead : Nat) : List Char → Nat × List Char
  | [] => (lead, [])
  | c :: rest =>
    let next := lead * 10 + digitValue c
    if next ≤ greatestLead then takeLead next rest else (lead, c :: rest)

/-- The value of a number's parts; none if it is beyond the largest double. -/
def NumberText.value? (t : NumberText) : Option JsonNumber :=
  let (lead, left) := takeLead 0 t.whole
  let isWhole := left.isEmpty && t.fraction.isEmpty && t.exponent.isNone
  if isWhole && !t.negative then some (.whole lead)
  else if isWhole && t.negative && lead != 0 && lead ≤ 9223372036854775808 then
    some (.whole (-(lead : Int)))
  else
    let (digits, unread) := takeLead lead t.fraction
    let places := t.fraction.length - unread.length
    let exponent := (left.length : Int) - places + t.exponent.getD 0
    (Double.ofDecimal? t.negative digits exponent).map .real

/-- Splits off the digits at the front. -/
def spanDigits (cs : List Char) : List Char × List Char :=
  (cs.takeWhile Char.isDigit, cs.dropWhile Char.isDigit)

/-- The number that decimal digits denote. -/
def decimalValue (cs : List Char) : Nat := cs.foldl (fun n c => n * 10 + digitValue c) 0

/-- Digits before the point: a single 0, or digits that do not start with one. -/
def wholePart? (cs : List Char) : Option (List Char × List Char) :=
  match spanDigits cs with
  | ([], _) => none
  | ('0' :: _ :: _, _) => none
  | parts => some parts

/-- A point and at least one digit, or nothing. -/
def fractionPart? (cs : List Char) : Option (List Char × List Char) :=
  match cs with
  | '.' :: rest =>
    match spanDigits rest with
    | ([], _) => none
    | parts => some parts
  | _ => some ([], cs)

/-- The sign and digits of an exponent. -/
def exponentDigits? (cs : List Char) : Option (Int × List Char) :=
  let (negative, rest) := match cs with
    | '+' :: rest => (false, rest)
    | '-' :: rest => (true, rest)
    | rest => (false, rest)
  match spanDigits rest with
  | ([], _) => none
  | (digits, rest) =>
    let n : Int := decimalValue digits
    some (if negative then -n else n, rest)

/-- An exponent, or nothing. -/
def exponentPart? (cs : List Char) : Option (Option Int × List Char) :=
  match cs with
  | 'e' :: rest | 'E' :: rest => (exponentDigits? rest).map fun (n, rest) => (some n, rest)
  | _ => some (none, cs)

/-- Reads a number behind its sign; none if it is malformed or out of range. -/
def readNumber? (negative : Bool) (cs : List Char) : Option (JsonNumber × List Char) := do
  let (whole, cs) ← wholePart? cs
  let (fraction, cs) ← fractionPart? cs
  let (exponent, cs) ← exponentPart? cs
  return (← NumberText.value? ⟨negative, whole, fraction, exponent⟩, cs)

end DrawStream.Json
