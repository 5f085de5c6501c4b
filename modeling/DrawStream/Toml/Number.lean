import DrawStream.Binary.Double
import DrawStream.Text.Hex
import DrawStream.Toml.Blank

/-! # TOML numbers

Digits may be parted by single underscores.  A whole number has 64 bits with a sign and
is written in decimal, or without a sign behind `0x`, `0o` or `0b`.  A point or an
exponent makes a real number, which must not be so large that it becomes infinite,
though it may be below all finite ones. -/
namespace DrawStream.Toml
open DrawStream.Text

/-- The digits at the front, each of which may stand behind an underscore. -/
def moreDigits (isDigit : Char → Bool) : List Char → List Char × List Char
  | [] => ([], [])
  | [c] => if isDigit c then ([c], []) else ([], [c])
  | c :: d :: rest =>
    if isDigit c then
      let (digits, left) := moreDigits isDigit (d :: rest)
      (c :: digits, left)
    else if c = '_' && isDigit d then
      let (digits, left) := moreDigits isDigit rest
      (d :: digits, left)
    else ([], c :: d :: rest)

/-- One or more digits; an underscore may not come first. -/
def digits? (isDigit : Char → Bool) : Scan (List Char)
  | c :: rest =>
    if isDigit c then
      let (digits, left) := moreDigits isDigit rest
      some (c :: digits, left)
    else none
  | [] => none

/-- The number that digits denote in a base. -/
def valueIn (base : Nat) (digits : List Char) : Nat :=
  digits.foldl (fun n c => n * base + (hexValue? c).getD 0) 0

/-- A sign at the front, if there is one: whether it is a minus. -/
def sign : List Char → Bool × List Char
  | '-' :: rest => (true, rest)
  | '+' :: rest => (false, rest)
  | cs => (false, cs)

/-- Decimal digits without needless zeros in front. -/
def decimalDigits? : Scan (List Char)
  | '0' :: rest => some (['0'], rest)
  | cs => digits? Char.isDigit cs

/-- An exponent behind its letter. -/
def exponent? (cs : List Char) : Option (Int × List Char) := do
  let (negative, cs) := sign cs
  let (digits, rest) ← digits? Char.isDigit cs
  let n : Int := valueIn 10 digits
  return (if negative then -n else n, rest)

/-- An exponent, if there is one. -/
def exponentPart? : Scan (Option Int)
  | 'e' :: rest | 'E' :: rest => (exponent? rest).map fun (n, rest) => (some n, rest)
  | cs => some (none, cs)

/-- The digits behind a point, if there is one. -/
def fractionPart? : Scan (Option (List Char))
  | '.' :: rest => (digits? Char.isDigit rest).map fun (digits, rest) => (some digits, rest)
  | cs => some (none, cs)

/-- The least whole number. -/
def leastWhole : Int := -9223372036854775808

/-- The greatest whole number. -/
def greatestWhole : Int := 9223372036854775807

/-- A whole number that 64 bits hold. -/
def bounded? (n : Int) : Option Toml :=
  if leastWhole ≤ n ∧ n ≤ greatestWhole then some (.whole n) else none

/-- What has been read between `cs` and what is left of it. -/
def between (cs rest : List Char) : String :=
  String.ofList (cs.take (cs.length - rest.length))

/-- A whole number in another base, behind its mark. -/
def readInBase? (base : Nat) (isDigit : Char → Bool) : Scan Toml := fun cs => do
  let (digits, rest) ← digits? isDigit cs
  return (← bounded? (valueIn base digits), rest)

/-- A number in decimal. -/
def readDecimal? : Scan Toml := fun cs => do
  let (negative, body) := sign cs
  let (digits, rest) ← decimalDigits? body
  let (fraction, rest) ← fractionPart? rest
  let (exponent, rest) ← exponentPart? rest
  if fraction.isNone ∧ exponent.isNone then
    let n : Int := valueIn 10 digits
    return (← bounded? (if negative then -n else n), rest)
  let places := fraction.getD []
  let beyond := Double.isBeyond (valueIn 10 (digits ++ places))
    (exponent.getD 0 - (places.length : Int))
  if beyond ∧ ¬ negative then none
  else return (.real (between cs rest), rest)

/-- An infinity or what is not a number, with or without a sign. -/
def readSpecial? : Scan Toml := fun cs =>
  match (sign cs).2 with
  | 'i' :: 'n' :: 'f' :: rest | 'n' :: 'a' :: 'n' :: rest => some (.real (between cs rest), rest)
  | _ => none

/-- A number. -/
def readNumber? : Scan Toml
  | '0' :: 'x' :: rest => readInBase? 16 (fun c => (hexValue? c).isSome) rest
  | '0' :: 'o' :: rest => readInBase? 8 (fun c => '0' ≤ c && c ≤ '7') rest
  | '0' :: 'b' :: rest => readInBase? 2 (fun c => c = '0' || c = '1') rest
  | cs => (readSpecial? cs).orElse fun _ => readDecimal? cs

end DrawStream.Toml
