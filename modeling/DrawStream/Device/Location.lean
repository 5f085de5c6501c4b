import DrawStream.Binary.Signed
import DrawStream.Device.Request

/-! # Where variables are found by name

The variables of a program are declared in a list.  The `i`-th one, counting from 0, lies
at location `16 * i`, and element `j` of an array `j` places further.  An array may be
declared under its own name or that of its first element, and either name finds its
first element.  Locations are 32-bit numbers. -/
namespace DrawStream.Device

/-- The location of what is not found. -/
def nowhere : Int := -1

/-- Locations between one declared variable and the next. -/
def locationStride : Nat := 16

/-- A location as a device counts it. -/
def wrapLocation (n : Int) : Int := Binary.signed 32 n

/-- What follows `front` in `cs`, if `cs` begins with it. -/
def stripFront? : (front cs : List Char) → Option (List Char)
  | [], cs => some cs
  | _ :: _, [] => none
  | a :: front, b :: cs => if a = b then stripFront? front cs else none

/-- What precedes `back` in `cs`, if `cs` ends with it. -/
def stripBack? (back cs : List Char) : Option (List Char) :=
  (stripFront? back.reverse cs.reverse).map List.reverse

/-- The number that one or more decimal digits denote. -/
def digitsValue? (cs : List Char) : Option Nat :=
  if cs.isEmpty || !cs.all Char.isDigit then none
  else some (cs.foldl (fun n c => n * 10 + (c.toNat - '0'.toNat)) 0)

/-- The 32-bit number that digits with an optional sign denote. -/
def readIndex? (cs : List Char) : Option Int := do
  let n ← match cs with
    | '-' :: rest => (digitsValue? rest).map fun n => -(n : Int)
    | '+' :: rest => (digitsValue? rest).map fun n => (n : Int)
    | _ => (digitsValue? cs).map fun n => (n : Int)
  if -2147483648 ≤ n ∧ n ≤ 2147483647 then some n else none

/-- The name of an array, which may be declared by its first element. -/
def arrayName (declared : List Char) : List Char :=
  (stripBack? ['[', '0', ']'] declared).getD declared

/-- The index between the brackets that follow `array` in `name`. -/
def elementOf? (array name : List Char) : Option Int := do
  let rest ← stripFront? array name
  let rest ← stripFront? ['['] rest
  readIndex? (← stripBack? [']'] rest)

/-- The location of `name` in the variables from the `i`-th one on. -/
def locateFrom (name : List Char) : (i : Nat) → List Variable → Int
  | _, [] => nowhere
  | i, v :: rest =>
    let declared := v.name.toList
    let array := arrayName declared
    let base := wrapLocation (i * locationStride : Nat)
    if name = declared ∨ name = array then base
    else
      match elementOf? array name with
      | some j => if j < v.size then wrapLocation (base + j) else locateFrom name (i + 1) rest
      | none => locateFrom name (i + 1) rest

/-- The location of a name among declared variables. -/
def locate (declared : List Variable) (name : String) : Int :=
  locateFrom name.toList 0 declared

end DrawStream.Device
