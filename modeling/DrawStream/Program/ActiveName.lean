import DrawStream.Device.Request
import DrawStream.Text.Blank

/-! # The names under which a program's variables can be set

A device reports an array once, usually under the name of its first element.  The
variable then stands for one name per element.  A subscript is a number in brackets at
the end of a name, blanks around the brackets aside. -/
namespace DrawStream.Program
open DrawStream.Text

/-- The name without the subscript at its end, if it has one. -/
def arrayBase? (name : List Char) : Option (List Char) :=
  match (trimEnd name).reverse with
  | ']' :: rest =>
    let digits := rest.takeWhile (· != '[')
    match rest.dropWhile (· != '[') with
    | '[' :: front =>
      let base := trimEnd front.reverse
      if base.isEmpty || digits.isEmpty || !digits.all Char.isDigit then none else some base
    | _ => none
  | _ => none

/-- The name of an element. -/
def elementName (base : String) (index : Nat) : String :=
  base ++ "[" ++ toString index ++ "]"

/-- The names that a reported variable stands for: its own, or one per element. -/
def variableNames (v : Variable) : List String :=
  let base? := arrayBase? v.name.toList
  if base?.isNone ∧ v.size ≤ 1 then [v.name]
  else
    let base := (base?.map String.ofList).getD v.name
    (List.range (max v.size 1).toNat).map (elementName base)

/-- The names that reported variables stand for, each once. -/
def activeNames (declared : List Variable) : List String :=
  (declared.flatMap variableNames).foldl (fun names name => names.insert name) []

end DrawStream.Program
