import DrawStream.Choice
import DrawStream.Json.Value
import DrawStream.Decimal.Layout
import DrawStream.Text.Quoted

/-! # Why JSON of the wrong shape is refused

A `Mismatch` is the cause; `Mismatch.message` is its wording. -/
namespace DrawStream

/-- What stands where something else was wanted. -/
inductive Found
  | null
  | bool (b : Bool)
  | whole (n : Int)
  | real (x : Double)
  | text (s : String)
  | list
  | object
  /-- A bare name where a name with contents was wanted. -/
  | bareName

/-- What a JSON value looks like to a message. -/
def Json.found : Json → Found
  | .null => .null
  | .bool b => .bool b
  | .number (.whole n) => .whole n
  | .number (.real x) => .real x
  | .text s => .text s
  | .list _ => .list
  | .object _ => .object

/-- The words for what was found. -/
def Found.message : Found → String
  | null => "null"
  | bool b => "boolean " ++ Choice.mark (if b then "true" else "false")
  | whole n => "integer " ++ Choice.mark (toString n)
  | real x => "floating point " ++ Choice.mark x.text
  | text s => "string " ++ Text.quoted s
  | list => "sequence"
  | object => "map"
  | bareName => "unit variant"

/-- Why a value is not what was wanted. -/
inductive Mismatch
  /-- Another kind of value. -/
  | wrongType (found : Found) (wanted : String)
  /-- The right kind of value, but not one of those allowed. -/
  | wrongValue (found : Found) (wanted : String)
  /-- A list of the wrong length. -/
  | wrongLength (length : Nat) (wanted : String)
  /-- A name that is none of the choices. -/
  | unknownName (name : String) (known : List String)
  /-- A key that must be there and is not. -/
  | missing (key : String)
  /-- A key that occurs twice. -/
  | repeated (key : String)
  /-- None of the alternatives of a union fits. -/
  | noAlternative (union : String)

/-- The words for a mismatch. -/
def Mismatch.message : Mismatch → String
  | wrongType found wanted => "invalid type: " ++ found.message ++ ", expected " ++ wanted
  | wrongValue found wanted => "invalid value: " ++ found.message ++ ", expected " ++ wanted
  | wrongLength n wanted => "invalid length " ++ toString n ++ ", expected " ++ wanted
  | unknownName name known =>
    "unknown variant " ++ Choice.mark name ++ ", expected " ++ Choice.offer known
  | missing key => "missing field " ++ Choice.mark key
  | repeated key => "duplicate field " ++ Choice.mark key
  | noAlternative union => "data did not match any variant of untagged enum " ++ union

/-- The value is of another kind than `wanted`. -/
def Json.wrongType (v : Json) (wanted : String) : Mismatch := .wrongType v.found wanted

/-- What goes well goes on with its value. -/
@[simp] theorem ok_bind {ε α β : Type} (a : α) (f : α → Except ε β) :
    (Except.ok a >>= f) = f a := rfl

/-- What goes well in the end has gone well on the way. -/
theorem ok_of_bind {ε α β : Type} {x : Except ε α} {f : α → Except ε β} {b : β}
    (h : (x >>= f) = .ok b) : ∃ a, x = .ok a ∧ f a = .ok b := by
  rcases x with e | a
  · cases h
  · exact ⟨a, rfl, h⟩

end DrawStream
