import DrawStream.Binary.Single

/-! # JSON values as command text holds them

Members of an object keep their order and may repeat; what a repeated key means
is for the reader of the object to say.  A number is a whole number if it was
written without point and exponent, is not `-0`, and fits 64 bits; any other number is
a double. -/
namespace DrawStream

/-- A JSON number. -/
inductive JsonNumber
  | whole (n : Int)
  | real (x : Double)
  deriving DecidableEq, Repr

/-- The number rounded to 32 bits: whole numbers directly, others from their double. -/
def JsonNumber.toSingle : JsonNumber → Single
  | whole n => .ofInt n
  | real x => .ofDouble x

/-- A JSON value. -/
inductive Json
  | null
  | bool (b : Bool)
  | number (n : JsonNumber)
  | text (s : String)
  | list (items : List Json)
  | object (members : List (String × Json))
  deriving Repr

end DrawStream
