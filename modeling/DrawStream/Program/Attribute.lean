import DrawStream.Codec

/-! # Types and sources of vertex attributes -/
namespace DrawStream

/-- The types of vertex attributes. -/
inductive AttributeType
  | float | vec2 | vec3 | vec4
  deriving DecidableEq, Repr

namespace AttributeType

/-- Numbers per vertex. -/
def components : AttributeType → Nat
  | float => 1
  | vec2 => 2
  | vec3 => 3
  | vec4 => 4

/-- The device's number for what an attribute is made of: 32-bit floating point. -/
def number (_ : AttributeType) : Nat := 0x1406

instance : Choice AttributeType where
  all := [.float, .vec2, .vec3, .vec4]
  word
    | .float => "float"
    | .vec2 => "vec2"
    | .vec3 => "vec3"
    | .vec4 => "vec4"
  label
    | .float => "Float"
    | .vec2 => "Vec2"
    | .vec3 => "Vec3"
    | .vec4 => "Vec4"

end AttributeType

/-- Where an attribute takes its numbers from. -/
inductive AttributeSource
  /-- The same numbers for every vertex. -/
  | constant (values : List Single)
  /-- Numbers per vertex, from a buffer of the device. -/
  | buffer (handle : Nat) (stride : Int) (offset : Nat)
  deriving DecidableEq

end DrawStream
