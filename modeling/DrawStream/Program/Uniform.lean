import DrawStream.Codec

/-! # Types and values of uniforms

Every uniform type is uploaded in one of four ways (`Upload`), which fixes how many
numbers make one element.  `UniformType.refusal?` says which values cannot be uploaded
as a type. -/
namespace DrawStream

/-- The types of uniforms. -/
inductive UniformType
  | float | vec2 | vec3 | vec4
  | int | ivec2 | ivec3 | ivec4
  | bool | bvec2 | bvec3 | bvec4
  | mat2 | mat3 | mat4
  | sampler1D | sampler2D | sampler3D
  deriving DecidableEq, Repr

instance : Choice UniformType where
  all := [.float, .vec2, .vec3, .vec4, .int, .ivec2, .ivec3, .ivec4, .bool, .bvec2, .bvec3,
    .bvec4, .mat2, .mat3, .mat4, .sampler1D, .sampler2D, .sampler3D]
  word
    | .float => "float"
    | .vec2 => "vec2"
    | .vec3 => "vec3"
    | .vec4 => "vec4"
    | .int => "int"
    | .ivec2 => "ivec2"
    | .ivec3 => "ivec3"
    | .ivec4 => "ivec4"
    | .bool => "bool"
    | .bvec2 => "bvec2"
    | .bvec3 => "bvec3"
    | .bvec4 => "bvec4"
    | .mat2 => "mat2"
    | .mat3 => "mat3"
    | .mat4 => "mat4"
    | .sampler1D => "sampler1D"
    | .sampler2D => "sampler2D"
    | .sampler3D => "sampler3D"
  label
    | .float => "Float"
    | .vec2 => "Vec2"
    | .vec3 => "Vec3"
    | .vec4 => "Vec4"
    | .int => "Int"
    | .ivec2 => "IVec2"
    | .ivec3 => "IVec3"
    | .ivec4 => "IVec4"
    | .bool => "Bool"
    | .bvec2 => "BVec2"
    | .bvec3 => "BVec3"
    | .bvec4 => "BVec4"
    | .mat2 => "Mat2"
    | .mat3 => "Mat3"
    | .mat4 => "Mat4"
    | .sampler1D => "Sampler1D"
    | .sampler2D => "Sampler2D"
    | .sampler3D => "Sampler3D"

/-- How the numbers of a uniform reach the device. -/
inductive Upload
  /-- Vectors of `n` floating-point numbers. -/
  | floats (n : Nat)
  /-- Vectors of `n` whole numbers. -/
  | ints (n : Nat)
  /-- Square matrices of `dim` columns. -/
  | matrix (dim : Nat)
  /-- The number of a texture unit. -/
  | sampler
  deriving DecidableEq, Repr

namespace Upload

/-- Numbers in one element. -/
def components : Upload → Nat
  | floats n | ints n => n
  | matrix dim => dim * dim
  | sampler => 1

/-- The upload in a description. -/
def text : Upload → String
  | floats n => "Float(" ++ toString n ++ ")"
  | ints n => "Int(" ++ toString n ++ ")"
  | matrix n => "Matrix(" ++ toString n ++ ")"
  | sampler => "Sampler"

end Upload

/-- The numbers given for a uniform. -/
inductive UniformValue
  | floats (data : List Single)
  | ints (data : List Int)

/-- How many numbers are given. -/
def UniformValue.length : UniformValue → Nat
  | floats data => data.length
  | ints data => data.length

/-- Why a value cannot be uploaded as a type. -/
inductive UniformRefusal
  | empty
  | ragged (length : Nat) (type : UniformType)
  | wholeNumbers (type : UniformType)
  deriving DecidableEq

namespace UniformType

/-- How the type is uploaded. -/
def upload : UniformType → Upload
  | float => .floats 1
  | vec2 => .floats 2
  | vec3 => .floats 3
  | vec4 => .floats 4
  | int | bool => .ints 1
  | ivec2 | bvec2 => .ints 2
  | ivec3 | bvec3 => .ints 3
  | ivec4 | bvec4 => .ints 4
  | mat2 => .matrix 2
  | mat3 => .matrix 3
  | mat4 => .matrix 4
  | sampler1D | sampler2D | sampler3D => .sampler

/-- Numbers in one element. -/
def components (t : UniformType) : Nat := t.upload.components

/-- The type takes floating-point numbers only. -/
def isFloating (t : UniformType) : Bool :=
  match t.upload with
  | .floats _ | .matrix _ => true
  | .ints _ | .sampler => false

/-- Why the value cannot be uploaded: it is empty, it does not fill whole elements, or
it has whole numbers where floating-point ones are needed. -/
def refusal? (t : UniformType) (value : UniformValue) : Option UniformRefusal :=
  if value.length = 0 then some .empty
  else if value.length % t.components ≠ 0 then some (.ragged value.length t)
  else
    match value with
    | .ints _ => if t.isFloating then some (.wholeNumbers t) else none
    | .floats _ => none

end UniformType

/-- The words for a refused value. -/
def UniformRefusal.message : UniformRefusal → String
  | empty => "value is empty"
  | ragged n t =>
    toString n ++ " scalars is not a multiple of " ++ toString t.components ++ " for " ++
      Choice.label t
  | wholeNumbers t => "integer data for float type " ++ Choice.label t

end DrawStream
