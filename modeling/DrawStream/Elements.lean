import DrawStream.Codec

/-! # Typed lists of numbers, as they are uploaded to buffers and textures -/
namespace DrawStream

/-- The types of uploaded numbers. -/
inductive ElementType
  | i8 | u8 | i16 | u16 | i32 | u32 | f32
  deriving DecidableEq, Repr

namespace ElementType

/-- The device's number. -/
def number : ElementType → Nat
  | i8 => 0x1400
  | u8 => 0x1401
  | i16 => 0x1402
  | u16 => 0x1403
  | i32 => 0x1404
  | u32 => 0x1405
  | f32 => 0x1406

/-- Bytes that one number takes. -/
def byteSize : ElementType → Nat
  | i8 | u8 => 1
  | i16 | u16 => 2
  | i32 | u32 | f32 => 4

instance : Choice ElementType where
  all := [.i8, .u8, .i16, .u16, .i32, .u32, .f32]
  word
    | .i8 => "i8"
    | .u8 => "u8"
    | .i16 => "i16"
    | .u16 => "u16"
    | .i32 => "i32"
    | .u32 => "u32"
    | .f32 => "f32"
  label
    | .i8 => "I8"
    | .u8 => "U8"
    | .i16 => "I16"
    | .u16 => "U16"
    | .i32 => "I32"
    | .u32 => "U32"
    | .f32 => "F32"

end ElementType

/-- A list of numbers of one type. -/
inductive Elements
  | i8 (values : List (Word .i8))
  | u8 (values : List (Word .u8))
  | i16 (values : List (Word .i16))
  | u16 (values : List (Word .u16))
  | i32 (values : List (Word .i32))
  | u32 (values : List (Word .u32))
  | f32 (values : List Single)
  deriving DecidableEq

namespace Elements

/-- The type of the numbers. -/
def type : Elements → ElementType
  | i8 _ => .i8
  | u8 _ => .u8
  | i16 _ => .i16
  | u16 _ => .u16
  | i32 _ => .i32
  | u32 _ => .u32
  | f32 _ => .f32

/-- How many numbers there are. -/
def length : Elements → Nat
  | i8 xs | u8 xs | i16 xs | u16 xs | i32 xs | u32 xs | f32 xs => xs.length

/-- How many bytes they take. -/
def byteLength (data : Elements) : Nat := data.length * data.type.byteSize

/-- Their bytes, each number least significant byte first. -/
def bytes : Elements → List UInt8
  | i8 xs | u8 xs | i16 xs | u16 xs | i32 xs | u32 xs => xs.flatMap Word.bytes
  | f32 xs => xs.flatMap Single.bytes

@[simp] theorem length_bytes (data : Elements) : data.bytes.length = data.byteLength := by
  cases data <;>
    simp only [bytes, List.length_flatMap, Word.length_bytes, Single.length_bytes,
      List.map_const', List.sum_replicate_nat] <;>
    rfl

/-- A list of `n` zeroes. -/
def zeroes (n : Nat) : ElementType → Elements
  | .i8 => .i8 (List.replicate n (.zero _))
  | .u8 => .u8 (List.replicate n (.zero _))
  | .i16 => .i16 (List.replicate n (.zero _))
  | .u16 => .u16 (List.replicate n (.zero _))
  | .i32 => .i32 (List.replicate n (.zero _))
  | .u32 => .u32 (List.replicate n (.zero _))
  | .f32 => .f32 (List.replicate n ⟨0⟩)

/-- Reads the numbers that stand under a type's name. -/
def readAs (v : Json) : ElementType → Except Mismatch Elements
  | .i8 => i8 <$> Codec.readList v
  | .u8 => u8 <$> Codec.readList v
  | .i16 => i16 <$> Codec.readList v
  | .u16 => u16 <$> Codec.readList v
  | .i32 => i32 <$> Codec.readList v
  | .u32 => u32 <$> Codec.readList v
  | .f32 => f32 <$> Codec.readList v

/-- Reads an object whose only key names the type. -/
def read (v : Json) : Except Mismatch Elements := do
  let (s, contents) ← Codec.splitName v
  let type ← Codec.readName s
  match contents with
  | some v => readAs v type
  | none => .error (.wrongType .bareName "newtype variant")

/-- The numbers as a JSON list. -/
def encodeValues (number : Single → Json) : Elements → Json
  | i8 xs | u8 xs | i16 xs | u16 xs | i32 xs | u32 xs | f32 xs => Codec.encode number xs

/-- The numbers in a description. -/
def describeValues : Elements → String
  | i8 xs | u8 xs | i16 xs | u16 xs | i32 xs | u32 xs | f32 xs => Codec.describe xs

instance : Codec Elements where
  read := read
  encode number data := .object [(Choice.word data.type, data.encodeValues number)]
  describe data := Choice.label data.type ++ "(" ++ data.describeValues ++ ")"

end Elements
end DrawStream
