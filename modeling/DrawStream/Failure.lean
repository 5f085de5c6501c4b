import DrawStream.Command.Basic
import DrawStream.Text.Hex

/-! # Why an operation fails

A `Failure` is the cause; `Failure.message` is its wording. -/
namespace DrawStream

/-- Quantities that a device takes as 32-bit numbers with a sign. -/
inductive Quantity
  | drawCount | firstVertex | texelX | texelY | textureWidth | textureHeight
  deriving DecidableEq, Repr

/-- The quantity as messages call it. -/
def Quantity.noun : Quantity → String
  | drawCount => "draw count"
  | firstVertex => "first vertex"
  | texelX => "texel x offset"
  | texelY => "texel y offset"
  | textureWidth => "texture width"
  | textureHeight => "texture height"

/-- How a command does not suit the object it is for. -/
inductive Misuse
  | storage (wanted : Command.Storage) (kind : ObjectKind) (id : Command.Id)
  /-- A buffer is given a texel as offset. -/
  | bufferOffset (id : Command.Id)
  /-- A texture is given a byte as offset. -/
  | textureOffset (id : Command.Id)
  | programData (id : Command.Id)
  deriving DecidableEq

/-- Height and width, or row and column. -/
abbrev Extent := Nat × Nat

/-- Why an operation fails. -/
inductive Failure
  | shaderCompile (stage : Stage) (log : String)
  | programLink (log : String)
  | programValidation (log : String)
  | programNotLinked
  /-- The device reported errors. -/
  | device (checkpoint : String) (codes : List Nat)
  | uniformValue (name : String) (refusal : UniformRefusal)
  | attributeValue (name : String) (length : Nat) (type : AttributeType)
  | bufferOverflow (offset length size : Nat)
  | textureNotAllocated
  | textureDataSize (expected actual : Nat)
  | textureRegion (offset shape allocated : Extent)
  | outOfRange (what : Quantity) (value : Nat)
  | unknownObject (id : Command.Id)
  | duplicateObject (id : Command.Id)
  | wrongObjectKind (id : Command.Id) (expected : ObjectKind)
  | invalidCommand (misuse : Misuse)
  deriving DecidableEq

/-- Success with a value, or a failure. -/
abbrev Outcome (α : Type) := Except Failure α

/-- The words for a misuse. -/
def Misuse.message : Misuse → String
  | storage wanted kind id =>
    "size " ++ Codec.describe wanted ++ " does not apply to " ++ kind.noun ++ " " ++ id.text
  | bufferOffset id => "buffer " ++ id.text ++ " takes a byte offset"
  | textureOffset id => "texture " ++ id.text ++ " takes a [y, x] offset"
  | programData id => "program " ++ id.text ++ " does not take data"

/-- An extent as messages write it. -/
def Extent.text (e : Extent) : String := toString e.1 ++ "x" ++ toString e.2

/-- The words for a failure. -/
def Failure.message : Failure → String
  | shaderCompile stage log => "errors in " ++ Choice.word stage ++ " shader:\n" ++ log
  | programLink log => "program link error:\n" ++ log
  | programValidation log => "program validation error:\n" ++ log
  | programNotLinked => "program has no linked code"
  | device checkpoint codes =>
    "graphics API reported errors (" ++ checkpoint ++ "): " ++
      " ".intercalate (codes.map fun c => "0x" ++ Text.hexUpper 4 c)
  | uniformValue name refusal =>
    "invalid value for uniform '" ++ name ++ "': " ++ refusal.message
  | attributeValue name length type =>
    "invalid value for attribute '" ++ name ++ "': " ++ toString length ++ " values for " ++
      Choice.label type ++ ", expected " ++ toString type.components
  | bufferOverflow offset length size =>
    "buffer write of " ++ toString length ++ " bytes at offset " ++ toString offset ++
      " exceeds allocated size " ++ toString size
  | textureNotAllocated => "texture storage has not been allocated"
  | textureDataSize expected actual =>
    "texture data has " ++ toString actual ++ " elements, expected " ++ toString expected
  | textureRegion offset shape allocated =>
    "texture write of " ++ Extent.text shape ++ " at (" ++ toString offset.1 ++ ", " ++
      toString offset.2 ++ ") exceeds allocated " ++ Extent.text allocated
  | outOfRange what value =>
    what.noun ++ " " ++ toString value ++ " is out of range for the graphics API"
  | unknownObject id => "unknown object id " ++ id.text
  | duplicateObject id => "object id " ++ id.text ++ " already exists"
  | wrongObjectKind id expected => "object " ++ id.text ++ " is not a " ++ expected.noun
  | invalidCommand misuse => "invalid command: " ++ misuse.message

/-- The greatest number that a device takes with a sign in 32 bits. -/
def greatestQuantity : Nat := 2147483647

/-- The number as a device takes it. -/
def quantity (what : Quantity) (value : Nat) : Outcome Int :=
  if value ≤ greatestQuantity then .ok value else .error (.outOfRange what value)

theorem eq_of_quantity {what : Quantity} {value : Nat} {n : Int}
    (h : quantity what value = .ok n) : n = value := by
  unfold quantity at h
  split at h <;> cases h
  rfl

/-- The greatest size or offset: 64 bits. -/
def greatestSize : Nat := 18446744073709551615

/-- Where a range ends, if 64 bits can tell. -/
def rangeEnd? (start length : Nat) : Option Nat :=
  if start + length ≤ greatestSize then some (start + length) else none

/-- A range lies within the first `size` places.  A range whose end is beyond 64 bits lies
nowhere. -/
def rangeFits (size start length : Nat) : Bool :=
  (rangeEnd? start length).any fun stop => stop ≤ size

theorem le_of_rangeFits {size start length : Nat} (h : rangeFits size start length = true) :
    start + length ≤ size := by
  unfold rangeFits rangeEnd? at h
  split at h
  · exact of_decide_eq_true h
  · cases h

/-- Sizes have 64 bits, so that the ends that are cut off cost nothing. -/
theorem rangeFits_iff {size start length : Nat} (hsize : size ≤ greatestSize) :
    rangeFits size start length = true ↔ start + length ≤ size := by
  refine ⟨le_of_rangeFits, fun h => ?_⟩
  have hend : start + length ≤ greatestSize := Nat.le_trans h hsize
  simp [rangeFits, rangeEnd?, hend, h]

end DrawStream
