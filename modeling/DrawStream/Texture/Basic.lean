import DrawStream.Script
import DrawStream.Texture.Alignment

/-! # Textures

A texture remembers the storage that the device holds for it.  Asking for the storage it
already has costs nothing, and a write that does not fit is refused before the device
hears of it.  The alignment of texel rows is changed only around a write whose rows
need it. -/
namespace DrawStream

/-- The storage of a texture. -/
structure TextureStorage where
  height : Nat
  width : Nat
  format : TextureFormat
  deriving DecidableEq, Repr

/-- A two-dimensional texture of the device. -/
structure Texture where
  handle : Handle
  /-- What has been allocated; none at first. -/
  storage : Option TextureStorage := none
  deriving DecidableEq, Repr

namespace Texture

/-- Where textures are bound. -/
def target : Nat := Device.texture2D

/-- Creates a texture without storage. -/
def create : Script Texture := do
  return { handle := ← Script.request .createTexture }

/-- Binds the texture to the active unit. -/
def activate (t : Texture) : Script Unit := Script.request (.bindTexture target t.handle)

/-- Leaves the active unit without a texture. -/
def deactivate (_ : Texture) : Script Unit := Script.request (.bindTexture target 0)

/-- Gives the texture back to the device. -/
def delete (t : Texture) : Script Unit := Script.request (.deleteTexture t.handle)

/-- Height and width of the storage. -/
def shape (t : Texture) : Option Extent := t.storage.map fun s => (s.height, s.width)

/-- Sets what lies beyond the edges. -/
def setWrapping (t : Texture) (s r : TextureWrap) : Script Unit := do
  t.activate
  Script.request (.textureParameter target Device.wrapS s.number)
  Script.request (.textureParameter target Device.wrapT r.number)

/-- Sets how texels are combined. -/
def setInterpolation (t : Texture) (min mag : TextureFilter) : Script Unit := do
  t.activate
  Script.request (.textureParameter target Device.minFilter min.number)
  Script.request (.textureParameter target Device.magFilter mag.number)

/-- Width and height as the device takes them; the width is looked at first. -/
def deviceShape (s : TextureStorage) : Outcome (Int × Int) := do
  let width ← quantity .textureWidth s.width
  let height ← quantity .textureHeight s.height
  return (width, height)

/-- Allocates storage, unless it is allocated already. -/
def setStorage (t : Texture) (storage : TextureStorage) : Script (Outcome Unit × Texture) := do
  if t.storage = some storage then return (.ok (), t)
  match deviceShape storage with
  | .error failure => return (.error failure, t)
  | .ok (width, height) =>
    let t := { t with storage := some storage }
    t.activate
    Script.request (.textureStorage target storage.format.number width height)
    Script.note (.textureAllocated t.handle storage.width storage.height storage.format)
    return (.ok (), t)

/-- A block of texels as the device takes it. -/
structure Block where
  x : Int
  y : Int
  width : Int
  height : Int
  deriving DecidableEq, Repr

/-- Numbers in one row of a block. -/
def rowLength (storage : TextureStorage) (shape : Extent) : Nat :=
  shape.2 * storage.format.components

/-- Checks that a block lies inside the storage and that the data fills it. -/
def checkBlock (storage : TextureStorage) (offset shape : Extent) (data : Elements) :
    Outcome Block := do
  if !rangeFits storage.height offset.1 shape.1 || !rangeFits storage.width offset.2 shape.2 then
    .error (.textureRegion offset shape (storage.height, storage.width))
  let expected := shape.1 * rowLength storage shape
  if data.length ≠ expected then
    .error (.textureDataSize expected data.length)
  let x ← quantity .texelX offset.2
  let y ← quantity .texelY offset.1
  let width ← quantity .textureWidth shape.2
  let height ← quantity .textureHeight shape.1
  return ⟨x, y, width, height⟩

/-- Sets the alignment of rows, unless it is the default. -/
def align (alignment value : Nat) : Script Unit := do
  if alignment ≠ defaultAlignment then
    Script.request (.pixelStore Device.unpackAlignment value)

/-- Writes a block of texels.  The alignment is the default one before and after. -/
def write (t : Texture) (storage : TextureStorage) (shape : Extent) (block : Block)
    (data : Elements) : Script Unit := do
  let alignment := rowAlignment (rowLength storage shape * data.type.byteSize)
  t.activate
  align alignment alignment
  Script.request (.textureWrite target block.x block.y block.width block.height
    storage.format.number data.type.number data)
  align alignment defaultAlignment

/-- Writes a block of texels at a row and column of the storage. -/
def setData (t : Texture) (offset shape : Extent) (data : Elements) :
    Script (Outcome Unit) := do
  match t.storage with
  | none => return .error .textureNotAllocated
  | some storage =>
    match checkBlock storage offset shape data with
    | .error failure => return .error failure
    | .ok block =>
      t.write storage shape block data
      return .ok ()

end Texture
end DrawStream
