import DrawStream.Script

/-! # Buffers

A buffer remembers how many bytes the device holds for it.  Asking for the size it
already has costs nothing, and a write that does not fit is refused before the device
hears of it. -/
namespace DrawStream

/-- A buffer of the device. -/
structure Buffer where
  handle : Handle
  target : BufferTarget
  /-- The hint given with every allocation. -/
  usage : BufferUsage := .dynamicDraw
  /-- Bytes allocated. -/
  size : Nat := 0
  deriving DecidableEq, Repr

namespace Buffer

/-- Creates a buffer without storage. -/
def create (target : BufferTarget) (usage : BufferUsage) : Script Buffer := do
  return { handle := ← Script.request .createBuffer, target, usage }

/-- Binds the buffer to its target. -/
def activate (b : Buffer) : Script Unit :=
  Script.request (.bindBuffer b.target.number b.handle)

/-- Leaves the target without a buffer. -/
def deactivate (b : Buffer) : Script Unit := Script.request (.bindBuffer b.target.number 0)

/-- Gives the buffer back to the device. -/
def delete (b : Buffer) : Script Unit := Script.request (.deleteBuffer b.handle)

/-- Allocates storage of `bytes` bytes, unless that is the size already. -/
def setSize (b : Buffer) (bytes : Nat) : Script Buffer := do
  if bytes = b.size then return b
  b.activate
  Script.request (.bufferStorage b.target.number bytes b.usage.number)
  Script.note (.bufferResized b.handle b.size bytes)
  return { b with size := bytes }

/-- Writes data at a byte of the storage. -/
def setData (b : Buffer) (offset : Nat) (data : Elements) : Script (Outcome Unit) := do
  if !rangeFits b.size offset data.byteLength then
    return .error (.bufferOverflow offset data.byteLength b.size)
  b.activate
  Script.request (.bufferWrite b.target.number offset data)
  return .ok ()

end Buffer
end DrawStream
