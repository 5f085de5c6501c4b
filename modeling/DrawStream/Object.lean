import DrawStream.Buffer
import DrawStream.Texture.Basic
import DrawStream.Program.Link

/-! # Objects of any kind -/
namespace DrawStream

/-- An object that commands can address. -/
inductive Object
  | vertexBuffer (b : Buffer)
  | indexBuffer (b : Buffer)
  | texture (t : Texture)
  | program (p : Program)
  deriving DecidableEq

namespace Object

/-- The kind of an object. -/
def kind : Object → ObjectKind
  | vertexBuffer _ => .vertexBuffer
  | indexBuffer _ => .indexBuffer
  | texture _ => .texture
  | program _ => .program

/-- The number under which the device knows the object. -/
def handle : Object → Handle
  | vertexBuffer b | indexBuffer b => b.handle
  | texture t => t.handle
  | program p => p.handle

/-- Creates an object; buffers are allocated with the usage. -/
def create (usage : BufferUsage) : ObjectKind → Script Object
  | .vertexBuffer => do return .vertexBuffer (← Buffer.create .array usage)
  | .indexBuffer => do return .indexBuffer (← Buffer.create .elements usage)
  | .texture => do return .texture (← Texture.create)
  | .program => do return .program (← Program.create)

/-- Makes the object the one that its place in the device refers to. -/
def activate : Object → Script Unit
  | vertexBuffer b | indexBuffer b => b.activate
  | texture t => t.activate
  | program p => p.activate

/-- Empties the object's place in the device. -/
def deactivate : Object → Script Unit
  | vertexBuffer b | indexBuffer b => b.deactivate
  | texture t => t.deactivate
  | program p => p.deactivate

/-- Gives the object back to the device. -/
def delete : Object → Script Unit
  | vertexBuffer b | indexBuffer b => b.delete
  | texture t => t.delete
  | program p => p.delete

end Object
end DrawStream
