import DrawStream.Object

/-! # Contexts

A context keeps the objects that commands have created, under the numbers that the
sender chose, and the commands that wait to be executed. -/
namespace DrawStream

/-- Objects by their numbers. -/
structure Context where
  objects : List (Command.Id × Object) := []
  /-- Commands that wait, oldest first. -/
  queue : List Command := []
  /-- Commands wait instead of being executed at once. -/
  deferred : Bool := true
  /-- The usage of new buffers. -/
  usage : BufferUsage := .dynamicDraw

namespace Context
open Command (Id)

/-- The object with a number. -/
def object? (c : Context) (id : Id) : Option Object := c.objects.lookup id

/-- Puts an object in the place of the one with the same number, or behind all others. -/
def put (c : Context) (id : Id) (object : Object) : Context :=
  if (c.object? id).isSome then
    { c with objects := c.objects.map fun entry => if entry.1 = id then (id, object) else entry }
  else { c with objects := c.objects ++ [(id, object)] }

/-- Takes an object out. -/
def remove (c : Context) (id : Id) : Context :=
  { c with objects := c.objects.filter fun entry => entry.1 ≠ id }

/-- The object with a number, which must be there. -/
def object (c : Context) (id : Id) : Outcome Object :=
  match c.object? id with
  | some object => .ok object
  | none => .error (.unknownObject id)

/-- The program with a number. -/
def program (c : Context) (id : Id) : Outcome Program := do
  match ← c.object id with
  | .program p => return p
  | _ => .error (.wrongObjectKind id .program)

/-- The texture with a number. -/
def texture (c : Context) (id : Id) : Outcome Texture := do
  match ← c.object id with
  | .texture t => return t
  | _ => .error (.wrongObjectKind id .texture)

/-- The handle of the vertex buffer with a number. -/
def vertexBuffer (c : Context) (id : Id) : Outcome Handle := do
  match ← c.object id with
  | .vertexBuffer b => return b.handle
  | _ => .error (.wrongObjectKind id .vertexBuffer)

/-- The handle of the index buffer with a number. -/
def indexBuffer (c : Context) (id : Id) : Outcome Handle := do
  match ← c.object id with
  | .indexBuffer b => return b.handle
  | _ => .error (.wrongObjectKind id .indexBuffer)

end Context
end DrawStream
