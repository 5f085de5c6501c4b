import DrawStream.Context.Basic
import DrawStream.Program.Draw
import DrawStream.Program.Set

/-! # Executing commands

Executing a command begins with a note of it.  A command first finds the objects it speaks of,
then changes at most one of them.  The objects that it only refers to are found first: the
buffer of an attribute or a draw, the texture of a sampler. -/
namespace DrawStream.Context
open Command (Id)

/-- What has become of a command: whether it succeeded, and the context after it. -/
abbrev Result := Outcome Unit × Context

/-- The command fails and changes nothing. -/
def refuse (c : Context) (failure : Failure) : Script Result := return (.error failure, c)

/-- Works on the program with a number. -/
def onProgram (c : Context) (id : Id) (act : Program → Script (Outcome Unit × Program)) :
    Script Result := do
  match c.program id with
  | .error failure => c.refuse failure
  | .ok p =>
    let (outcome, p) ← act p
    return (outcome, c.put id (.program p))

/-- Uses the texture with a number, without changing what is known of it. -/
def onTexture (c : Context) (id : Id) (act : Texture → Script Unit) : Script Result := do
  match c.texture id with
  | .error failure => c.refuse failure
  | .ok t =>
    act t
    return (.ok (), c)

/-- Creates an object under a number that is still free. -/
def create (c : Context) (id : Id) (kind : ObjectKind) : Script Result := do
  match c.object? id with
  | some _ => c.refuse (.duplicateObject id)
  | none =>
    let object ← Object.create c.usage kind
    Script.note (.created kind id object.handle)
    return (.ok (), c.put id object)

/-- Deletes the object with a number. -/
def delete (c : Context) (id : Id) : Script Result := do
  match c.object id with
  | .error failure => c.refuse failure
  | .ok object =>
    Script.note (.deleting object.kind id)
    object.delete
    return (.ok (), c.remove id)

/-- Allocates storage. -/
def setSize (c : Context) (id : Id) (storage : Command.Storage) : Script Result := do
  match c.object id with
  | .error failure => c.refuse failure
  | .ok object =>
    match object, storage with
    | .vertexBuffer b, .bytes n =>
      return (.ok (), c.put id (.vertexBuffer (← b.setSize n.toNat)))
    | .indexBuffer b, .bytes n =>
      return (.ok (), c.put id (.indexBuffer (← b.setSize n.toNat)))
    | .texture t, .texture (height, width) format =>
      let (outcome, t) ← t.setStorage ⟨height.toNat, width.toNat, format⟩
      return (outcome, c.put id (.texture t))
    | _, _ => c.refuse (.invalidCommand (.storage storage object.kind id))

/-- Uploads data to a buffer. -/
def setBufferData (c : Context) (id : Id) (b : Buffer) (offset : Command.Offset)
    (data : Elements) : Script Result := do
  match offset with
  | .texel _ => c.refuse (.invalidCommand (.bufferOffset id))
  | .linear n => return (← b.setData n.toNat data, c)

/-- The texel at which an upload to a texture begins. -/
def texelOffset? : Command.Offset → Option Extent
  | .texel (y, x) => some (y.toNat, x.toNat)
  | .linear n => if n.toNat = 0 then some (0, 0) else none

/-- Uploads data to a texture; without a shape, to the whole of it. -/
def setTextureData (c : Context) (id : Id) (t : Texture) (offset : Command.Offset)
    (shape : Option (Command.Count × Command.Count)) (data : Elements) : Script Result := do
  match texelOffset? offset with
  | none => c.refuse (.invalidCommand (.textureOffset id))
  | some offset =>
    match (shape.map fun s => (s.1.toNat, s.2.toNat)) <|> t.shape with
    | none => c.refuse .textureNotAllocated
    | some shape => return (← t.setData offset shape data, c)

/-- Uploads data. -/
def setData (c : Context) (id : Id) (offset : Command.Offset)
    (shape : Option (Command.Count × Command.Count)) (data : Elements) : Script Result := do
  match c.object id with
  | .error failure => c.refuse failure
  | .ok (.vertexBuffer b) | .ok (.indexBuffer b) => c.setBufferData id b offset data
  | .ok (.texture t) => c.setTextureData id t offset shape data
  | .ok (.program _) => c.refuse (.invalidCommand (.programData id))

/-- The source of an attribute, with the buffer found. -/
def source (c : Context) : Command.Source → Outcome AttributeSource
  | .buffer id stride offset => do
    return .buffer (← c.vertexBuffer id) stride.val offset.toNat
  | .constant values => .ok (.constant values)

/-- The selection of a draw, with the buffer found. -/
def selection (c : Context) : Command.Selection → Outcome Selection
  | .elements id type count => do return .elements (← c.indexBuffer id) type count.toNat
  | .range first count => .ok (.range first.toNat count.toNat)

/-- Does what a command says. -/
def carryOut (c : Context) : Command → Script Result
  | .create id kind => c.create id kind
  | .delete id => c.delete id
  | .shaders id vertex fragment => c.onProgram id (·.setShaders vertex fragment)
  | .size id storage => c.setSize id storage
  | .data id offset shape data => c.setData id offset shape data
  | .attribute id name type value =>
    match c.source value with
    | .error failure => c.refuse failure
    | .ok source => c.onProgram id (·.setAttribute name type source)
  | .uniform id name type value => c.onProgram id (·.setUniform name type (.floats value))
  | .texture id name image =>
    match c.texture image with
    | .error failure => c.refuse failure
    | .ok t => c.onProgram id (·.bindSampler name Texture.target t.handle)
  | .interpolation id min mag => c.onTexture id (·.setInterpolation min mag)
  | .wrapping id (s, t) => c.onTexture id (·.setWrapping s t)
  | .draw id mode selection =>
    match c.selection selection with
    | .error failure => c.refuse failure
    | .ok selection => c.onProgram id (·.draw mode selection)

/-- Executes a command, which is announced first. -/
def execute (c : Context) (command : Command) : Script Result := do
  Script.note (.executing command)
  c.carryOut command

/-- The announcement comes first, and the rest is what the command says. -/
theorem run_execute (c : Context) {σ : Type} [Device σ] (command : Command) (d : σ) :
    (c.execute command).run d =
      ⟨((c.carryOut command).run d).value, ((c.carryOut command).run d).device,
        .note (.executing command) :: ((c.carryOut command).run d).events⟩ := rfl

end DrawStream.Context
