import DrawStream.Proofs.Machine

/-! # What calls demand of the machine

A call speaks of objects without naming them: an upload goes to the current program, to
the buffer bound to a target, to the texture of the active unit.  So it matters what the
machine is in when the call comes.  This module says what is demanded then, of uploads to
programs (`UploadFits`), of draw calls (`DrawFits`), of buffers (`BufferFits`) and of
textures (`TextureFits`).  A demand is about the deed that the call is part of, so it says
that the call reaches the object that was meant. -/
namespace DrawStream

/-- Setting a uniform, or a sampler, which is one. -/
def Bench.Work.SetsUniform : Bench.Work → Prop
  | .setUniform .. | .bindSampler .. => True
  | _ => False

/-- The buffer that an object is. -/
def Object.buffer? : Object → Option Buffer
  | .vertexBuffer b | .indexBuffer b => some b
  | .texture _ | .program _ => none

/-- The attribute takes its numbers from this source. -/
def VertexAttribute.Takes (v : VertexAttribute) (type : AttributeType) :
    AttributeSource → Prop
  | .buffer handle stride offset =>
    v.enabled = true ∧ v.buffer = handle ∧ v.size = type.components ∧ v.type = type.number ∧
      v.stride = stride ∧ v.offset = offset
  | .constant values => v.enabled = false ∧ v.constant = values

/-- The storage of a texture as the machine knows it. -/
def TextureStorage.image (s : TextureStorage) : Image := ⟨s.height, s.width, s.format.number⟩

/-- The bytes that are read for rows of texels when every row begins at a multiple of the
alignment. -/
def Texture.paddedLength (alignment rows rowBytes : Nat) : Nat :=
  rows * ((rowBytes + alignment - 1) / alignment * alignment)

namespace Machine
variable (m : Machine) (e : Entry)

/-- The program is ready to draw: it is current, the samplers that were told their textures
find these textures at their units, and the attributes take their numbers from where they
were told to, unless several of them are in the same place. -/
structure Ready (p : Program) : Prop where
  current : m.current = p.handle
  samplers : ∀ location uniform object name target texture,
    m.uniforms p.handle location = some uniform →
      uniform.deed = some ⟨object, .bindSampler name target texture⟩ →
        ∃ unit : Nat, uniform.value = .ints [(unit : Int)] ∧ m.textures unit target = texture
  attributes : ∀ a ∈ p.cache.attributes,
    (∀ b ∈ p.cache.attributes, b.location = a.location → b.name = a.name) →
      (m.attributes a.location).Takes a.type a.source

/-- Values of uniforms reach the program that they are meant for. -/
def UploadFits : Prop :=
  match e.call with
  | .uniformFloats .. | .uniformInts .. | .uniformMatrix .. | .uniformInt .. =>
    ∃ p work, e.deed = some ⟨.program p, work⟩ ∧ work.SetsUniform ∧ m.current = p.handle
  | _ => True

/-- A program that draws is ready, and what is drawn, and from which indices, is what was
chosen. -/
def DrawFits : Prop :=
  match e.call with
  | .drawArrays mode first count =>
    ∃ p mode' first' count', e.deed = some ⟨.program p, .draw mode' (.range first' count')⟩ ∧
      mode = mode'.number ∧ first = first' ∧ count = count' ∧ m.Ready p
  | .drawElements mode count type =>
    ∃ p mode' buffer type' count',
      e.deed = some ⟨.program p, .draw mode' (.elements buffer type' count')⟩ ∧
        mode = mode'.number ∧ type = type'.number ∧ count = count' ∧ m.Ready p ∧
          m.buffers BufferTarget.elements.number = buffer
  | _ => True

/-- Storage and data reach the buffer that they are meant for, and data stays inside the
storage. -/
def BufferFits : Prop :=
  match e.call with
  | .bufferStorage target size _ =>
    ∃ object b, e.deed = some ⟨object, .bufferSetSize size⟩ ∧ object.buffer? = some b ∧
      m.buffers target = b.handle
  | .bufferWrite target offset length =>
    ∃ object b data, e.deed = some ⟨object, .bufferSetData offset data⟩ ∧
      object.buffer? = some b ∧ m.buffers target = b.handle ∧ length = data.byteLength ∧
        offset + length ≤ m.sizes b.handle
  | _ => True

/-- A block of texels reaches the texture that it is meant for and stays inside its storage.
Its rows lie as the alignment has it: without gaps, so that what is read is what is there. -/
structure TexelsFit (t : Texture) (offset shape : Extent) (data : Elements)
    (storage : TextureStorage) (length : Nat) : Prop where
  bound : m.activeTexture = t.handle
  allocated : t.storage = some storage
  image : m.images t.handle = some storage.image
  rows : offset.1 + shape.1 ≤ storage.height
  columns : offset.2 + shape.2 ≤ storage.width
  bytes : length = data.byteLength
  full : length = shape.1 * shape.2 * storage.format.components * data.type.byteSize
  aligned : ∃ alignment : Nat, m.alignment = alignment ∧
    alignment ∣ shape.2 * storage.format.components * data.type.byteSize ∧
    Texture.paddedLength alignment shape.1
      (shape.2 * storage.format.components * data.type.byteSize) = length

/-- Storage and texels reach the texture that they are meant for, and texels fit. -/
def TextureFits : Prop :=
  match e.call with
  | .textureStorage format width height =>
    ∃ t storage, e.deed = some ⟨.texture t, .textureSetSize storage⟩ ∧
      m.activeTexture = t.handle ∧ storage.image = ⟨height, width, format⟩
  | .textureWrite x y width height type length =>
    ∃ t storage offset shape data,
      e.deed = some ⟨.texture t, .textureSetData offset shape data⟩ ∧
        (y, x) = ((offset.1 : Int), (offset.2 : Int)) ∧
        (height, width) = ((shape.1 : Int), (shape.2 : Int)) ∧ type = data.type.number ∧
        m.TexelsFit t offset shape data storage length
  | _ => True

/-- All demands together. -/
structure Fits : Prop where
  upload : m.UploadFits e
  draw : m.DrawFits e
  buffer : m.BufferFits e
  texture : m.TextureFits e

end Machine
end DrawStream
