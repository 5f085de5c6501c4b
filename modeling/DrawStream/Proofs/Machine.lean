import Mathlib.Logic.Function.Basic
import DrawStream.Bench.Basic

/-! # A machine that obeys recorded calls

A device is only known by what is asked of it.  A `Machine` is the state that a graphics
device would be in: which program is current, which unit is active, what is bound where,
where attributes take their numbers from, and what it holds for its objects (`Store`).
It has no other business than to give recorded calls a meaning: `obey` says what a call
does to it, and `run` what a whole record does.

Two things that matter to the meaning are not in a call itself, so an `Entry` adds them:
on whose behalf the call is made, that is, which work on which object (`Deed`), and whether
the device lets links succeed at the time.  The machine keeps the deed that set a uniform
together with its value. -/
namespace DrawStream

/-- Work on an object, which is given as it was before. -/
structure Deed where
  object : Object
  work : Bench.Work

/-- A recorded call and what came with it. -/
structure Entry where
  call : Call
  /-- The deed that the call is part of, if it is part of one. -/
  deed : Option Deed
  /-- A link of a program succeeds. -/
  links : Bool

/-- Where an attribute takes its numbers from. -/
structure VertexAttribute where
  /-- Numbers per vertex are read from a buffer. -/
  enabled : Bool := false
  /-- The buffer that was bound when the pointer was set. -/
  buffer : Handle := 0
  size : Int := 4
  type : Nat := 0x1406
  stride : Int := 0
  offset : Nat := 0
  /-- The numbers of an attribute that is not enabled. -/
  constant : List Single := []

/-- The value of a uniform. -/
structure Uniform where
  value : UniformValue
  /-- The deed that set it. -/
  deed : Option Deed

/-- The storage of a texture. -/
structure Image where
  height : Int
  width : Int
  format : Nat
  deriving DecidableEq

/-- What a device holds for its objects, whatever is bound. -/
structure Store where
  /-- The uniforms of a program by their locations. -/
  uniforms : Handle → Int → Option Uniform := fun _ _ => none
  /-- Bytes allocated for a buffer. -/
  sizes : Handle → Nat := fun _ => 0
  /-- What is allocated for a texture. -/
  images : Handle → Option Image := fun _ => none
  /-- The alignment of rows of uploaded texels. -/
  alignment : Int := Texture.defaultAlignment

/-- A graphics device that obeys. -/
structure Machine extends Store where
  /-- The current program. -/
  current : Handle := 0
  /-- The active texture unit. -/
  unit : Nat := 0
  /-- The texture bound to a target of a unit. -/
  textures : Nat → Nat → Handle := fun _ _ => 0
  /-- The buffer bound to a target. -/
  buffers : Nat → Handle := fun _ => 0
  attributes : Nat → VertexAttribute := fun _ => {}

namespace Machine
variable (m : Machine)

/-- Sets a uniform of the current program. -/
def setUniform (deed : Option Deed) (location : Int) (value : UniformValue) : Machine :=
  { m with
    uniforms := Function.update m.uniforms m.current
      (Function.update (m.uniforms m.current) location (some ⟨value, deed⟩)) }

/-- Changes an attribute. -/
def setAttribute (index : Nat) (change : VertexAttribute → VertexAttribute) : Machine :=
  { m with attributes := Function.update m.attributes index (change (m.attributes index)) }

/-- Binds a texture to a target of the active unit. -/
def bindTexture (target : Nat) (texture : Handle) : Machine :=
  { m with
    textures := Function.update m.textures m.unit
      (Function.update (m.textures m.unit) target texture) }

/-- Binds a buffer to a target. -/
def bindBuffer (target : Nat) (buffer : Handle) : Machine :=
  { m with buffers := Function.update m.buffers target buffer }

@[simp] theorem buffers_bindBuffer (target : Nat) (buffer : Handle) :
    (m.bindBuffer target buffer).buffers target = buffer := Function.update_self ..

/-- The texture that requests for the two-dimensional target speak of. -/
def activeTexture : Handle := m.textures m.unit Device.texture2D

/-- Does what a call says. -/
def obey (e : Entry) : Machine :=
  match e.call with
  | .createProgram program =>
    { m with uniforms := Function.update m.uniforms program fun _ => none }
  | .useProgram program => { m with current := program }
  | .linkProgram program =>
    if e.links then { m with uniforms := Function.update m.uniforms program fun _ => none }
    else m
  | .uniformFloats location _ data | .uniformMatrix location _ data =>
    m.setUniform e.deed location (.floats data)
  | .uniformInts location _ data => m.setUniform e.deed location (.ints data)
  | .uniformInt location value => m.setUniform e.deed location (.ints [value])
  | .enableAttribute index => m.setAttribute index ({ · with enabled := true })
  | .disableAttribute index => m.setAttribute index ({ · with enabled := false })
  | .attributePointer index size type stride offset =>
    m.setAttribute index
      ({ · with buffer := m.buffers BufferTarget.array.number, size, type, stride, offset })
  | .attributeValue index values => m.setAttribute index ({ · with constant := values })
  | .createBuffer buffer => { m with sizes := Function.update m.sizes buffer 0 }
  | .deleteBuffer buffer =>
    { m with
      buffers := fun target => if m.buffers target = buffer then 0 else m.buffers target
      sizes := Function.update m.sizes buffer 0 }
  | .bindBuffer target buffer => m.bindBuffer target buffer
  | .bufferStorage target size _ =>
    { m with sizes := Function.update m.sizes (m.buffers target) size }
  | .createTexture texture => { m with images := Function.update m.images texture none }
  | .deleteTexture texture =>
    { m with
      textures := fun unit target =>
        if m.textures unit target = texture then 0 else m.textures unit target
      images := Function.update m.images texture none }
  | .activeTexture unit => { m with unit }
  | .bindTexture target texture => m.bindTexture target texture
  | .textureStorage format width height =>
    { m with images := Function.update m.images m.activeTexture (some ⟨height, width, format⟩) }
  | .pixelStore parameter value =>
    if parameter = Device.unpackAlignment then { m with alignment := value } else m
  | .deleteProgram _ | .validateProgram _ | .createShader .. | .shaderSource _
  | .compileShader _ | .attachShader .. | .detachShader .. | .deleteShader _
  | .uniformLocation _ | .attributeLocation _ | .drawArrays .. | .drawElements .. | .getError
  | .bufferWrite .. | .textureParameter .. | .textureWrite .. => m

/-- Obeys one call after the other. -/
def run (entries : List Entry) : Machine := entries.foldl obey m

/-- Every call finds the machine as is demanded, when the calls are obeyed in turn. -/
def Throughout (demand : Machine → Entry → Prop) : Machine → List Entry → Prop
  | _, [] => True
  | m, e :: rest => demand m e ∧ Throughout demand (m.obey e) rest

@[simp] theorem run_nil : m.run [] = m := rfl

@[simp] theorem run_cons (e : Entry) (rest : List Entry) :
    m.run (e :: rest) = (m.obey e).run rest := rfl

theorem run_append (xs ys : List Entry) : m.run (xs ++ ys) = (m.run xs).run ys :=
  List.foldl_append

variable {m} {demand demand' : Machine → Entry → Prop}

theorem throughout_append {xs ys : List Entry} :
    Throughout demand m (xs ++ ys) ↔ Throughout demand m xs ∧ Throughout demand (m.run xs) ys := by
  induction xs generalizing m with
  | nil => simp [Throughout]
  | cons e rest ih => simp only [List.cons_append, Throughout, run_cons, ih, and_assoc]

theorem Throughout.mono {entries : List Entry} (h : Throughout demand m entries)
    (himp : ∀ m e, demand m e → demand' m e) : Throughout demand' m entries := by
  induction entries generalizing m with
  | nil => trivial
  | cons e rest ih => exact ⟨himp _ _ h.1, ih h.2⟩

end Machine
end DrawStream
