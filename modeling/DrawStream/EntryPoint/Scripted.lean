import DrawStream.Device.Basic
import DrawStream.EntryPoint.Lowering

/-! # A graphics library without graphics

It answers from a script, writes every call down, and writes texts as a library does: as
many bytes as fit with a zero byte behind them.  Since requests come to calls of entry
points, it stands in for a device.  Tables are gone through as their entries have come. -/
namespace DrawStream

/-- The script of a graphics library, and what has become of it. -/
structure ScriptedLibrary where
  /-- What programs and shaders answer for a parameter; 0 for all others. -/
  parameters : List (Nat × Int) := []
  /-- The text of every log. -/
  log : String := ""
  /-- The variables of every program. -/
  declared : List Variable := []
  /-- The locations of names. -/
  locations : List (String × Int) := []
  /-- The handle given out last. -/
  lastHandle : Handle := 0
  /-- The error codes to be reported, oldest first. -/
  errors : List Nat := []
  /-- The length to be reported of every text, in place of the true one. -/
  reported : Option Int := none
  /-- The calls so far. -/
  calls : List EntryPoint.Form := []

namespace ScriptedLibrary

/-- Writes a text into memory of `room` bytes. -/
def write (l : ScriptedLibrary) (text : String) (room : Int) : Written :=
  let bytes := (Text.Utf8.encode text).take (room - 1).toNat
  { bytes := if 0 < room then bytes ++ [0] else bytes,
    length := l.reported.getD bytes.length }

/-- Writes a variable; there is nothing to write past the last one. -/
def writeVariable (l : ScriptedLibrary) (index : Nat) (room : Int) : WrittenVariable :=
  match l.declared[index]? with
  | some v => ⟨l.write v.name room, v.type, v.size⟩
  | none => {}

/-- Gives out a handle. -/
def create (l : ScriptedLibrary) : Handle × ScriptedLibrary :=
  (l.lastHandle + 1, { l with lastHandle := l.lastHandle + 1 })

/-- What a call comes to. -/
def result : {β : Type} → EntryPoint β → ScriptedLibrary → β × ScriptedLibrary
  | _, .createProgram, l | _, .createShader _, l | _, .createBuffers _, l
  | _, .createTextures _, l => l.create
  | _, .programParameter _ parameter, l | _, .shaderParameter _ parameter, l =>
    ((l.parameters.lookup parameter).getD 0, l)
  | _, .programLog _ room, l | _, .shaderLog _ room, l => (l.write l.log room, l)
  | _, .activeAttribute _ index room, l | _, .activeUniform _ index room, l =>
    (l.writeVariable index room, l)
  | _, .uniformLocation _ name, l | _, .attributeLocation _ name, l =>
    ((l.locations.lookup name).getD Device.nowhere, l)
  | _, .getError, l =>
    match l.errors with
    | [] => (Device.noError, l)
    | code :: rest => (code, { l with errors := rest })
  | _, .deleteProgram _, l | _, .useProgram _, l | _, .linkProgram _, l
  | _, .validateProgram _, l | _, .shaderSource .., l | _, .compileShader _, l
  | _, .attachShader .., l | _, .detachShader .., l | _, .deleteShader _, l
  | _, .uniformFloats .., l | _, .uniformInts .., l | _, .uniformMatrices .., l
  | _, .uniformInt .., l | _, .enableAttribute _, l | _, .disableAttribute _, l
  | _, .attributePointer .., l | _, .attributeFloats .., l | _, .drawArrays .., l
  | _, .drawElements .., l | _, .deleteBuffers .., l | _, .bindBuffer .., l
  | _, .bufferData .., l | _, .bufferPart .., l | _, .deleteTextures .., l
  | _, .activeTexture _, l | _, .bindTexture .., l | _, .textureParameter .., l
  | _, .textureImage .., l | _, .texturePart .., l | _, .pixelStore .., l => ((), l)

/-- Answers a call and writes it down. -/
def answer {β : Type} (e : EntryPoint β) (l : ScriptedLibrary) : β × ScriptedLibrary :=
  result e { l with calls := l.calls ++ [e.form] }

instance : Device ScriptedLibrary where
  answer r l := r.lower.play answer l
  pending l := l.errors.length
  arrange l := ([], l)

end ScriptedLibrary
end DrawStream
