import DrawStream.Device.Basic
import DrawStream.Device.Location

/-! # A device without graphics

The recorder answers every request from a script: which variables a linked program
has, whether compiling, linking and validating succeed, and which errors wait to be
reported.  It numbers all its objects in one sequence; the numbers have no bound, so they are
those of 32 bits as long as there are fewer than 2³² objects.  A permissive recorder finds a
location for every name. -/
namespace DrawStream

/-- The state of a recorder. -/
structure Recorder where
  /-- The handle given out last. -/
  lastHandle : Handle := 0
  /-- The attributes that every linked program has. -/
  attributes : List Variable := []
  /-- The uniforms that every linked program has. -/
  uniforms : List Variable := []
  /-- The stage whose shaders do not compile. -/
  failingStage : Option Stage := none
  /-- The stages of the shaders created so far. -/
  stages : List (Handle × Stage) := []
  failLink : Bool := false
  failValidation : Bool := false
  /-- The error codes to be reported, oldest first. -/
  errors : List Nat := []
  /-- The error that every draw call raises. -/
  drawError : Option Nat := none
  /-- Names that are not declared get a location of their own. -/
  permissive : Bool := false
  /-- The locations given to names that are not declared. -/
  assigned : List (String × Int) := []
  /-- The orders in which tables are gone through, one after the other.  Behind these, entries
  stay in the order in which they have come. -/
  arrangements : List Arrangement := []

namespace Recorder

/-- The first location of names that are not declared. -/
def firstAssigned : Int := 1024

/-- Gives out a handle. -/
def create (r : Recorder) : Handle × Recorder :=
  (r.lastHandle + 1, { r with lastHandle := r.lastHandle + 1 })

/-- The location of a name: that of the declaration, or else the one given to the name. -/
def find (r : Recorder) (declared : List Variable) (name : String) : Int × Recorder :=
  let location := Device.locate declared name
  if 0 ≤ location ∨ ¬ r.permissive then (location, r)
  else
    match r.assigned.lookup name with
    | some location => (location, r)
    | none =>
      let location := Device.wrapLocation (firstAssigned + r.assigned.length)
      (location, { r with assigned := r.assigned ++ [(name, location)] })

/-- A draw call raises the scripted error. -/
def raise (r : Recorder) : Recorder :=
  match r.drawError with
  | some code => { r with errors := r.errors ++ [code] }
  | none => r

/-- Takes the oldest error code. -/
def takeError (r : Recorder) : Nat × Recorder :=
  match r.errors with
  | [] => (Device.noError, r)
  | code :: rest => (code, { r with errors := rest })

/-- Takes the order of the next table. -/
def arrange (r : Recorder) : Arrangement × Recorder :=
  (r.arrangements.headD [], { r with arrangements := r.arrangements.tail })

/-- What the recorder tells about a program that failed. -/
def programLog (r : Recorder) : String :=
  if r.failLink then "error: undefined reference to main"
  else if r.failValidation then "error: sampler units conflict"
  else ""

/-- A shader compiles unless its stage is the failing one. -/
def compiles (r : Recorder) (shader : Handle) : Bool :=
  match r.failingStage with
  | some stage => r.stages.lookup shader != some stage
  | none => true

/-- The variable at a place of a list. -/
def variableAt (declared : List Variable) (index : Nat) : Variable :=
  declared.getD index ⟨"", 0, 0⟩

/-- Answers a request. -/
def answer : {β : Type} → Request β → Recorder → β × Recorder
  | _, .createProgram, r | _, .createBuffer, r | _, .createTexture, r => r.create
  | _, .createShader stage, r =>
    let (shader, r) := r.create
    (shader, { r with stages := (shader, stage) :: r.stages })
  | _, .linkStatus _, r => (!r.failLink, r)
  | _, .validateStatus _, r => (!r.failValidation, r)
  | _, .programLog _, r => (r.programLog, r)
  | _, .compileStatus shader, r => (r.compiles shader, r)
  | _, .shaderLog _, r => ("0:1: syntax error", r)
  | _, .attributeCount _, r => (r.attributes.length, r)
  | _, .activeAttribute _ index, r => (variableAt r.attributes index, r)
  | _, .uniformCount _, r => (r.uniforms.length, r)
  | _, .activeUniform _ index, r => (variableAt r.uniforms index, r)
  | _, .uniformLocation _ name, r => r.find r.uniforms name
  | _, .attributeLocation _ name, r => r.find r.attributes name
  | _, .drawArrays .., r | _, .drawElements .., r => ((), r.raise)
  | _, .takeError, r => r.takeError
  | _, .deleteProgram _, r | _, .useProgram _, r | _, .linkProgram _, r
  | _, .validateProgram _, r | _, .shaderSource .., r | _, .compileShader _, r
  | _, .attachShader .., r | _, .detachShader .., r | _, .deleteShader _, r
  | _, .uniformFloats .., r | _, .uniformInts .., r | _, .uniformMatrix .., r
  | _, .uniformInt .., r | _, .enableAttribute _, r | _, .disableAttribute _, r
  | _, .attributePointer .., r | _, .attributeValue .., r | _, .deleteBuffer _, r
  | _, .bindBuffer .., r | _, .bufferStorage .., r | _, .bufferWrite .., r
  | _, .deleteTexture _, r | _, .activeTexture _, r | _, .bindTexture .., r
  | _, .textureParameter .., r | _, .textureStorage .., r | _, .textureWrite .., r
  | _, .pixelStore .., r => ((), r)

instance : Device Recorder where
  answer := answer
  pending r := r.errors.length
  arrange := arrange

end Recorder
end DrawStream
