import DrawStream.Command.Reader
import DrawStream.Context.Queue
import DrawStream.Device.Recorder

/-! # The bench

On a bench a context and objects of one's own share one recorder.  A `Step` is one thing
done there: command text is handed to the context, an object is worked on directly, or
the recorder is told how to behave.  A step gives a `Report`: its answer, what came
about, and the state of the object it was done to. -/
namespace DrawStream

/-- A context and named objects at one recorder. -/
structure Bench where
  context : Context := {}
  named : List (String × Object) := []
  recorder : Recorder := {}

namespace Bench

/-- Work on an object of one's own. -/
inductive Work
  | activate
  | deactivate
  | delete
  /-- Make a program current, and give its handle. -/
  | activation
  | bufferSetSize (bytes : Nat)
  | bufferSetData (offset : Nat) (data : Elements)
  | textureSetSize (storage : TextureStorage)
  | textureSetData (offset shape : Extent) (data : Elements)
  | textureSetWrapping (s t : TextureWrap)
  | textureSetInterpolation (min mag : TextureFilter)
  | setShaders (vertex fragment : String)
  | setUniform (name : String) (type : UniformType) (value : UniformValue)
  | setAttribute (name : String) (type : AttributeType) (source : AttributeSource)
  /-- Attach another object, which must be a texture. -/
  | setTexture (name : String) (texture : String)
  | bindSampler (name : String) (target : Nat) (texture : Handle)
  | draw (mode : DrawMode) (selection : Selection)

/-- A change of the recorder's script. -/
inductive Scripting
  | failCompile (stage : Option Stage)
  | failLink (fail : Bool)
  | failValidation (fail : Bool)
  | failDraw (code : Option Nat)
  | pushError (code : Nat)

/-- One thing done on a bench. -/
inductive Step
  /-- Submit the commands of a text one by one; later ones are submitted even if one fails. -/
  | commands (text : String)
  | setDeferred (deferred : Bool)
  | executePending
  | object (id : Nat)
  | program (id : Nat)
  | script (change : Scripting)
  | takeError
  | uniformLocation (name : String)
  | attributeLocation (name : String)
  | checkErrors (checkpoint : String)
  | create (name : String) (kind : ObjectKind) (usage : Option BufferUsage)
  | work (on : String) (work : Work)

/-- What has become of one submitted command. -/
structure CommandReport where
  outcome : Outcome Unit
  pending : Nat
  /-- The object that the command addresses. -/
  object : Option Object
  events : List Event

/-- The answer to a step. -/
inductive Answer
  | done
  | number (n : Int)
  | flag (b : Bool)
  | state (object : Option Object)
  | failed (failure : Failure)
  | unreadable (fault : TextFault)
  | executed (outcome : Outcome Nat) (pending : Nat)
  | submitted (reports : List CommandReport)
  /-- There is no such object of one's own, or it is of another kind. -/
  | unsuited

/-- The answer of something that gives no value. -/
def Answer.ofOutcome : Outcome Unit → Answer
  | .ok () => done
  | .error failure => failed failure

/-- What has become of a step. -/
structure Report where
  answer : Answer
  events : List Event := []
  /-- The object that was worked on, as it is now; nothing if it has been deleted. -/
  object : Option Object := none

end Bench
end DrawStream
