import DrawStream.Elements
import DrawStream.Device.Options

/-! # What can be asked of a graphics device

`Request β` are the requests that a device answers with a `β`.  Handles are the numbers
under which a device knows its objects; locations are signed, and a negative one says
that there is none. -/
namespace DrawStream

/-- The number of an object of a device. -/
abbrev Handle := Nat

/-- A uniform or attribute that a linked program reports. -/
structure Variable where
  name : String
  type : Nat
  size : Int
  deriving DecidableEq, Repr

/-- A request to a graphics device, with the type of its answer. -/
inductive Request : Type → Type
  | createProgram : Request Handle
  | deleteProgram (program : Handle) : Request Unit
  | useProgram (program : Handle) : Request Unit
  | linkProgram (program : Handle) : Request Unit
  | linkStatus (program : Handle) : Request Bool
  | validateProgram (program : Handle) : Request Unit
  | validateStatus (program : Handle) : Request Bool
  | programLog (program : Handle) : Request String
  | createShader (stage : Stage) : Request Handle
  | shaderSource (shader : Handle) (source : String) : Request Unit
  | compileShader (shader : Handle) : Request Unit
  | compileStatus (shader : Handle) : Request Bool
  | shaderLog (shader : Handle) : Request String
  | attachShader (program shader : Handle) : Request Unit
  | detachShader (program shader : Handle) : Request Unit
  | deleteShader (shader : Handle) : Request Unit
  | attributeCount (program : Handle) : Request Nat
  | activeAttribute (program : Handle) (index : Nat) : Request Variable
  | uniformCount (program : Handle) : Request Nat
  | activeUniform (program : Handle) (index : Nat) : Request Variable
  | uniformLocation (program : Handle) (name : String) : Request Int
  | attributeLocation (program : Handle) (name : String) : Request Int
  | uniformFloats (location : Int) (components : Nat) (data : List Single) : Request Unit
  | uniformInts (location : Int) (components : Nat) (data : List Int) : Request Unit
  | uniformMatrix (location : Int) (dim : Nat) (data : List Single) : Request Unit
  | uniformInt (location : Int) (value : Int) : Request Unit
  | enableAttribute (index : Nat) : Request Unit
  | disableAttribute (index : Nat) : Request Unit
  | attributePointer (index : Nat) (size : Int) (type : Nat) (normalized : Bool) (stride : Int)
      (offset : Nat) : Request Unit
  | attributeValue (index : Nat) (values : List Single) : Request Unit
  | drawArrays (mode : Nat) (first count : Int) : Request Unit
  | drawElements (mode : Nat) (count : Int) (type offset : Nat) : Request Unit
  /-- Takes the oldest error code; `Device.noError` if there is none. -/
  | takeError : Request Nat
  | createBuffer : Request Handle
  | deleteBuffer (buffer : Handle) : Request Unit
  | bindBuffer (target : Nat) (buffer : Handle) : Request Unit
  | bufferStorage (target size usage : Nat) : Request Unit
  | bufferWrite (target offset : Nat) (data : Elements) : Request Unit
  | createTexture : Request Handle
  | deleteTexture (texture : Handle) : Request Unit
  | activeTexture (unit : Nat) : Request Unit
  | bindTexture (target : Nat) (texture : Handle) : Request Unit
  | textureParameter (target parameter : Nat) (value : Int) : Request Unit
  | textureStorage (target format : Nat) (width height : Int) : Request Unit
  | textureWrite (target : Nat) (x y width height : Int) (format type : Nat) (data : Elements) :
      Request Unit
  | pixelStore (parameter : Nat) (value : Int) : Request Unit

end DrawStream
