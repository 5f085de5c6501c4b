import DrawStream.Binary.Signed
import DrawStream.Device.Location
import DrawStream.Device.Numbers
import DrawStream.Dialogue
import DrawStream.EntryPoint.Basic
import DrawStream.Text.Utf8

/-! # Requests as calls of entry points

`Request.lower` says which entry points a device request comes to when a graphics
library stands behind the device.  Most requests are one call with the same numbers.
Uploads choose the entry point of their width; texts are read back from memory that is
one byte larger than the library asks for; and a name that holds a zero byte, which no
library could be given, is nowhere without any call. -/
namespace DrawStream

/-! ## Parameters of programs and shaders -/

namespace Device

/-- Parameter: did the shader compile. -/
def compileStatus : Nat := 0x8B81

/-- Parameter: did the program link. -/
def linkStatus : Nat := 0x8B82

/-- Parameter: is the program valid. -/
def validateStatus : Nat := 0x8B83

/-- Parameter: bytes that the log takes. -/
def logLength : Nat := 0x8B84

/-- Parameter: how many uniforms there are. -/
def activeUniforms : Nat := 0x8B86

/-- Parameter: bytes that the longest name of a uniform takes. -/
def uniformNameLength : Nat := 0x8B87

/-- Parameter: how many attributes there are. -/
def activeAttributes : Nat := 0x8B89

/-- Parameter: bytes that the longest name of an attribute takes. -/
def attributeNameLength : Nat := 0x8B8A

/-- The number of the first texture unit. -/
def firstTextureUnit : Nat := 0x84C0

end Device

/-! ## Texts in memory -/

/-- What memory of `size` spaces shows up to the length that the library reports, after
the library has written into it. -/
def Written.shown (w : Written) (size : Nat) : List UInt8 :=
  let length := min w.length.toNat size
  w.bytes.take length ++ List.replicate (length - w.bytes.length) 0x20

/-- That memory as text. -/
def Written.text (w : Written) (size : Nat) : String := Text.Utf8.lossy (w.shown size)

namespace Request

/-- The size of the memory for a text that is said to take `length` bytes. -/
def roomFor (length : Int) : Nat := length.toNat + 1

/-- How many values of `size` numbers a list holds, as a library takes it. -/
def valueCount (length size : Nat) : Int := Binary.signed 32 (length / max size 1 : Nat)

/-- Reads a log: `lengthOf` asks for its length, `write` has it written. -/
def lowerLog (lengthOf : EntryPoint Int) (write : Int → EntryPoint Written) :
    Dialogue EntryPoint String := do
  let size := roomFor (← .question lengthOf)
  let w ← .question (write (Binary.signed 32 size))
  return w.text size

/-- Reads a variable: `lengthOf` asks for the length of the longest name, `write` has the
variable written. -/
def lowerVariable (lengthOf : EntryPoint Int) (write : Int → EntryPoint WrittenVariable) :
    Dialogue EntryPoint Variable := do
  let length := max (← .question lengthOf) 1
  let w ← .question (write length)
  return ⟨w.name.text (roomFor length), w.type, w.size⟩

/-- Looks a name up unless it holds a zero byte. -/
def lowerLocation (name : String) (find : EntryPoint Int) : Dialogue EntryPoint Int :=
  if name.toList.contains '\x00' then .done Device.nowhere else .question find

/-- Asks whether a parameter is set. -/
def lowerStatus (e : EntryPoint Int) : Dialogue EntryPoint Bool := do
  return (← .question e) != 0

/-- Asks for a count; one below zero counts as none. -/
def lowerCount (e : EntryPoint Int) : Dialogue EntryPoint Nat := do
  return (← .question e).toNat

/-- The calls that a request comes to. -/
def lower : {β : Type} → Request β → Dialogue EntryPoint β
  | _, createProgram => .question .createProgram
  | _, deleteProgram p => .question (.deleteProgram p)
  | _, useProgram p => .question (.useProgram p)
  | _, linkProgram p => .question (.linkProgram p)
  | _, linkStatus p => lowerStatus (.programParameter p Device.linkStatus)
  | _, validateProgram p => .question (.validateProgram p)
  | _, validateStatus p => lowerStatus (.programParameter p Device.validateStatus)
  | _, programLog p => lowerLog (.programParameter p Device.logLength) (.programLog p)
  | _, createShader stage => .question (.createShader stage.number)
  | _, shaderSource s source =>
    .question (.shaderSource s 1 source (Binary.signed 32 source.utf8ByteSize))
  | _, compileShader s => .question (.compileShader s)
  | _, compileStatus s => lowerStatus (.shaderParameter s Device.compileStatus)
  | _, shaderLog s => lowerLog (.shaderParameter s Device.logLength) (.shaderLog s)
  | _, attachShader p s => .question (.attachShader p s)
  | _, detachShader p s => .question (.detachShader p s)
  | _, deleteShader s => .question (.deleteShader s)
  | _, attributeCount p => lowerCount (.programParameter p Device.activeAttributes)
  | _, activeAttribute p i =>
    lowerVariable (.programParameter p Device.attributeNameLength) (.activeAttribute p i)
  | _, uniformCount p => lowerCount (.programParameter p Device.activeUniforms)
  | _, activeUniform p i =>
    lowerVariable (.programParameter p Device.uniformNameLength) (.activeUniform p i)
  | _, uniformLocation p name => lowerLocation name (.uniformLocation p name)
  | _, attributeLocation p name => lowerLocation name (.attributeLocation p name)
  | _, uniformFloats location n data =>
    .question (.uniformFloats (.ofComponents n) location (valueCount data.length n) data)
  | _, uniformInts location n data =>
    .question (.uniformInts (.ofComponents n) location (valueCount data.length n) data)
  | _, uniformMatrix location dim data =>
    .question (.uniformMatrices (.ofDimension dim) location
      (valueCount data.length (dim * dim)) 0 data)
  | _, uniformInt location value => .question (.uniformInt location value)
  | _, enableAttribute i => .question (.enableAttribute i)
  | _, disableAttribute i => .question (.disableAttribute i)
  | _, attributePointer i size type normalized stride offset =>
    .question (.attributePointer i size type normalized.toNat stride offset)
  | _, attributeValue i values =>
    if values.isEmpty then .done ()
    else .question (.attributeFloats (.ofComponents values.length) i values)
  | _, drawArrays mode first count => .question (.drawArrays mode first count)
  | _, drawElements mode count type offset => .question (.drawElements mode count type offset)
  | _, takeError => .question .getError
  | _, createBuffer => .question (.createBuffers 1)
  | _, deleteBuffer b => .question (.deleteBuffers 1 b)
  | _, bindBuffer target b => .question (.bindBuffer target b)
  | _, bufferStorage target size usage =>
    .question (.bufferData target (Binary.signed 64 size) none usage)
  | _, bufferWrite target offset data =>
    .question (.bufferPart target (Binary.signed 64 offset)
      (Binary.signed 64 data.byteLength) data.bytes)
  | _, createTexture => .question (.createTextures 1)
  | _, deleteTexture t => .question (.deleteTextures 1 t)
  | _, activeTexture unit =>
    .question (.activeTexture ((Device.firstTextureUnit + unit) % 0x100000000))
  | _, bindTexture target t => .question (.bindTexture target t)
  | _, textureParameter target parameter value =>
    .question (.textureParameter target parameter value)
  | _, textureStorage target format width height =>
    .question (.textureImage target 0 (Binary.signed 32 format) width height 0 format
      ElementType.u8.number none)
  | _, textureWrite target x y width height format type data =>
    .question (.texturePart target 0 x y width height format type data.bytes)
  | _, pixelStore parameter value => .question (.pixelStore parameter value)

end Request
end DrawStream
