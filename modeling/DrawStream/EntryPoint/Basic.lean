import DrawStream.Device.Request

/-! # The entry points of a graphics library

A device request is what this library means; an entry point is how a graphics library
is called.  There each upload has a width of its own, sizes and offsets have a sign,
texts are written into memory that the caller provides, and objects are created and
deleted by the dozen.  `EntryPoint β` are the calls whose results come to a `β`. -/
namespace DrawStream

/-- How many numbers a single value takes in an upload. -/
inductive Width
  | one | two | three | four
  deriving DecidableEq, Repr

namespace Width

/-- The width as a number. -/
def toNat : Width → Nat
  | one => 1
  | two => 2
  | three => 3
  | four => 4

/-- The width of values with so many components; any other count has the widest. -/
def ofComponents : Nat → Width
  | 1 => one
  | 2 => two
  | 3 => three
  | _ => four

/-- The width of square matrices of a dimension; any other dimension has the widest. -/
def ofDimension : Nat → Width
  | 2 => two
  | 3 => three
  | _ => four

end Width

/-- What a library leaves in memory that it was given for a text. -/
structure Written where
  /-- The bytes at the front of the memory; those behind them are as they were. -/
  bytes : List UInt8 := []
  /-- How many bytes of text there are, by the library's account. -/
  length : Int := 0
  deriving DecidableEq

/-- What a library leaves where it was asked for a variable. -/
structure WrittenVariable where
  name : Written := {}
  type : Nat := 0
  size : Int := 0
  deriving DecidableEq

/-- A call of an entry point, with the type of what it comes to. -/
inductive EntryPoint : Type → Type
  | createProgram : EntryPoint Handle
  | deleteProgram (program : Handle) : EntryPoint Unit
  | useProgram (program : Handle) : EntryPoint Unit
  | linkProgram (program : Handle) : EntryPoint Unit
  | validateProgram (program : Handle) : EntryPoint Unit
  | programParameter (program : Handle) (parameter : Nat) : EntryPoint Int
  | programLog (program : Handle) (room : Int) : EntryPoint Written
  | createShader (type : Nat) : EntryPoint Handle
  | shaderSource (shader : Handle) (count : Int) (text : String) (length : Int) : EntryPoint Unit
  | compileShader (shader : Handle) : EntryPoint Unit
  | shaderParameter (shader : Handle) (parameter : Nat) : EntryPoint Int
  | shaderLog (shader : Handle) (room : Int) : EntryPoint Written
  | attachShader (program shader : Handle) : EntryPoint Unit
  | detachShader (program shader : Handle) : EntryPoint Unit
  | deleteShader (shader : Handle) : EntryPoint Unit
  | activeAttribute (program : Handle) (index : Nat) (room : Int) : EntryPoint WrittenVariable
  | activeUniform (program : Handle) (index : Nat) (room : Int) : EntryPoint WrittenVariable
  | uniformLocation (program : Handle) (name : String) : EntryPoint Int
  | attributeLocation (program : Handle) (name : String) : EntryPoint Int
  | uniformFloats (width : Width) (location count : Int) (data : List Single) : EntryPoint Unit
  | uniformInts (width : Width) (location count : Int) (data : List Int) : EntryPoint Unit
  | uniformMatrices (width : Width) (location count : Int) (transpose : Nat)
      (data : List Single) : EntryPoint Unit
  | uniformInt (location value : Int) : EntryPoint Unit
  | enableAttribute (index : Nat) : EntryPoint Unit
  | disableAttribute (index : Nat) : EntryPoint Unit
  | attributePointer (index : Nat) (size : Int) (type normalized : Nat) (stride : Int)
      (offset : Nat) : EntryPoint Unit
  | attributeFloats (width : Width) (index : Nat) (data : List Single) : EntryPoint Unit
  | drawArrays (mode : Nat) (first count : Int) : EntryPoint Unit
  | drawElements (mode : Nat) (count : Int) (type offset : Nat) : EntryPoint Unit
  | getError : EntryPoint Nat
  | createBuffers (count : Int) : EntryPoint Handle
  | deleteBuffers (count : Int) (buffer : Handle) : EntryPoint Unit
  | bindBuffer (target : Nat) (buffer : Handle) : EntryPoint Unit
  /-- Storage with the given contents, or with none. -/
  | bufferData (target : Nat) (size : Int) (data : Option (List UInt8)) (usage : Nat) :
      EntryPoint Unit
  | bufferPart (target : Nat) (offset size : Int) (data : List UInt8) : EntryPoint Unit
  | createTextures (count : Int) : EntryPoint Handle
  | deleteTextures (count : Int) (texture : Handle) : EntryPoint Unit
  | activeTexture (unit : Nat) : EntryPoint Unit
  | bindTexture (target : Nat) (texture : Handle) : EntryPoint Unit
  | textureParameter (target parameter : Nat) (value : Int) : EntryPoint Unit
  /-- Storage with the given contents, or with none. -/
  | textureImage (target : Nat) (level internalFormat width height border : Int)
      (format type : Nat) (data : Option (List UInt8)) : EntryPoint Unit
  | texturePart (target : Nat) (level x y width height : Int) (format type : Nat)
      (data : List UInt8) : EntryPoint Unit
  | pixelStore (parameter : Nat) (value : Int) : EntryPoint Unit

namespace EntryPoint

/-! ## What a call reads -/

/-- How many numbers an upload of `count` values reads, each of `size` numbers. -/
def reach (count : Int) (size : Nat) : Nat := count.toNat * size

/-- The memory that a call is given and how much of it the call reads, in numbers. -/
def memory : {β : Type} → EntryPoint β → Option (Nat × Nat)
  | _, uniformFloats width _ count data => some (data.length, reach count width.toNat)
  | _, uniformInts width _ count data => some (data.length, reach count width.toNat)
  | _, uniformMatrices width _ count _ data =>
    some (data.length, reach count (width.toNat * width.toNat))
  | _, attributeFloats width _ data => some (data.length, width.toNat)
  | _, _ => none

/-! ## Calls as text -/

/-- An argument of a call as it is written down. -/
inductive Argument
  | whole (n : Int)
  | flag (b : Bool)
  | text (s : String)
  | wholes (ns : List Int)
  | singles (xs : List Single)
  deriving DecidableEq

/-- A call as it is written down: the entry point's name, and the arguments. -/
structure Form where
  name : String
  arguments : List Argument
  deriving DecidableEq

private def num (n : Nat) : Argument := .whole n

private def byteList (bytes : List UInt8) : Argument := .wholes (bytes.map fun b => b.toNat)

/-- Writes a call down.  Of memory, the numbers that the call reads are shown, or only
whether there is any. -/
def form : {β : Type} → EntryPoint β → Form
  | _, createProgram => ⟨"CreateProgram", []⟩
  | _, deleteProgram p => ⟨"DeleteProgram", [num p]⟩
  | _, useProgram p => ⟨"UseProgram", [num p]⟩
  | _, linkProgram p => ⟨"LinkProgram", [num p]⟩
  | _, validateProgram p => ⟨"ValidateProgram", [num p]⟩
  | _, programParameter p parameter => ⟨"GetProgramiv", [num p, num parameter]⟩
  | _, programLog p room => ⟨"GetProgramInfoLog", [num p, .whole room]⟩
  | _, createShader type => ⟨"CreateShader", [num type]⟩
  | _, shaderSource s count text length =>
    ⟨"ShaderSource", [num s, .whole count, .text text, .whole length]⟩
  | _, compileShader s => ⟨"CompileShader", [num s]⟩
  | _, shaderParameter s parameter => ⟨"GetShaderiv", [num s, num parameter]⟩
  | _, shaderLog s room => ⟨"GetShaderInfoLog", [num s, .whole room]⟩
  | _, attachShader p s => ⟨"AttachShader", [num p, num s]⟩
  | _, detachShader p s => ⟨"DetachShader", [num p, num s]⟩
  | _, deleteShader s => ⟨"DeleteShader", [num s]⟩
  | _, activeAttribute p i room => ⟨"GetActiveAttrib", [num p, num i, .whole room]⟩
  | _, activeUniform p i room => ⟨"GetActiveUniform", [num p, num i, .whole room]⟩
  | _, uniformLocation p name => ⟨"GetUniformLocation", [num p, .text name]⟩
  | _, attributeLocation p name => ⟨"GetAttribLocation", [num p, .text name]⟩
  | _, uniformFloats w location count data =>
    ⟨"Uniform" ++ toString w.toNat ++ "fv",
      [.whole location, .whole count, .singles (data.take (reach count w.toNat))]⟩
  | _, uniformInts w location count data =>
    ⟨"Uniform" ++ toString w.toNat ++ "iv",
      [.whole location, .whole count, .wholes (data.take (reach count w.toNat))]⟩
  | _, uniformMatrices w location count transpose data =>
    ⟨"UniformMatrix" ++ toString w.toNat ++ "fv",
      [.whole location, .whole count, num transpose,
        .singles (data.take (reach count (w.toNat * w.toNat)))]⟩
  | _, uniformInt location value => ⟨"Uniform1i", [.whole location, .whole value]⟩
  | _, enableAttribute i => ⟨"EnableVertexAttribArray", [num i]⟩
  | _, disableAttribute i => ⟨"DisableVertexAttribArray", [num i]⟩
  | _, attributePointer i size type normalized stride offset =>
    ⟨"VertexAttribPointer",
      [num i, .whole size, num type, num normalized, .whole stride, num offset]⟩
  | _, attributeFloats w i data =>
    ⟨"VertexAttrib" ++ toString w.toNat ++ "fv", [num i, .singles (data.take w.toNat)]⟩
  | _, drawArrays mode first count => ⟨"DrawArrays", [num mode, .whole first, .whole count]⟩
  | _, drawElements mode count type offset =>
    ⟨"DrawElements", [num mode, .whole count, num type, num offset]⟩
  | _, getError => ⟨"GetError", []⟩
  | _, createBuffers n => ⟨"GenBuffers", [.whole n]⟩
  | _, deleteBuffers n b => ⟨"DeleteBuffers", [.whole n, num b]⟩
  | _, bindBuffer target b => ⟨"BindBuffer", [num target, num b]⟩
  | _, bufferData target size data usage =>
    ⟨"BufferData", [num target, .whole size, .flag data.isNone, num usage]⟩
  | _, bufferPart target offset size data =>
    ⟨"BufferSubData", [num target, .whole offset, .whole size, byteList data]⟩
  | _, createTextures n => ⟨"GenTextures", [.whole n]⟩
  | _, deleteTextures n t => ⟨"DeleteTextures", [.whole n, num t]⟩
  | _, activeTexture unit => ⟨"ActiveTexture", [num unit]⟩
  | _, bindTexture target t => ⟨"BindTexture", [num target, num t]⟩
  | _, textureParameter target parameter value =>
    ⟨"TexParameteri", [num target, num parameter, .whole value]⟩
  | _, textureImage target level internalFormat width height border format type data =>
    ⟨"TexImage2D", [num target, .whole level, .whole internalFormat, .whole width,
      .whole height, .whole border, num format, num type, .flag data.isNone]⟩
  | _, texturePart target level x y width height format type _ =>
    ⟨"TexSubImage2D", [num target, .whole level, .whole x, .whole y, .whole width,
      .whole height, num format, num type, .flag false]⟩
  | _, pixelStore parameter value => ⟨"PixelStorei", [num parameter, .whole value]⟩

end EntryPoint
end DrawStream
