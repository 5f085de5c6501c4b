import DrawStream.Codec
import DrawStream.Device.Request

/-! # Recorded calls

A `Call` is what is written down of a request and its answer.  Requests that only look
something up leave no call, except for location queries.  Of uploaded data, only the
length is kept. -/
namespace DrawStream

/-- A request to a device as it is written down. -/
inductive Call
  | createProgram (program : Handle)
  | deleteProgram (program : Handle)
  | useProgram (program : Handle)
  | linkProgram (program : Handle)
  | validateProgram (program : Handle)
  | createShader (stage : Stage) (shader : Handle)
  | shaderSource (shader : Handle)
  | compileShader (shader : Handle)
  | attachShader (program shader : Handle)
  | detachShader (program shader : Handle)
  | deleteShader (shader : Handle)
  | uniformLocation (name : String)
  | attributeLocation (name : String)
  | uniformFloats (location : Int) (components : Nat) (data : List Single)
  | uniformInts (location : Int) (components : Nat) (data : List Int)
  | uniformMatrix (location : Int) (dim : Nat) (data : List Single)
  | uniformInt (location value : Int)
  | enableAttribute (index : Nat)
  | disableAttribute (index : Nat)
  | attributePointer (index : Nat) (size : Int) (type : Nat) (stride : Int) (offset : Nat)
  | attributeValue (index : Nat) (values : List Single)
  | drawArrays (mode : Nat) (first count : Int)
  | drawElements (mode : Nat) (count : Int) (type : Nat)
  | getError
  | createBuffer (buffer : Handle)
  | deleteBuffer (buffer : Handle)
  | bindBuffer (target : Nat) (buffer : Handle)
  | bufferStorage (target size usage : Nat)
  | bufferWrite (target offset length : Nat)
  | createTexture (texture : Handle)
  | deleteTexture (texture : Handle)
  | activeTexture (unit : Nat)
  | bindTexture (target : Nat) (texture : Handle)
  | textureParameter (target parameter : Nat) (value : Int)
  | textureStorage (format : Nat) (width height : Int)
  | textureWrite (x y width height : Int) (type length : Nat)
  | pixelStore (parameter : Nat) (value : Int)
  deriving DecidableEq

namespace Call

/-- What is written down of a request that was answered so. -/
def ofAnswer? : {β : Type} → Request β → β → Option Call
  | _, .createProgram, program => some (createProgram program)
  | _, .deleteProgram program, _ => some (deleteProgram program)
  | _, .useProgram program, _ => some (useProgram program)
  | _, .linkProgram program, _ => some (linkProgram program)
  | _, .validateProgram program, _ => some (validateProgram program)
  | _, .createShader stage, shader => some (createShader stage shader)
  | _, .shaderSource shader _, _ => some (shaderSource shader)
  | _, .compileShader shader, _ => some (compileShader shader)
  | _, .attachShader program shader, _ => some (attachShader program shader)
  | _, .detachShader program shader, _ => some (detachShader program shader)
  | _, .deleteShader shader, _ => some (deleteShader shader)
  | _, .uniformLocation _ name, _ => some (uniformLocation name)
  | _, .attributeLocation _ name, _ => some (attributeLocation name)
  | _, .uniformFloats location components data, _ =>
    some (uniformFloats location components data)
  | _, .uniformInts location components data, _ => some (uniformInts location components data)
  | _, .uniformMatrix location dim data, _ => some (uniformMatrix location dim data)
  | _, .uniformInt location value, _ => some (uniformInt location value)
  | _, .enableAttribute index, _ => some (enableAttribute index)
  | _, .disableAttribute index, _ => some (disableAttribute index)
  | _, .attributePointer index size type _ stride offset, _ =>
    some (attributePointer index size type stride offset)
  | _, .attributeValue index values, _ => some (attributeValue index values)
  | _, .drawArrays mode first count, _ => some (drawArrays mode first count)
  | _, .drawElements mode count type _, _ => some (drawElements mode count type)
  | _, .takeError, _ => some getError
  | _, .createBuffer, buffer => some (createBuffer buffer)
  | _, .deleteBuffer buffer, _ => some (deleteBuffer buffer)
  | _, .bindBuffer target buffer, _ => some (bindBuffer target buffer)
  | _, .bufferStorage target size usage, _ => some (bufferStorage target size usage)
  | _, .bufferWrite target offset data, _ => some (bufferWrite target offset data.byteLength)
  | _, .createTexture, texture => some (createTexture texture)
  | _, .deleteTexture texture, _ => some (deleteTexture texture)
  | _, .activeTexture unit, _ => some (activeTexture unit)
  | _, .bindTexture target texture, _ => some (bindTexture target texture)
  | _, .textureParameter target parameter value, _ =>
    some (textureParameter target parameter value)
  | _, .textureStorage _ format width height, _ => some (textureStorage format width height)
  | _, .textureWrite _ x y width height _ type data, _ =>
    some (textureWrite x y width height type data.byteLength)
  | _, .pixelStore parameter value, _ => some (pixelStore parameter value)
  | _, .linkStatus _, _ | _, .validateStatus _, _ | _, .programLog _, _ | _, .compileStatus _, _
  | _, .shaderLog _, _ | _, .attributeCount _, _ | _, .activeAttribute _ _, _
  | _, .uniformCount _, _ | _, .activeUniform _ _, _ => none

/-! ## Calls as text -/

/-- An argument of a call. -/
inductive Argument
  | whole (n : Int)
  | text (s : String)
  | stage (s : Stage)
  | wholes (ns : List Int)
  | singles (xs : List Single)
  deriving DecidableEq

/-- The argument in a description. -/
def Argument.describe : Argument → String
  | whole n => toString n
  | text s => Text.quoted s
  | stage s => Choice.label s
  | wholes ns => "[" ++ Codec.describeItems (ns.map toString) ++ "]"
  | singles xs => Codec.describe xs

/-- A call taken apart: its name, and its arguments with their labels or without any. -/
structure Form where
  name : String
  labels : List String
  arguments : List Argument

private def bare (name : String) (arguments : List Argument) : Form := ⟨name, [], arguments⟩

private def labelled (name : String) (arguments : List (String × Argument)) : Form :=
  ⟨name, arguments.map Prod.fst, arguments.map Prod.snd⟩

private def num (n : Nat) : Argument := .whole n

/-- Takes a call apart. -/
def form : Call → Form
  | createProgram p => bare "CreateProgram" [num p]
  | deleteProgram p => bare "DeleteProgram" [num p]
  | useProgram p => bare "UseProgram" [num p]
  | linkProgram p => bare "LinkProgram" [num p]
  | validateProgram p => bare "ValidateProgram" [num p]
  | createShader stage s => bare "CreateShader" [.stage stage, num s]
  | shaderSource s => bare "ShaderSource" [num s]
  | compileShader s => bare "CompileShader" [num s]
  | attachShader p s => bare "AttachShader" [num p, num s]
  | detachShader p s => bare "DetachShader" [num p, num s]
  | deleteShader s => bare "DeleteShader" [num s]
  | uniformLocation name => bare "UniformLocation" [.text name]
  | attributeLocation name => bare "AttribLocation" [.text name]
  | uniformFloats location n data => labelled "UniformFloat"
      [("location", .whole location), ("components", num n), ("data", .singles data)]
  | uniformInts location n data => labelled "UniformInt"
      [("location", .whole location), ("components", num n), ("data", .wholes data)]
  | uniformMatrix location dim data => labelled "UniformMatrix"
      [("location", .whole location), ("dim", num dim), ("data", .singles data)]
  | uniformInt location value => labelled "Uniform1i"
      [("location", .whole location), ("value", .whole value)]
  | enableAttribute i => bare "EnableVertexAttribArray" [num i]
  | disableAttribute i => bare "DisableVertexAttribArray" [num i]
  | attributePointer i size type stride offset => labelled "VertexAttribPointer"
      [("index", num i), ("size", .whole size), ("data_type", num type),
        ("stride", .whole stride), ("offset", num offset)]
  | attributeValue i values => labelled "VertexAttrib"
      [("index", num i), ("values", .singles values)]
  | drawArrays mode first count => labelled "DrawArrays"
      [("mode", num mode), ("first", .whole first), ("count", .whole count)]
  | drawElements mode count type => labelled "DrawElements"
      [("mode", num mode), ("count", .whole count), ("index_type", num type)]
  | getError => bare "GetError" []
  | createBuffer b => bare "CreateBuffer" [num b]
  | deleteBuffer b => bare "DeleteBuffer" [num b]
  | bindBuffer target b => labelled "BindBuffer" [("target", num target), ("buffer", num b)]
  | bufferStorage target size usage => labelled "BufferData"
      [("target", num target), ("size", num size), ("usage", num usage)]
  | bufferWrite target offset len => labelled "BufferSubData"
      [("target", num target), ("offset", num offset), ("len", num len)]
  | createTexture t => bare "CreateTexture" [num t]
  | deleteTexture t => bare "DeleteTexture" [num t]
  | activeTexture unit => bare "ActiveTexture" [num unit]
  | bindTexture target t => labelled "BindTexture" [("target", num target), ("texture", num t)]
  | textureParameter target parameter value => labelled "TexParameter"
      [("target", num target), ("pname", num parameter), ("value", .whole value)]
  | textureStorage format width height => labelled "TexImage2D"
      [("format", num format), ("width", .whole width), ("height", .whole height)]
  | textureWrite x y width height type len => labelled "TexSubImage2D"
      [("x", .whole x), ("y", .whole y), ("width", .whole width), ("height", .whole height),
        ("data_type", num type), ("len", num len)]
  | pixelStore parameter value => labelled "PixelStore"
      [("pname", num parameter), ("value", .whole value)]

/-- The second letter of a name is a small one. -/
theorem small_second_letter (c : Call) :
    ((c.form.name.toList.drop 1).head?.any Char.isLower) = true := by
  cases c <;> simp only [form, bare, labelled] <;> decide

/-- The call in a description. -/
def describe (c : Call) : String :=
  let f := c.form
  let arguments := f.arguments.map Argument.describe
  if f.arguments.isEmpty then f.name
  else if f.labels.isEmpty then f.name ++ "(" ++ Codec.describeItems arguments ++ ")"
  else
    let items := List.zipWith (fun label a => label ++ ": " ++ a) f.labels arguments
    f.name ++ " \x7b " ++ Codec.describeItems items ++ " \x7d"

end Call
end DrawStream
