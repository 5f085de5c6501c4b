import DrawStream.Command.Basic
import DrawStream.Device.Request

/-! # Notes

What the library does is noted for people to read.  A `Note` says what happened; its
level, the part of the program it comes from and its words follow from that. -/
namespace DrawStream

/-- How urgent a note is. -/
inductive Level
  | error | warn | info | debug | trace
  deriving DecidableEq, Repr

namespace Level

/-- More detailed levels have greater numbers. -/
def rank : Level → Nat
  | error => 1
  | warn => 2
  | info => 3
  | debug => 4
  | trace => 5

/-- The level in capitals. -/
def name : Level → String
  | error => "ERROR"
  | warn => "WARN"
  | info => "INFO"
  | debug => "DEBUG"
  | trace => "TRACE"

end Level

/-- Which notes are kept: none, or those up to a level. -/
abbrev LevelFilter := Option Level

namespace LevelFilter

/-- The filter in capitals. -/
def name : LevelFilter → String
  | none => "OFF"
  | some level => level.name

/-- Notes of this level are kept. -/
def keeps (filter : LevelFilter) (level : Level) : Bool :=
  match filter with
  | none => false
  | some most => level.rank ≤ most.rank

/-- The filters by their names. -/
def all : List LevelFilter :=
  [none, some .error, some .warn, some .info, some .debug, some .trace]

/-- The filter that a word names, in any mixture of cases. -/
def ofWord? (s : String) : Option LevelFilter :=
  all.find? fun filter => filter.name.toList == s.toList.map Char.toUpper

end LevelFilter

/-- Whether a name is looked up as a uniform or as an attribute. -/
inductive VariableKind
  | uniform | attribute
  deriving DecidableEq, Repr

/-- The kind as messages call it. -/
def VariableKind.noun : VariableKind → String
  | .uniform => "uniform"
  | .attribute => "attribute"

/-- Something that happened. -/
inductive Note
  | executing (command : Command)
  | created (kind : ObjectKind) (id : Command.Id) (handle : Handle)
  | deleting (kind : ObjectKind) (id : Command.Id)
  | executedQueue (count : Nat)
  | linked (program : Handle) (activeCount : Nat)
  | unknownVariable (name : String) (kind : VariableKind)
  /-- A buffer attribute that the program does not have, inside an interleaved buffer. -/
  | skippedAttribute (name : String)
  | unsetVariables (names : List String)
  | wholeNumbersRefused (location : Int)
  | bufferResized (buffer : Handle) (old new : Nat)
  | textureAllocated (texture : Handle) (width height : Nat) (format : TextureFormat)
  | replaying (count : Nat) (path : String)
  | replayed (count : Nat)
  deriving DecidableEq

namespace Note

/-- How urgent the note is. -/
def level : Note → Level
  | executing _ => .trace
  | created .. | deleting .. | executedQueue _ | linked .. | skippedAttribute _
  | bufferResized .. | textureAllocated .. => .debug
  | unknownVariable .. | unsetVariables _ => .warn
  | wholeNumbersRefused _ => .error
  | replaying .. | replayed _ => .info

/-- The part of the program that the note comes from. -/
def target : Note → String
  | executing _ | created .. | deleting .. | executedQueue _ => "glcache::glir"
  | linked .. | unknownVariable .. | skippedAttribute _ | unsetVariables _ =>
    "glcache::gpu::program"
  | wholeNumbersRefused _ => "glcache::gpu::program::activation"
  | bufferResized .. => "glcache::gpu::buffer"
  | textureAllocated .. => "glcache::gpu::texture"
  | replaying .. | replayed _ => "glcache_replay"

/-- The words of the note. -/
def message : Note → String
  | executing command => "GLIR " ++ command.describe
  | created kind id handle =>
    "Created " ++ kind.noun ++ " " ++ id.text ++ " (handle " ++ toString handle ++ ")"
  | deleting kind id => "Deleting " ++ kind.noun ++ " " ++ id.text
  | executedQueue count => "Executed " ++ toString count ++ " queued GLIR commands"
  | linked program count =>
    "Program " ++ toString program ++ " linked with " ++ toString count ++ " active variables"
  | unknownVariable name kind => "Variable " ++ name ++ " is not an active " ++ kind.noun
  | skippedAttribute name => "Skipping unused buffer attribute " ++ name
  | unsetVariables names => "Program has unset variables: " ++ ", ".intercalate names
  | wholeNumbersRefused location =>
    "Integer data reached a float uniform upload at " ++ toString location
  | bufferResized buffer old new =>
    "Buffer " ++ toString buffer ++ " resized " ++ toString old ++ " -> " ++ toString new ++
      " bytes"
  | textureAllocated texture width height format =>
    "Texture " ++ toString texture ++ " storage set to " ++ toString width ++ "x" ++
      toString height ++ " " ++ Choice.label format
  | replaying count path => "Replaying " ++ toString count ++ " commands from " ++ path
  | replayed count => toString count ++ " queued commands executed"

/-- The note as a line of a log. -/
def line (n : Note) : String :=
  let name := n.level.name
  name ++ String.ofList (List.replicate (5 - name.length) ' ') ++ " [" ++ n.target ++ "] " ++
    n.message

end Note
end DrawStream
