import DrawStream.Command.Parts
import DrawStream.Elements
import DrawStream.ObjectKind
import DrawStream.Program.Attribute
import DrawStream.Program.Uniform

/-! # Commands

A command is told apart by its tag, and the tag decides the fields it has in command
text (`Tag.fields`).  `ofSlots` and `slots` go between a command and the values of its
fields, so reading, writing and describing a command are those of records. -/
namespace DrawStream
open Command (Id Count Storage Offset Source Selection)

/-- One instruction.  Objects are addressed by numbers that the sender chooses. -/
inductive Command
  /-- Create an object. -/
  | create (id : Id) (kind : ObjectKind)
  /-- Delete an object. -/
  | delete (id : Id)
  /-- Give a program its two shader sources. -/
  | shaders (id : Id) (vertex fragment : String)
  /-- Allocate storage. -/
  | size (id : Id) (storage : Storage)
  /-- Upload data; without a shape, to the whole texture. -/
  | data (id : Id) (offset : Offset) (shape : Option (Count × Count)) (elements : Elements)
  /-- Set the source of an attribute. -/
  | attribute (program : Id) (name : String) (type : AttributeType) (value : Source)
  /-- Set a uniform. -/
  | uniform (program : Id) (name : String) (type : UniformType) (value : List Single)
  /-- Attach a texture to a sampler. -/
  | texture (program : Id) (name : String) (image : Id)
  /-- Set the filters of a texture. -/
  | interpolation (id : Id) (min mag : TextureFilter)
  /-- Set what lies beyond the edges of a texture. -/
  | wrapping (id : Id) (wrap : TextureWrap × TextureWrap)
  /-- Draw. -/
  | draw (program : Id) (mode : DrawMode) (selection : Selection)
  deriving DecidableEq

namespace Command

/-- What tells commands apart. -/
inductive Tag
  | create | delete | shaders | size | data | attribute | uniform | texture | interpolation
  | wrapping | draw
  deriving DecidableEq, Repr

instance : Choice Tag where
  all := [.create, .delete, .shaders, .size, .data, .attribute, .uniform, .texture,
    .interpolation, .wrapping, .draw]
  word
    | .create => "create"
    | .delete => "delete"
    | .shaders => "shaders"
    | .size => "size"
    | .data => "data"
    | .attribute => "attribute"
    | .uniform => "uniform"
    | .texture => "texture"
    | .interpolation => "interpolation"
    | .wrapping => "wrapping"
    | .draw => "draw"
  label
    | .create => "Create"
    | .delete => "Delete"
    | .shaders => "Shaders"
    | .size => "Size"
    | .data => "Data"
    | .attribute => "Attribute"
    | .uniform => "Uniform"
    | .texture => "Texture"
    | .interpolation => "Interpolation"
    | .wrapping => "Wrapping"
    | .draw => "Draw"

/-- The key under which the tag stands. -/
def tagKey : String := "cmd"

/-- The fields of a command, in the order of declaration. -/
def Tag.fields : Tag → List Field
  | .create => [.required "id" Id, .required "kind" ObjectKind]
  | .delete => [.required "id" Id]
  | .shaders => [.required "id" Id, .required "vertex" String, .required "fragment" String]
  | .size => [.required "id" Id, .required "size" Storage]
  | .data => [.required "id" Id, .optional "offset" Offset.start,
      .optional "shape" (none : Option (Count × Count)), .required "data" Elements]
  | .attribute => [.required "program" Id, .required "name" String,
      .labelled "type" "ty" AttributeType, .required "value" Source]
  | .uniform => [.required "program" Id, .required "name" String,
      .labelled "type" "ty" UniformType, .required "value" (List Single)]
  | .texture => [.required "program" Id, .required "name" String, .required "texture" Id]
  | .interpolation => [.required "id" Id, .required "min" TextureFilter,
      .required "mag" TextureFilter]
  | .wrapping => [.required "id" Id, .required "wrap" (TextureWrap × TextureWrap)]
  | .draw => [.required "program" Id, .required "mode" DrawMode,
      .required "selection" Selection]

/-- The command with this tag and these values of its fields. -/
def ofSlots : (t : Tag) → Slots t.fields → Command
  | .create, (id, kind, ()) => .create id kind
  | .delete, (id, ()) => .delete id
  | .shaders, (id, vertex, fragment, ()) => .shaders id vertex fragment
  | .size, (id, storage, ()) => .size id storage
  | .data, (id, offset, shape, elements, ()) => .data id offset shape elements
  | .attribute, (program, name, type, value, ()) => .attribute program name type value
  | .uniform, (program, name, type, value, ()) => .uniform program name type value
  | .texture, (program, name, image, ()) => .texture program name image
  | .interpolation, (id, min, mag, ()) => .interpolation id min mag
  | .wrapping, (id, wrap, ()) => .wrapping id wrap
  | .draw, (program, mode, selection, ()) => .draw program mode selection

/-- The tag of a command. -/
def tag : Command → Tag
  | .create .. => .create
  | .delete .. => .delete
  | .shaders .. => .shaders
  | .size .. => .size
  | .data .. => .data
  | .attribute .. => .attribute
  | .uniform .. => .uniform
  | .texture .. => .texture
  | .interpolation .. => .interpolation
  | .wrapping .. => .wrapping
  | .draw .. => .draw

/-- The values of a command's fields. -/
def slots : (c : Command) → Slots c.tag.fields
  | .create id kind => (id, kind, ())
  | .delete id => (id, ())
  | .shaders id vertex fragment => (id, vertex, fragment, ())
  | .size id storage => (id, storage, ())
  | .data id offset shape elements => (id, offset, shape, elements, ())
  | .attribute program name type value => (program, name, type, value, ())
  | .uniform program name type value => (program, name, type, value, ())
  | .texture program name image => (program, name, image, ())
  | .interpolation id min mag => (id, min, mag, ())
  | .wrapping id wrap => (id, wrap, ())
  | .draw program mode selection => (program, mode, selection, ())

@[simp] theorem ofSlots_slots (c : Command) : ofSlots c.tag c.slots = c := by cases c <;> rfl

/-- The command in a description. -/
def describe (c : Command) : String :=
  Slots.describeAs (Choice.label c.tag) c.tag.fields c.slots

/-- The command as a JSON object, given the JSON of 32-bit numbers. -/
def encode (number : Single → Json) (c : Command) : Json :=
  .object ((tagKey, .text (Choice.word c.tag)) :: Slots.encode number c.tag.fields c.slots)

end Command
end DrawStream
