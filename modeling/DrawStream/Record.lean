import DrawStream.Codec

/-! # Records with named fields

A record is declared by the list of its `Field`s.  From the list follow its values
(`Slots`), how it is read from an object or from a bare list, how it is written and
how it is described.

An object is read member by member in the order of the text: the first member that
repeats a field or does not fit it is reported.  Only then are the fields that are
missing looked for, in the order of declaration.  Members that name no field are
passed over. -/
namespace DrawStream

/-- A field of a record. -/
structure Field where
  /-- The key in command text. -/
  name : String
  /-- The name in descriptions. -/
  label : String
  Value : Type
  read : Json → Except Mismatch Value
  encode : (Single → Json) → Value → Json
  describe : Value → String
  /-- What stands for an absent field; none if it must be there. -/
  absent : Option Value

namespace Field

/-- A field that must be there. -/
def required (name : String) (α : Type) [Codec α] : Field :=
  ⟨name, name, α, Codec.read, Codec.encode, Codec.describe, none⟩

/-- A field that may be left out. -/
def optional {α : Type} [Codec α] (name : String) (absent : α) : Field :=
  ⟨name, name, α, Codec.read, Codec.encode, Codec.describe, some absent⟩

/-- A field that must be there, for a choice inside a union. -/
def plainChoice (name : String) (α : Type) [Choice α] : Field :=
  ⟨name, name, α, Codec.readChoice Codec.isNull, Codec.encode, Codec.describe, none⟩

/-- A field that must be there and that descriptions call differently. -/
def labelled (name label : String) (α : Type) [Codec α] : Field :=
  ⟨name, label, α, Codec.read, Codec.encode, Codec.describe, none⟩

end Field

/-- The values of a record's fields. -/
def Slots : List Field → Type
  | [] => Unit
  | f :: fs => f.Value × Slots fs

/-- The values that have been read so far. -/
def Filled : List Field → Type
  | [] => Unit
  | f :: fs => Option f.Value × Filled fs

namespace Filled

/-- Nothing has been read. -/
def empty : (fs : List Field) → Filled fs
  | [] => ()
  | _ :: fs => (none, empty fs)

/-- Takes one member of the object in. -/
def put : (fs : List Field) → Filled fs → String → Json → Except Mismatch (Filled fs)
  | [], (), _, _ => .ok ()
  | f :: fs, (slot, rest), key, v =>
    if key = f.name then
      match slot with
      | some _ => .error (.repeated key)
      | none => do return (some (← f.read v), rest)
    else do return (slot, ← put fs rest key v)

/-- Takes the members in, in order. -/
def putAll (fs : List Field) : Filled fs → List (String × Json) → Except Mismatch (Filled fs)
  | filled, [] => .ok filled
  | filled, (key, v) :: rest => do putAll fs (← put fs filled key v) rest

/-- The values of all fields; those that are absent have their stand-in. -/
def finish : (fs : List Field) → Filled fs → Except Mismatch (Slots fs)
  | [], () => .ok ()
  | f :: fs, (slot, rest) => do
    let a ← match slot <|> f.absent with
      | some a => .ok a
      | none => .error (.missing f.name)
    return (a, ← finish fs rest)

end Filled

namespace Slots

/-- Reads a record from the members of an object. -/
def ofMembers (fs : List Field) (members : List (String × Json)) : Except Mismatch (Slots fs) := do
  Filled.finish fs (← Filled.putAll fs (Filled.empty fs) members)

/-- Reads a record from an object, and from nothing else. -/
def ofObject (fs : List Field) : Json → Except Mismatch (Slots fs)
  | .object members => ofMembers fs members
  | v => .error (v.wrongType "map")

/-- Reads the fields off a list in order, `i` being the number of fields before. -/
def takeItems (wanted : String) : (fs : List Field) → Nat → List Json →
    Except Mismatch (Slots fs × List Json)
  | [], _, items => .ok ((), items)
  | f :: fs, i, [] =>
    match f.absent with
    | some a => do
      let (rest, items) ← takeItems wanted fs (i + 1) []
      return ((a, rest), items)
    | none => .error (.wrongLength i wanted)
  | f :: fs, i, v :: items => do
    let a ← f.read v
    let (rest, items) ← takeItems wanted fs (i + 1) items
    return ((a, rest), items)

/-- Reads a record from a bare list of its fields; `owner` names it in messages. -/
def ofItems (owner : String) (fs : List Field) (items : List Json) :
    Except Mismatch (Slots fs) := do
  let wanted := owner ++ " with " ++ Codec.elements fs.length
  let (slots, left) ← takeItems wanted fs 0 items
  if left.isEmpty then return slots else .error (Codec.leftOver items.length fs.length)

/-- The members of the object that stands for a record. -/
def encode (number : Single → Json) : (fs : List Field) → Slots fs → List (String × Json)
  | [], () => []
  | f :: fs, (a, rest) => (f.name, f.encode number a) :: encode number fs rest

/-- The fields in a description. -/
def describe : (fs : List Field) → Slots fs → List String
  | [], () => []
  | f :: fs, (a, rest) => (f.label ++ ": " ++ f.describe a) :: describe fs rest

/-- A record in a description. -/
def describeAs (name : String) (fs : List Field) (slots : Slots fs) : String :=
  name ++ " \x7b " ++ Codec.describeItems (describe fs slots) ++ " \x7d"

end Slots
end DrawStream
