import DrawStream.Command.Basic
import DrawStream.Json.Reader

/-! # Reading command text

Command text is a JSON list of commands.  A command is an object with its tag under
`cmd`, or a list that begins with the tag.  The text is read once from left to right:
whatever makes the list, a command's brackets or its tag wrong is reported there and
then, whereas the fields are looked at only after the command has been read to its
end. -/
namespace DrawStream.Command
open DrawStream.Json

/-- A tag; anything else is reported on the spot. -/
def readTag : Reading Tag := fun cs =>
  match skipBlank cs with
  | '"' :: rest => do
    let (s, rest) ← orMalformed (Json.readText? rest)
    match Choice.ofWord? (String.ofList s) with
    | some t => return (t, rest)
    | none => .error (.mismatch (.unknownName (String.ofList s) (Choice.words Tag)))
  | cs => .error (misplaced "variant identifier" cs)

/-- What has been read of a command: its tag, and the values in reverse order. -/
structure Partial (α : Type) where
  tag : Option Tag
  values : List α

/-- One member of a command's object.  The key of a second tag is reported before its
value is looked at. -/
def readMember (depth : Nat) (p : Partial (String × Json)) : Reading (Partial (String × Json)) :=
  fun cs => do
    let (key, rest) ← readKey cs
    if key = tagKey then
      match p.tag with
      | some _ => .error (.mismatch (.repeated tagKey))
      | none =>
        let (t, rest) ← readTag (← skipColon rest)
        return ({ p with tag := some t }, rest)
    else
      let (v, rest) ← readValue depth (← skipColon rest)
      return ({ p with values := (key, v) :: p.values }, rest)

/-- One item of a command's list: the tag, then the fields. -/
def readItem (depth : Nat) (p : Partial Json) : Reading (Partial Json) := fun cs =>
  match p.tag with
  | none => do
    let (t, rest) ← readTag cs
    return ({ p with tag := some t }, rest)
  | some _ => do
    let (v, rest) ← readValue depth cs
    return ({ p with values := v :: p.values }, rest)

/-- A command from its tag and what else was read of it. -/
def ofPartial {α : Type} (p : Partial α)
    (read : (t : Tag) → List α → Except Mismatch (Slots t.fields)) : Except TextFault Command :=
  match p.tag with
  | none => .error (.mismatch (.missing tagKey))
  | some t =>
    match read t p.values.reverse with
    | .ok slots => .ok (ofSlots t slots)
    | .error cause => .error (.mismatch cause)

/-- The owner of fields in messages about a command's list. -/
def owner (t : Tag) : String := "struct variant Command::" ++ Choice.label t

/-- One command, whose values nest at most `depth` deep. -/
def readCommand (depth : Nat) : Reading Command := fun cs =>
  match skipBlank cs with
  | '\x7b' :: rest => do
    let (p, rest) ← enclosed '\x7d' (readMember depth) ⟨none, []⟩ rest
    return (← ofPartial p fun t => Slots.ofMembers t.fields, rest)
  | '[' :: rest => do
    let (p, rest) ← enclosed ']' (readItem depth) ⟨none, []⟩ rest
    return (← ofPartial p fun t => Slots.ofItems (owner t) t.fields, rest)
  | cs => .error (misplaced "internally tagged enum Command" cs)

/-- The commands of a text. -/
def readAll (text : String) : Except TextFault (List Command) :=
  match skipBlank text.toList with
  | '[' :: rest => do
    let (commands, rest) ← enclosed ']' (fun commands cs => do
      let (c, rest) ← readCommand (maxDepth - 2) cs
      return (c :: commands, rest)) [] rest
    if (skipBlank rest).isEmpty then return commands.reverse else .error .malformed
  | cs => .error (misplaced "a sequence" cs)

end DrawStream.Command
