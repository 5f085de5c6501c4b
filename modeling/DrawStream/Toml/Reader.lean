import DrawStream.Toml.Moment
import DrawStream.Toml.Text

/-! # Reading TOML from left to right

`readValue` reads a value, in which lists and tables in braces nest to a fixed depth, and
`Statement.readAll` takes a whole text apart, line by line, into its statements: keys with
values, and headers.  What statements may follow each other is not looked at here. -/
namespace DrawStream.Toml

/-! ## Keys -/

/-- A character of a key without marks. -/
def isBare (c : Char) : Bool :=
  ('a' ≤ c && c ≤ 'z') || ('A' ≤ c && c ≤ 'Z') || c.isDigit || c = '-' || c = '_'

/-- One part of a key. -/
def readPart? : Scan String
  | '"' :: rest => (readQuoted? rest).map fun (s, rest) => (String.ofList s, rest)
  | '\'' :: rest => (readLiteral? rest).map fun (s, rest) => (String.ofList s, rest)
  | cs =>
    if (cs.takeWhile isBare).isEmpty then none
    else some (String.ofList (cs.takeWhile isBare), cs.dropWhile isBare)

/-- How many parts a key has at most. -/
def maxParts : Nat := 127

/-- At most `bound` parts of a key with points between them, and blanks around each. -/
def readParts? : (bound : Nat) → Scan (List String)
  | 0, _ => none
  | bound + 1, cs => do
    let (part, rest) ← readPart? (skipBlank cs)
    match skipBlank rest with
    | '.' :: rest => do
      let (parts, rest) ← readParts? bound rest
      return (part :: parts, rest)
    | rest => return ([part], rest)

/-- A key: where it leads, and its last part. -/
structure Key where
  path : List String
  name : String
  deriving DecidableEq

/-- The key of some parts. -/
def Key.ofParts? (parts : List String) : Option Key :=
  parts.getLast?.map fun name => ⟨parts.dropLast, name⟩

/-- A key with the blanks around it. -/
def readKey? : Scan Key := fun cs => do
  let (parts, rest) ← readParts? maxParts cs
  return (← Key.ofParts? parts, rest)

/-! ## Values -/

/-- Adds a value to a table in braces.  Tables on the way are in braces as well. -/
def addInBraces (name : String) (v : Toml) : (path : List String) → Members → Option Members
  | [], ms => if (ms.lookup name).isSome then none else some (ms ++ [(name, v)])
  | key :: path, ms =>
    match ms.lookup key with
    | none => do return ms ++ [(key, .table .braces (← addInBraces name v path []))]
    | some (.table _ inner) => do
      let inner ← addInBraces name v path inner
      return ms.map fun m => if m.1 = key then (key, .table .braces inner) else m
    | some _ => none

/-- The items of a list up to the closing bracket.  Blanks, comments and line ends may
stand anywhere between them, and a comma behind the last one.  There are no more items
than characters in the text that `bound` holds. -/
def readItems? (readItem : Scan Toml) : (bound : List Char) → Scan (List Toml)
  | [], _ => none
  | _ :: bound, cs =>
    match skipFiller false cs with
    | ']' :: rest => some ([], rest)
    | cs => do
      let (v, rest) ← readItem cs
      match skipFiller false rest with
      | ']' :: rest => return ([v], rest)
      | ',' :: rest => do
        let (vs, rest) ← readItems? readItem bound rest
        return (v :: vs, rest)
      | _ => none

/-- A key, an equals sign and a value, with blanks around each. -/
def readPair? (readItem : Scan Toml) : Scan (Key × Toml) := fun cs => do
  let (key, rest) ← readKey? cs
  let (v, rest) ← readItem (skipBlank (← mark? '=' rest))
  return ((key, v), rest)

/-- The members of a table up to the closing brace, at least one, all on one line.  There
are no more of them than characters in the text that `bound` holds. -/
def readMembers? (readItem : Scan Toml) : (bound : List Char) → Members → Scan Members
  | [], _, _ => none
  | _ :: bound, ms, cs => do
    let ((key, v), rest) ← readPair? readItem cs
    let ms ← addInBraces key.name v key.path ms
    match skipBlank rest with
    | '}' :: rest => return (ms, rest)
    | ',' :: rest => readMembers? readItem bound ms rest
    | _ => none

/-- How deep lists and tables in braces may be inside each other. -/
def maxDepth : Nat := 127

/-- A value in which lists and tables in braces nest at most `depth` deep. -/
def readValue : (depth : Nat) → Scan Toml
  | depth, cs =>
    match cs with
    | '"' :: _ | '\'' :: _ => do
      let (s, rest) ← readText? cs
      return (.text (String.ofList s), rest)
    | '[' :: rest =>
      match depth with
      | 0 => none
      | depth + 1 => do
        let (items, rest) ← readItems? (readValue depth) rest rest
        return (.list items, rest)
    | '{' :: rest =>
      match depth with
      | 0 => none
      | depth + 1 =>
        match skipBlank rest with
        | '}' :: rest => some (.table .braces [], rest)
        | rest => do
          let (ms, rest) ← readMembers? (readValue depth) rest [] rest
          return (.table .braces ms, rest)
    | 't' :: 'r' :: 'u' :: 'e' :: rest => some (.flag true, rest)
    | 'f' :: 'a' :: 'l' :: 's' :: 'e' :: rest => some (.flag false, rest)
    | cs => (readMoment? cs).orElse fun _ => readNumber? cs

/-! ## Statements -/

/-- What a line of a TOML text says. -/
inductive Statement
  /-- A key has a value. -/
  | pair (key : Key) (v : Toml)
  /-- The pairs that follow are in a table. -/
  | table (key : Key)
  /-- The pairs that follow are in a further table of a list of tables. -/
  | tables (key : Key)

namespace Statement

/-- A statement with the blanks around it. -/
def read? : Scan Statement
  | '[' :: '[' :: rest => do
    let (key, rest) ← readKey? rest
    return (.tables key, ← mark? ']' (← mark? ']' rest))
  | '[' :: rest => do
    let (key, rest) ← readKey? rest
    return (.table key, ← mark? ']' rest)
  | cs => do
    let ((key, v), rest) ← readPair? (readValue maxDepth) cs
    return (.pair key v, rest)

/-- One line, which may lack a statement; a value may take it further down. -/
def readLine? (cs : List Char) : Option (Option Statement × List Char) :=
  match finishLine? cs with
  | some rest => some (none, rest)
  | none => do
    let (s, rest) ← read? (skipBlank cs)
    return (some s, ← finishLine? rest)

/-- The statements of all lines.  There are no more lines than characters in the text that
`bound` holds. -/
def readLines? : (bound : List Char) → List Char → Option (List Statement)
  | _, [] => some []
  | [], _ => none
  | _ :: bound, cs => do
    let (s, rest) ← readLine? cs
    return s.toList ++ (← readLines? bound rest)

/-- What is left behind a byte order mark, if one is at the front. -/
def skipByteOrderMark : List Char → List Char
  | '\uFEFF' :: rest => rest
  | cs => cs

/-- All statements of a text. -/
def readAll? (text : String) : Option (List Statement) :=
  let cs := skipByteOrderMark text.toList
  readLines? cs cs

end Statement
end DrawStream.Toml
