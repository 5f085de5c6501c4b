import DrawStream.Word
import DrawStream.Json.Mismatch

/-! # How values stand in command text

A `Codec` reads a value from JSON or says why it cannot, writes it back, and
describes it for people.  Writing leaves open how 32-bit numbers are written, since
JSON has no text for infinities. -/
namespace DrawStream

/-- Values that stand in command text. -/
class Codec (α : Type) where
  /-- The value that JSON denotes. -/
  read : Json → Except Mismatch α
  /-- The JSON of a value, given that of a 32-bit number. -/
  encode : (Single → Json) → α → Json
  /-- The value in a description. -/
  describe : α → String

namespace Codec

/-- A whole number as JSON. -/
def ofInt (n : Int) : Json := .number (.whole n)

/-- Whole numbers of a range. -/
def readWord (k : WordKind) : Json → Except Mismatch (Word k)
  | .number (.whole n) =>
    match Word.ofInt? k n with
    | some w => .ok w
    | none => .error (.wrongValue (.whole n) k.name)
  | v => .error (v.wrongType k.name)

instance (k : WordKind) : Codec (Word k) where
  read := readWord k
  encode _ w := ofInt w.val
  describe w := w.text

/-- Numbers of any spelling, rounded to 32 bits. -/
def readSingle : Json → Except Mismatch Single
  | .number n => .ok n.toSingle
  | v => .error (v.wrongType "f32")

instance : Codec Single where
  read := readSingle
  encode number x := number x
  describe x := x.text

/-- Text. -/
def readText : Json → Except Mismatch String
  | .text s => .ok s
  | v => .error (v.wrongType "a string")

instance : Codec String where
  read := readText
  encode _ s := .text s
  describe s := Text.quoted s

/-- What stands between the brackets of a description. -/
def describeItems (items : List String) : String := ", ".intercalate items

/-- Lists; the first wrong item is reported. -/
def readList {α : Type} [Codec α] : Json → Except Mismatch (List α)
  | .list items => items.mapM read
  | v => .error (v.wrongType "a sequence")

instance {α : Type} [Codec α] : Codec (List α) where
  read := readList
  encode number xs := .list (xs.map (encode number))
  describe xs := "[" ++ describeItems (xs.map describe) ++ "]"

/-- A noun with its count, as in `2 elements`. -/
def elements (n : Nat) : String := if n = 1 then "1 element" else toString n ++ " elements"

/-- The fault of items left over behind the `n` that were wanted. -/
def leftOver (length n : Nat) : Mismatch := .wrongLength length (elements n ++ " in sequence")

/-- Lists of two. -/
def readPair {α : Type} [Codec α] : Json → Except Mismatch (α × α)
  | .list items => do
    match items with
    | [] => .error (.wrongLength 0 "an array of length 2")
    | first :: rest =>
      let a ← read first
      match rest with
      | [] => .error (.wrongLength 1 "an array of length 2")
      | second :: rest =>
        let b ← read second
        if rest.isEmpty then return (a, b) else .error (leftOver items.length 2)
  | v => .error (v.wrongType "an array of length 2")

instance {α : Type} [Codec α] : Codec (α × α) where
  read := readPair
  encode number p := .list [encode number p.1, encode number p.2]
  describe p := "[" ++ describe p.1 ++ ", " ++ describe p.2 ++ "]"

/-- A value, or `null` for none. -/
def readOption {α : Type} [Codec α] : Json → Except Mismatch (Option α)
  | .null => .ok none
  | v => some <$> read v

instance {α : Type} [Codec α] : Codec (Option α) where
  read := readOption
  encode number
    | none => .null
    | some a => encode number a
  describe
    | none => "None"
    | some a => "Some(" ++ describe a ++ ")"

/-- The first of the alternatives that can be read; why the others cannot is not told. -/
def firstOf {α : Type} (union : String) :
    List (Json → Except Mismatch α) → Json → Except Mismatch α
  | [], _ => .error (.noAlternative union)
  | read :: rest, v =>
    match read v with
    | .ok a => .ok a
    | .error _ => firstOf union rest v

/-! ## Named choices -/

/-- The choice that a word spells. -/
def readName {α : Type} [Choice α] (s : String) : Except Mismatch α :=
  match Choice.ofWord? s with
  | some a => .ok a
  | none => .error (.unknownName s (Choice.words α))

/-- The name and contents of a choice: a bare word, or an object of a single member. -/
def splitName : Json → Except Mismatch (String × Option Json)
  | .text s => .ok (s, none)
  | .object [(s, v)] => .ok (s, some v)
  | .object _ => .error (.wrongValue .object "map with a single key")
  | v => .error (v.wrongType "string or map")

/-- A choice without contents; where it is written as an object, `empty` says which
contents stand for nothing. -/
def readChoice {α : Type} [Choice α] (empty : Json → Bool) (v : Json) : Except Mismatch α := do
  let (s, contents) ← splitName v
  let a ← readName s
  match contents with
  | none => return a
  | some v => if empty v then return a else .error (v.wrongType "unit")

/-- Contents that stand for nothing. -/
def isUnit : Json → Bool
  | .null | .object [] => true
  | _ => false

/-- Contents that stand for nothing inside a union. -/
def isNull : Json → Bool
  | .null => true
  | _ => false

instance (priority := low) {α : Type} [Choice α] : Codec α where
  read := readChoice isUnit
  encode _ a := .text (Choice.word a)
  describe a := Choice.label a

end Codec
end DrawStream
