import DrawStream.Json.Number
import DrawStream.Json.Text
import DrawStream.Json.Mismatch

/-! # Reading JSON from left to right

A reading takes the characters that are left and gives a value and what is left
after it, or a fault.  Lists and objects share one loop (`enclosed`), which runs a
step per item and lets the step fail early, so a reader of command text can refuse
a wrong item before it has seen what follows.  Values nest to a fixed depth. -/
namespace DrawStream

/-- Why a text is refused. -/
inductive TextFault
  /-- The text is no JSON: it breaks the grammar, stops short, nests too deep or has
  a number beyond the largest double. -/
  | malformed
  /-- JSON of the wrong shape. -/
  | mismatch (cause : Mismatch)

/-- What is left of a text, after a value has been read off its front. -/
abbrev Reading (α : Type) := List Char → Except TextFault (α × List Char)

namespace Json

/-- A reading that can only be malformed. -/
def orMalformed {α : Type} : Option α → Except TextFault α
  | some a => .ok a
  | none => .error .malformed

/-- Characters allowed between tokens. -/
def isBlank (c : Char) : Bool := c = ' ' || c = '\n' || c = '\t' || c = '\r'

/-- What is left behind the blanks at the front. -/
def skipBlank (cs : List Char) : List Char := cs.dropWhile isBlank

/-- Behind an item: the closing bracket, or a comma, another item and so on.  There are
fewer commas than characters in the text that `bound` holds. -/
def moreItems {σ : Type} (close : Char) (step : σ → Reading σ) :
    (bound : List Char) → σ → Reading σ
  | [], _, _ => .error .malformed
  | _ :: bound, s, cs =>
    match skipBlank cs with
    | [] => .error .malformed
    | c :: rest =>
      if c = close then .ok (s, rest)
      else if c = ',' then do
        let (s, rest) ← step s rest
        moreItems close step bound s rest
      else .error .malformed

/-- The items of a list or object up to its closing bracket; the opening one has been read. -/
def enclosed {σ : Type} (close : Char) (step : σ → Reading σ) (s : σ) : Reading σ := fun cs =>
  match skipBlank cs with
  | [] => .error .malformed
  | c :: rest =>
    if c = close then .ok (s, rest)
    else do
      let (s, left) ← step s (c :: rest)
      moreItems close step (c :: rest) s left

/-- The key of a member, without the colon. -/
def readKey : Reading String := fun cs =>
  match skipBlank cs with
  | '"' :: rest => do
    let (s, rest) ← orMalformed (readText? rest)
    return (String.ofList s, rest)
  | _ => .error .malformed

/-- The colon between a key and its value. -/
def skipColon (cs : List Char) : Except TextFault (List Char) :=
  match skipBlank cs with
  | ':' :: rest => .ok rest
  | _ => .error .malformed

/-- How deep lists and objects may be inside each other. -/
def maxDepth : Nat := 127

/-- A value in which lists and objects nest at most `depth` deep. -/
def readValue : (depth : Nat) → Reading Json
  | depth, cs =>
    match skipBlank cs with
    | 'n' :: 'u' :: 'l' :: 'l' :: rest => .ok (.null, rest)
    | 't' :: 'r' :: 'u' :: 'e' :: rest => .ok (.bool true, rest)
    | 'f' :: 'a' :: 'l' :: 's' :: 'e' :: rest => .ok (.bool false, rest)
    | '"' :: rest => do
      let (s, rest) ← orMalformed (readText? rest)
      return (.text (String.ofList s), rest)
    | '-' :: rest => do
      let (n, rest) ← orMalformed (readNumber? true rest)
      return (.number n, rest)
    | '[' :: rest =>
      match depth with
      | 0 => .error .malformed
      | depth + 1 => do
        let (items, rest) ← enclosed ']' (fun items cs => do
          let (v, rest) ← readValue depth cs
          return (v :: items, rest)) [] rest
        return (.list items.reverse, rest)
    | '{' :: rest =>
      match depth with
      | 0 => .error .malformed
      | depth + 1 => do
        let (members, rest) ← enclosed '}' (fun members cs => do
          let (key, rest) ← readKey cs
          let (v, rest) ← readValue depth (← skipColon rest)
          return ((key, v) :: members, rest)) [] rest
        return (.object members.reverse, rest)
    | cs => do
      let (n, rest) ← orMalformed (readNumber? false cs)
      return (.number n, rest)

/-- The fault of a text whose next value is of the wrong kind.  Of a list or an object
only the bracket is looked at. -/
def misplaced (wanted : String) (cs : List Char) : TextFault :=
  match skipBlank cs with
  | '[' :: _ => .mismatch (.wrongType .list wanted)
  | '{' :: _ => .mismatch (.wrongType .object wanted)
  | cs =>
    match readValue 0 cs with
    | .ok (v, _) => .mismatch (v.wrongType wanted)
    | .error fault => fault

end Json
end DrawStream
