import DrawStream.Text.Hex

/-! # Reading the text between quotation marks

Control characters must be escaped.  A character beyond U+FFFF may be escaped as a
pair of surrogates; a surrogate without its partner is refused. -/
namespace DrawStream.Json
open DrawStream.Text

/-- The character that a one-letter escape stands for. -/
def letterEscape? : Char → Option Char
  | '"' => some '"'
  | '\\' => some '\\'
  | '/' => some '/'
  | 'b' => some '\x08'
  | 'f' => some '\x0c'
  | 'n' => some '\n'
  | 'r' => some '\r'
  | 't' => some '\t'
  | _ => none

/-- A code unit that begins a pair. -/
def isHighSurrogate (n : Nat) : Bool := 0xd800 ≤ n && n < 0xdc00

/-- A code unit that ends a pair. -/
def isLowSurrogate (n : Nat) : Bool := 0xdc00 ≤ n && n < 0xe000

/-- The character that a pair of surrogates stands for. -/
def joinSurrogates (high low : Nat) : Char :=
  Char.ofNat (0x10000 + (high - 0xd800) * 0x400 + (low - 0xdc00))

/-- Reads text up to and with the closing quotation mark. -/
def readText? : List Char → Option (List Char × List Char)
  | [] => none
  | '"' :: rest => some ([], rest)
  | '\\' :: 'u' :: a :: b :: c :: d :: rest => do
    let n ← hexNumber? 0 [a, b, c, d]
    if isLowSurrogate n then none
    else if isHighSurrogate n then
      match rest with
      | '\\' :: 'u' :: a :: b :: c :: d :: rest => do
        let m ← hexNumber? 0 [a, b, c, d]
        if isLowSurrogate m then
          let (s, rest) ← readText? rest
          return (joinSurrogates n m :: s, rest)
        else none
      | _ => none
    else
      let (s, rest) ← readText? rest
      return (Char.ofNat n :: s, rest)
  | '\\' :: e :: rest => do
    let c ← letterEscape? e
    let (s, rest) ← readText? rest
    return (c :: s, rest)
  | c :: rest => do
    if c.toNat < 0x20 then none
    let (s, rest) ← readText? rest
    return (c :: s, rest)

end DrawStream.Json
