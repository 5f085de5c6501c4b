import DrawStream.Text.Hex
import DrawStream.Toml.Blank

/-! # TOML texts

There are four ways to write a text: in quotation marks or in apostrophes, on one line
between single marks or over several between triple ones.  Only between quotation marks
a backslash means something; between triple ones it may also stand at the end of a line,
and then everything up to the next character that is not blank is left out.  Up to two
marks may stand directly before three closing ones. -/
namespace DrawStream.Toml
open DrawStream.Text

/-- The character that a one-letter escape stands for. -/
def letterEscape? : Char → Option Char
  | '"' => some '"'
  | '\\' => some '\\'
  | 'b' => some '\x08'
  | 'f' => some '\x0c'
  | 'n' => some '\n'
  | 'r' => some '\r'
  | 't' => some '\t'
  | _ => none

/-- The character whose number the hexadecimal digits give; a surrogate is none. -/
def codePoint? (digits : List Char) : Option Char := do
  let n ← hexNumber? 0 digits
  if n.isValidChar then some (Char.ofNat n) else none

/-- Puts a character in front of a text that has been read. -/
def prepend (c : Char) (r : List Char × List Char) : List Char × List Char := (c :: r.1, r.2)

/-- Text up to and with the closing quotation mark. -/
def readQuoted? : Scan (List Char)
  | [] => none
  | '"' :: rest => some ([], rest)
  | '\\' :: 'u' :: a :: b :: c :: d :: rest => do
    let x ← codePoint? [a, b, c, d]
    return prepend x (← readQuoted? rest)
  | '\\' :: 'U' :: a :: b :: c :: d :: e :: f :: g :: h :: rest => do
    let x ← codePoint? [a, b, c, d, e, f, g, h]
    return prepend x (← readQuoted? rest)
  | '\\' :: e :: rest => do
    let x ← letterEscape? e
    return prepend x (← readQuoted? rest)
  | c :: rest => do
    if c ≠ '\\' ∧ isPrinting c then return prepend c (← readQuoted? rest) else none

/-- Whether nothing but blanks is left of the line. -/
def atLineEnd (cs : List Char) : Bool :=
  match skipBlank cs with
  | '\n' :: _ | '\r' :: '\n' :: _ => true
  | _ => false

/-- Text up to and with the three closing quotation marks.  While `skipping`, blanks and
line ends are left out. -/
def readQuotedLines? : (skipping : Bool) → Scan (List Char)
  | _, [] => none
  | _, '"' :: '"' :: '"' :: '"' :: '"' :: rest => some (['"', '"'], rest)
  | _, '"' :: '"' :: '"' :: '"' :: rest => some (['"'], rest)
  | _, '"' :: '"' :: '"' :: rest => some ([], rest)
  | skipping, '\n' :: rest | skipping, '\r' :: '\n' :: rest =>
    if skipping then readQuotedLines? true rest
    else (readQuotedLines? false rest).map (prepend '\n')
  | _, '\\' :: 'u' :: a :: b :: c :: d :: rest => do
    let x ← codePoint? [a, b, c, d]
    return prepend x (← readQuotedLines? false rest)
  | _, '\\' :: 'U' :: a :: b :: c :: d :: e :: f :: g :: h :: rest => do
    let x ← codePoint? [a, b, c, d, e, f, g, h]
    return prepend x (← readQuotedLines? false rest)
  | _, '\\' :: e :: rest =>
    if atLineEnd (e :: rest) then readQuotedLines? true (e :: rest)
    else do
      let x ← letterEscape? e
      return prepend x (← readQuotedLines? false rest)
  | skipping, c :: rest =>
    if skipping && isBlank c then readQuotedLines? true rest
    else if c ≠ '\\' ∧ isPrinting c then (readQuotedLines? false rest).map (prepend c)
    else none

/-- Text up to and with the closing apostrophe. -/
def readLiteral? : Scan (List Char)
  | [] => none
  | '\'' :: rest => some ([], rest)
  | c :: rest => do
    if isPrinting c then return prepend c (← readLiteral? rest) else none

/-- Text up to and with the three closing apostrophes. -/
def readLiteralLines? : Scan (List Char)
  | [] => none
  | '\'' :: '\'' :: '\'' :: '\'' :: '\'' :: rest => some (['\'', '\''], rest)
  | '\'' :: '\'' :: '\'' :: '\'' :: rest => some (['\''], rest)
  | '\'' :: '\'' :: '\'' :: rest => some ([], rest)
  | '\n' :: rest | '\r' :: '\n' :: rest => (readLiteralLines? rest).map (prepend '\n')
  | c :: rest => do
    if isPrinting c then return prepend c (← readLiteralLines? rest) else none

/-- What is left behind a line end, if one is at the front. -/
def skipLineEnd : List Char → List Char
  | '\n' :: rest | '\r' :: '\n' :: rest => rest
  | cs => cs

/-- A text in any of the four ways. -/
def readText? : Scan (List Char)
  | '"' :: '"' :: '"' :: rest => readQuotedLines? false (skipLineEnd rest)
  | '"' :: rest => readQuoted? rest
  | '\'' :: '\'' :: '\'' :: rest => readLiteralLines? (skipLineEnd rest)
  | '\'' :: rest => readLiteral? rest
  | _ => none

end DrawStream.Toml
