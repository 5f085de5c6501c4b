import DrawStream.Toml.Value

/-! # Between the values of a TOML text

There may be blanks, comments and line ends. -/
namespace DrawStream.Toml

/-- A blank inside a line. -/
def isBlank (c : Char) : Bool := c = ' ' || c = '\t'

/-- What is left behind the blanks at the front. -/
def skipBlank (cs : List Char) : List Char := cs.dropWhile isBlank

/-- A character that is neither a control character nor a line end; a tab counts as one. -/
def isPrinting (c : Char) : Bool := c = '\t' || (0x20 ≤ c.toNat && c.toNat != 0x7F)

/-- What is left behind a comment, if one is at the front. -/
def skipComment : List Char → List Char
  | '#' :: rest => rest.dropWhile isPrinting
  | cs => cs

/-- What is left behind a line end, which is a line feed with or without a carriage
return; the end of the text will do as well. -/
def lineEnd? : List Char → Option (List Char)
  | [] => some []
  | '\n' :: rest | '\r' :: '\n' :: rest => some rest
  | _ => none

/-- What is left behind the rest of a line that holds nothing but a comment. -/
def finishLine? (cs : List Char) : Option (List Char) := lineEnd? (skipComment (skipBlank cs))

/-- What is left behind blanks, comments and line ends, `comment` being true inside of a
comment. -/
def skipFiller : (comment : Bool) → List Char → List Char
  | _, [] => []
  | _, '\n' :: rest | _, '\r' :: '\n' :: rest => skipFiller false rest
  | comment, c :: rest =>
    if comment && isPrinting c then skipFiller true rest
    else if comment then c :: rest
    else if isBlank c then skipFiller false rest
    else if c = '#' then skipFiller true rest
    else c :: rest

end DrawStream.Toml
