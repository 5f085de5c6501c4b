import DrawStream.Text.Hidden
import DrawStream.Text.Hex

/-! # Quoted text, as descriptions and messages show it

A quotation mark and a backslash are escaped, the usual control characters have
a letter, and any other character without a picture of its own is shown by its
number.  An apostrophe stays as it is. -/
namespace DrawStream.Text

/-- One character inside quotes. -/
def quoteChar (c : Char) : List Char :=
  if c = '"' then ['\\', '"']
  else if c = '\\' then ['\\', '\\']
  else if c = '\n' then ['\\', 'n']
  else if c = '\t' then ['\\', 't']
  else if c = '\r' then ['\\', 'r']
  else if c = '\x00' then ['\\', '0']
  else if c.toNat < 0x20 ∨ isHidden c.toNat then
    '\\' :: 'u' :: '{' :: (hexDigits 1 c.toNat ++ ['}'])
  else [c]

/-- The text between quotation marks. -/
def quoted (s : String) : String :=
  String.ofList ('"' :: (s.toList.flatMap quoteChar ++ ['"']))

end DrawStream.Text
