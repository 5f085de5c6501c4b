/-! # TOML values

Tables remember how they came about, because that decides what may be added to them
later in a file. -/
namespace DrawStream

/-- How a table came about. -/
inductive TableOrigin
  /-- Written in braces; nothing is added to it. -/
  | braces
  /-- By a header of its own. -/
  | header
  /-- By a header of a table inside it. -/
  | onTheWay
  /-- By a dotted key. -/
  | dotted
  deriving DecidableEq, Repr

/-- A TOML value.  Numbers with a fraction and moments in time are kept as written. -/
inductive Toml
  | text (s : String)
  | whole (n : Int)
  | real (written : String)
  | flag (b : Bool)
  | moment (written : String)
  | list (items : List Toml)
  | table (origin : TableOrigin) (members : List (String × Toml))
  /-- The tables of repeated double headers; the last one may still grow. -/
  | tables (items : List (List (String × Toml)))

namespace Toml

/-- The members of a table, in the order of their appearance. -/
abbrev Members := List (String × Toml)

/-- Reads something off the front of a text, and gives what is left. -/
abbrev Scan (α : Type) := List Char → Option (α × List Char)

end Toml
end DrawStream
