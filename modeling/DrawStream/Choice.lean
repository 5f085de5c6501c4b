/-! # Closed sets of named values

A `Choice` has a spelling in command text (`word`) and a name in descriptions
(`label`).  Reading a word is looking it up in the list of all values, so what can
be read is exactly what can be written. -/
namespace DrawStream

/-- A finite set of values with two names each. -/
class Choice (α : Type) where
  /-- Every value, in the order in which messages list them. -/
  all : List α
  /-- The spelling in command text. -/
  word : α → String
  /-- The name in descriptions. -/
  label : α → String

namespace Choice
variable {α : Type} [Choice α]

/-- The value a word spells. -/
def ofWord? (s : String) : Option α := all.find? fun a => word a == s

/-- The spellings of all values, in order. -/
def words (α : Type) [Choice α] : List String := (all : List α).map word

/-- A word in the marks that messages put around names. -/
def mark (s : String) : String := "`" ++ s ++ "`"

/-- The words a message offers in place of an unknown one. -/
def offer : List String → String
  | [a] => mark a
  | [a, b] => mark a ++ " or " ++ mark b
  | words => "one of " ++ ", ".intercalate (words.map mark)

theorem word_of_ofWord? {s : String} {a : α} (h : ofWord? s = some a) : word a = s := by
  have := List.find?_some h
  simpa using this

end Choice
end DrawStream
