import DrawStream.Toml.Number

/-! # TOML dates and times

A moment is a date, a time of day, or both with or without the offset of a time zone.
Each field has a fixed count of digits and its own range; a date is not looked up in a
calendar, so every month has 31 days here. -/
namespace DrawStream.Toml

/-- What is left behind a field of `count` digits whose number is in a range. -/
def field? (count least greatest : Nat) (cs : List Char) : Option (List Char) :=
  let digits := cs.take count
  let n := valueIn 10 digits
  if digits.length = count ∧ digits.all Char.isDigit ∧ least ≤ n ∧ n ≤ greatest then
    some (cs.drop count)
  else none

/-- What is left behind a character. -/
def mark? (c : Char) : List Char → Option (List Char)
  | d :: rest => if d = c then some rest else none
  | [] => none

/-- What is left behind a date. -/
def date? (cs : List Char) : Option (List Char) := do
  let cs ← field? 4 0 9999 cs
  let cs ← field? 2 1 12 (← mark? '-' cs)
  field? 2 1 31 (← mark? '-' cs)

/-- What is left behind the fraction of a second, if there is one. -/
def secondFraction? (cs : List Char) : Option (List Char) :=
  match cs with
  | '.' :: rest =>
    if (rest.takeWhile Char.isDigit).isEmpty then none else some (rest.dropWhile Char.isDigit)
  | cs => some cs

/-- What is left behind a time of day. -/
def time? (cs : List Char) : Option (List Char) := do
  let cs ← field? 2 0 23 cs
  let cs ← field? 2 0 59 (← mark? ':' cs)
  let cs ← field? 2 0 60 (← mark? ':' cs)
  secondFraction? cs

/-- What is left behind the offset of a time zone, if there is one. -/
def offset? (cs : List Char) : Option (List Char) :=
  match cs with
  | 'Z' :: rest | 'z' :: rest => some rest
  | '+' :: rest | '-' :: rest => do
    let cs ← field? 2 0 23 rest
    field? 2 0 59 (← mark? ':' cs)
  | cs => some cs

/-- What is left behind a mark between date and time, the time and its offset. -/
def timeOfDate? (cs : List Char) : Option (List Char) :=
  match cs with
  | 'T' :: rest | 't' :: rest | ' ' :: rest => do offset? (← time? rest)
  | _ => none

/-- A moment. -/
def readMoment? : Scan Toml := fun cs => do
  let rest ← match date? cs with
    | some rest => some ((timeOfDate? rest).getD rest)
    | none => time? cs
  return (.moment (between cs rest), rest)

end DrawStream.Toml
