import DrawStream.Toml.Reader

/-! # The table that a TOML text stands for

Statements are carried out one after the other on a growing table.  A key never gets a
second value.  A table is given by one header, or by dotted keys that stand together, or
in braces, and by only one of these; but headers of tables inside it may come before its
own.  A path that leads through a list of tables goes on in its last one. -/
namespace DrawStream.Toml

/-- A table that grows, and where the next pairs go. -/
structure Document where
  members : Members := []
  current : List String := []

namespace Document

/-- Puts a value in the place of the one that a key has. -/
def replace (ms : Members) (key : String) (v : Toml) : Members :=
  ms.map fun m => if m.1 = key then (key, v) else m

/-- Changes the table at the end of a path, where tables that are missing come about as
`fresh`.  A dotted key does not lead into a table that has a header. -/
def change? (fresh : TableOrigin) (f : TableOrigin → Members → Option Members) :
    (path : List String) → TableOrigin → Members → Option Members
  | [], origin, ms => f origin ms
  | key :: path, _, ms =>
    match ms.lookup key with
    | none => do return ms ++ [(key, .table fresh (← change? fresh f path fresh []))]
    | some (.table origin inner) =>
      if origin = .braces ∨ (fresh = .dotted ∧ origin = .header) then none
      else do return replace ms key (.table origin (← change? fresh f path origin inner))
    | some (.tables items) => do
      let last ← change? fresh f path .header (items.getLast?.getD [])
      return replace ms key (.tables (items.dropLast ++ [last]))
    | some _ => none

/-- Gives a key a value.  Behind a dotted path only a table of dotted keys is added to. -/
def addPair? (key : Key) (v : Toml) (origin : TableOrigin) (ms : Members) : Option Members :=
  if key.path ≠ [] ∧ origin ≠ .dotted then none
  else if (ms.lookup key.name).isSome then none
  else some (ms ++ [(key.name, v)])

/-- Gives a table its header. -/
def addTable? (name : String) (ms : Members) : Option Members :=
  match ms.lookup name with
  | none => some (ms ++ [(name, .table .header [])])
  | some (.table .onTheWay inner) => some (replace ms name (.table .header inner))
  | some _ => none

/-- Adds a table to a list of tables. -/
def addTables? (name : String) (ms : Members) : Option Members :=
  match ms.lookup name with
  | none => some (ms ++ [(name, .tables [[]])])
  | some (.tables items) => some (replace ms name (.tables (items ++ [[]])))
  | some _ => none

/-- Carries out a statement. -/
def carryOut? (d : Document) : Statement → Option Document
  | .pair key v => do
    let members ← change? .onTheWay
      (fun origin ms => change? .dotted (addPair? key v) key.path origin ms)
      d.current .header d.members
    return { d with members }
  | .table key => do
    let members ← change? .onTheWay (fun _ ms => addTable? key.name ms) key.path .header d.members
    return ⟨members, key.path ++ [key.name]⟩
  | .tables key => do
    let members ← change? .onTheWay (fun _ ms => addTables? key.name ms) key.path .header d.members
    return ⟨members, key.path ++ [key.name]⟩

/-- The table that statements stand for. -/
def ofStatements? (statements : List Statement) : Option Members := do
  let d ← statements.foldlM carryOut? ({} : Document)
  return d.members

end Document

/-- The table that a text stands for. -/
def read? (text : String) : Option Members := do
  Document.ofStatements? (← Statement.readAll? text)

end DrawStream.Toml
