import DrawStream.Dialogue
import DrawStream.Device.Basic
import DrawStream.Failure
import DrawStream.Note

/-! # Scripts

The operations of this library are scripts: dialogues that put requests to a device, ask
it for its errors, and leave notes.  Where a script goes through a table the order is not
its own choice, so it asks for that too (`arranged`).  A script is run on a device by `run`,
which also writes down the calls and notes in the order in which they come about. -/
namespace DrawStream

/-- A single act of a script. -/
inductive Act : Type → Type 1
  /-- A request to the device. -/
  | request {β : Type} (r : Request β) : Act β
  /-- Ask the device for its errors until it is silent or repeats itself. -/
  | drain : Act (List Nat)
  /-- Settle the order in which a table is gone through. -/
  | arrange : Act Arrangement
  | note (n : Note) : Act Unit

/-- A conversation with a device that leaves notes. -/
abbrev Script (α : Type) := Dialogue Act α

/-- What comes about when a script runs. -/
inductive Event
  | call (c : Call)
  | note (n : Note)
  deriving DecidableEq

/-- What has become of a script. -/
structure Ran (σ α : Type) where
  value : α
  device : σ
  events : List Event

namespace Act
variable {σ : Type} [Device σ]

/-- Performs an act. -/
def perform : {β : Type} → Act β → σ → Ran σ β
  | _, request r, d =>
    let (b, d) := Device.answer r d
    ⟨b, d, (Call.ofAnswer? r b).toList.map .call⟩
  | _, drain, d =>
    let drained := Device.drain d
    ⟨drained.codes, drained.device, List.replicate drained.questions (.call .getError)⟩
  | _, arrange, d =>
    let (arrangement, d) := Device.arrange d
    ⟨arrangement, d, []⟩
  | _, note n, d => ⟨(), d, [.note n]⟩

end Act

namespace Script
variable {α : Type}

/-- The script of a single request. -/
def request {β : Type} (r : Request β) : Script β := .question (.request r)

/-- The script that leaves a note. -/
def note (n : Note) : Script Unit := .question (.note n)

/-- Fails if the device has errors to report; `checkpoint` names the place of the check. -/
def checkErrors (checkpoint : String) : Script (Outcome Unit) := do
  let codes ← Dialogue.question Act.drain
  return if codes.isEmpty then .ok () else .error (.device checkpoint codes)

/-- The entries of a table, in the order in which it is gone through this time. -/
def arranged (entries : List α) : Script (List α) := do
  return (← Dialogue.question Act.arrange).apply entries

/-- Runs a script on a device. -/
def run {σ : Type} [Device σ] : Script α → σ → Ran σ α
  | .done a, d => ⟨a, d, []⟩
  | .ask act next, d =>
    let first := act.perform d
    let rest := run (next first.value) first.device
    ⟨rest.value, rest.device, first.events ++ rest.events⟩

end Script

/-- The calls among events. -/
def Event.calls (events : List Event) : List Call :=
  events.filterMap fun
    | .call c => some c
    | .note _ => none

/-- The notes among events. -/
def Event.notes (events : List Event) : List Note :=
  events.filterMap fun
    | .call _ => none
    | .note n => some n

@[simp] theorem Event.calls_append (xs ys : List Event) :
    Event.calls (xs ++ ys) = Event.calls xs ++ Event.calls ys :=
  List.filterMap_append

section Run
variable {σ α γ : Type} [Device σ]

@[simp] theorem Script.run_done (a : α) (d : σ) :
    Script.run (Dialogue.done a) d = ⟨a, d, []⟩ := rfl

@[simp] theorem Script.run_ask {β : Type} (act : Act β) (next : β → Script α) (d : σ) :
    Script.run (Dialogue.ask act next) d =
      ⟨(Script.run (next (act.perform d).value) (act.perform d).device).value,
        (Script.run (next (act.perform d).value) (act.perform d).device).device,
        (act.perform d).events ++
          (Script.run (next (act.perform d).value) (act.perform d).device).events⟩ := rfl

@[simp] theorem Script.run_note (n : Note) (d : σ) :
    Script.run (note n) d = ⟨(), d, [.note n]⟩ := rfl

/-- Running one script after another concatenates what comes about. -/
theorem Script.run_bind (x : Script α) (f : α → Script γ) (d : σ) :
    Script.run (x.bind f) d =
      ⟨(Script.run (f (Script.run x d).value) (Script.run x d).device).value,
        (Script.run (f (Script.run x d).value) (Script.run x d).device).device,
        (Script.run x d).events ++
          (Script.run (f (Script.run x d).value) (Script.run x d).device).events⟩ := by
  induction x generalizing d with
  | done a => simp [Dialogue.bind]
  | ask act next ih => simp [ih, List.append_assoc]

end Run
end DrawStream
