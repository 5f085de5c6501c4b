import DrawStream.Proofs.Rolls

/-! # Every execution is announced

Executing a command begins with a note of the command, and announcements are not among the topics
of what a command says.  So the commands that ran can be read off what came about, in the order
in which they ran (`executed_execute`). -/
namespace DrawStream

/-- The command whose execution an event announces. -/
def Event.command? : Event → Option Command
  | .note (.executing command) => some command
  | _ => none

/-- The commands whose execution is announced, in order. -/
def Event.executed (events : List Event) : List Command := events.filterMap command?

@[simp] theorem Event.executed_append (xs ys : List Event) :
    Event.executed (xs ++ ys) = Event.executed xs ++ Event.executed ys :=
  List.filterMap_append

/-- A script that has nothing to do with announcements announces no command. -/
theorem Script.Within.executed_eq_nil {α : Type} {topics : List Topic} {post : α → Prop}
    {x : Script α} (h : x.Within topics post) (htopics : .announcement ∉ topics) {σ : Type}
    [Device σ] (d : σ) : Event.executed (x.run d).events = [] := by
  refine List.filterMap_eq_nil_iff.mpr (h.forall_events (fun e => e.command? = none) ?_ ?_ ?_ d)
  · exact fun _ _ _ _ _ => rfl
  · exact fun _ => rfl
  · intro n hn
    cases n with
    | executing command => exact absurd (hn _ rfl) htopics
    | _ => rfl

/-- **An execution announces its command and no other.** -/
theorem Context.executed_execute (c : Context) {σ : Type} [Device σ] (command : Command) (d : σ) :
    Event.executed ((c.execute command).run d).events = [command] := by
  have hsilent : .announcement ∉ command.topics := by cases command <;> simp [Command.topics]
  have hrest := (within_carryOut (c := c) command).executed_eq_nil hsilent d
  -- The first event is the announcement, and no other follows.
  exact congrArg (command :: ·) hrest

end DrawStream
