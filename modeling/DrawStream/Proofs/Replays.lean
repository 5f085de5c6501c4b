import DrawStream.Proofs.CommandText
import DrawStream.Proofs.Loading
import DrawStream.Proofs.Session
import DrawStream.Replay

/-! # Replays do not depend on the mode

Whether the settings let commands wait decides where a failure comes up in a replay: while
the commands are submitted, or when the queue is executed.  It makes no difference to what
the program shows.  Both ways the commands run up to the first one that would fail if all
of them were executed (`script_stops`), and the calls are listed only if there is none.
So two replays of one file with settings that differ in the mode are `Seen` alike
(`seen_alike`): where tables come in the same orders the lines are the same, and where they
come in other orders the lines for the bindings of a draw stand in another order and no
other line does.

What is seen leaves the log out, which does depend on the mode: the execution of a queue is
noted.  Lines of the log and lines of calls are told apart by how they begin: the second
letter of a level is a capital, that of a call is not. -/
namespace DrawStream

/-! ## Lines of the log -/

/-- How the line of a note begins. -/
def Level.heading (level : Level) : String :=
  level.name ++ String.ofList (List.replicate (5 - level.name.length) ' ') ++ " ["

/-- The line is one of a log. -/
def isLogged (line : String) : Bool :=
  [Level.error, .warn, .info, .debug, .trace].any fun level =>
    level.heading.toList.isPrefixOf line.toList

/-- The second letter of a line. -/
def secondLetter? (line : String) : Option Char := (line.toList.drop 1).head?

theorem Note.isLogged_line (n : Note) : isLogged n.line = true := by
  have hmem : n.level ∈ [Level.error, .warn, .info, .debug, .trace] := by
    cases n.level <;> decide
  refine List.any_eq_true.mpr ⟨n.level, hmem, List.isPrefixOf_iff_prefix.mpr ?_⟩
  have hline : n.line = n.level.heading ++ n.target ++ "] " ++ n.message := rfl
  rw [hline, String.toList_append, String.toList_append, String.toList_append]
  exact ⟨_, (List.append_assoc ..).symm.trans (List.append_assoc ..).symm⟩

/-- A line that begins with another one of two letters at least has its second letter. -/
theorem secondLetter?_of_begins {line start : String} {letter : Char}
    (hstart : secondLetter? start = some letter) (hbegins : start.toList <+: line.toList) :
    secondLetter? line = some letter := by
  obtain ⟨rest, hrest⟩ := hbegins
  unfold secondLetter? at hstart ⊢
  rw [← hrest]
  match hletters : start.toList with
  | [] | [_] => simp [hletters] at hstart
  | first :: second :: letters => simpa [hletters] using hstart

theorem Level.secondLetter?_heading (level : Level) :
    ∃ letter, secondLetter? level.heading = some letter ∧ letter.isLower = false := by
  cases level with
  | error | trace => exact ⟨'R', by decide, by decide⟩
  | warn => exact ⟨'A', by decide, by decide⟩
  | info => exact ⟨'N', by decide, by decide⟩
  | debug => exact ⟨'E', by decide, by decide⟩

theorem isLogged_eq_false {line : String} {letter : Char}
    (hline : secondLetter? line = some letter) (hlower : letter.isLower = true) :
    isLogged line = false := by
  refine List.any_eq_false.mpr ?_
  intro level _ hbegins
  obtain ⟨capital, hheading, hcapital⟩ := level.secondLetter?_heading
  have hsecond := secondLetter?_of_begins hheading (List.isPrefixOf_iff_prefix.mp hbegins)
  rw [hline] at hsecond
  cases hsecond
  rw [hlower] at hcapital
  cases hcapital

theorem Call.name_prefix_describe (c : Call) : c.form.name.toList <+: c.describe.toList := by
  unfold Call.describe
  dsimp only
  split
  · exact List.prefix_refl _
  · split <;> simp only [String.toList_append, List.append_assoc, List.prefix_append]

theorem Call.isLogged_describe (c : Call) : isLogged c.describe = false := by
  have hsmall : (secondLetter? c.form.name).any Char.isLower = true := c.small_second_letter
  rcases hname : secondLetter? c.form.name with _ | letter
  · rw [hname] at hsmall
    cases hsmall
  · rw [hname] at hsmall
    exact isLogged_eq_false (secondLetter?_of_begins hname c.name_prefix_describe) hsmall

/-! ## Executing up to the first failure -/

/-- The first failure among outcomes. -/
def firstFailure? (outcomes : List (Outcome Unit)) : Option Failure :=
  outcomes.findSome? fun outcome =>
    match outcome with
    | .error failure => some failure
    | .ok () => none

theorem firstFailure?_ok {α : Type} (xs : List α) (rest : List (Outcome Unit)) :
    firstFailure? (xs.map (fun _ => .ok ()) ++ rest) = firstFailure? rest := by
  induction xs with
  | nil => rfl
  | cons x xs ih => exact ih

/-- What a script has come to that executes commands up to the first failure, where `direct`
is what executing them all comes to: it ends with that failure, and if there is none, it has
made the same calls. -/
structure StopsAtFailure {σ α : Type} (direct : Ran σ (List (Outcome Unit) × Context))
    (outcome : Outcome α) (events : List Event) : Prop where
  of_failure : ∀ failure, firstFailure? direct.value.1 = some failure → outcome = .error failure
  of_none : firstFailure? direct.value.1 = none →
    (∃ a, outcome = .ok a) ∧ Event.calls events = Event.calls direct.events

namespace Context
variable {σ : Type} [Device σ] (c : Context) (d : σ)

/-- Commands that wait are not executed when they are submitted. -/
theorem run_submitAll_deferred (commands : List Command) (hmode : c.deferred = true) :
    (c.submitAll commands).run d =
      ⟨(.ok (), c.withQueue (c.queue ++ commands) true), d, []⟩ := by
  induction commands generalizing c with
  | nil => rw [List.append_nil, ← hmode, withQueue_self, submitAll]; rfl
  | cons command rest ih =>
    have hsubmit : c.submit command =
        .done (.ok (), c.withQueue (c.queue ++ [command]) c.deferred) := by
      simp only [submit, hmode, if_true]
      rfl
    have hrest := ih (c.withQueue (c.queue ++ [command]) c.deferred) hmode
    have hqueue : (c.withQueue (c.queue ++ [command]) c.deferred).queue ++ rest =
        c.queue ++ command :: rest := List.append_assoc ..
    rw [hqueue] at hrest
    rw [submitAll, hsubmit]
    exact hrest

theorem run_submitAll_cons (command : Command) (rest : List Command)
    (hmode : c.deferred = false) :
    (c.submitAll (command :: rest)).run d =
      let first := (c.execute command).run d
      match first.value.1 with
      | .error failure => ⟨(.error failure, first.value.2), first.device, first.events⟩
      | .ok () =>
        let later := (first.value.2.submitAll rest).run first.device
        ⟨later.value, later.device, first.events ++ later.events⟩ := by
  simp only [submitAll, submit, hmode, Dialogue.bind_eq, Script.run_bind, Bool.false_eq_true,
    if_false]
  generalize (c.execute command).run d = first
  obtain ⟨⟨outcome, after⟩, device, events⟩ := first
  cases outcome <;> simp

/-- Commands that do not wait are executed when they are submitted, up to the first one that
fails.  The induction is on the commands, since a failure ends the submission. -/
theorem submitAll_immediate (commands : List Command) (hmode : c.deferred = false) :
    StopsAtFailure ((c.executeEach commands).run d) ((c.submitAll commands).run d).value.1
        ((c.submitAll commands).run d).events ∧
      ((c.submitAll commands).run d).value.2.queue = c.queue := by
  induction commands generalizing c d with
  | nil =>
    refine ⟨⟨?_, fun _ => ⟨⟨(), rfl⟩, rfl⟩⟩, rfl⟩
    intro failure hfailure
    cases hfailure
  | cons command rest ih =>
    obtain ⟨hqueue, hdeferred⟩ := run_execute_queue c command d
    rw [run_submitAll_cons c d command rest hmode, run_executeEach_cons]
    rcases hfirst : (c.execute command).run d with ⟨⟨outcome, after⟩, device, events⟩
    rw [hfirst] at hqueue hdeferred
    rcases outcome with failure | ⟨⟩
    · refine ⟨⟨?_, ?_⟩, hqueue⟩
      · intro other hother
        cases hother
        rfl
      · intro hnone
        cases hnone
    · obtain ⟨hrest, hrestQueue⟩ := ih after device (hdeferred.trans hmode)
      refine ⟨⟨hrest.of_failure, ?_⟩, hrestQueue.trans hqueue⟩
      intro hnone
      obtain ⟨hok, hcalls⟩ := hrest.of_none hnone
      refine ⟨hok, ?_⟩
      show Event.calls (events ++ _) = Event.calls (events ++ _)
      rw [Event.calls_append, Event.calls_append, hcalls]

/-- Executing the queue notes no more than what executing its commands does. -/
theorem run_executePending :
    ((c.executePending).run d).value = ((c.executeAll 0 c.queue).run d).value ∧
      Event.calls ((c.executePending).run d).events =
        Event.calls ((c.executeAll 0 c.queue).run d).events := by
  obtain ⟨notes, hnotes, -, htake⟩ := take_executePending c d
  simp only [take, Dialogue.bind_eq, Script.run_bind, Dialogue.pure_eq_done, Script.run_done,
    List.append_nil, Ran.mk.injEq, Prod.mk.injEq, Reply.executed.injEq] at htake
  obtain ⟨⟨houtcome, hcontext⟩, -, hevents⟩ := htake
  refine ⟨Prod.ext houtcome hcontext, ?_⟩
  rw [hevents, Event.calls_append, hnotes, List.append_nil]

/-- A queue is executed up to the first command that fails. -/
theorem executeAll_stops :
    StopsAtFailure ((c.executeEach c.queue).run d) ((c.executeAll 0 c.queue).run d).value.1
      ((c.executeAll 0 c.queue).run d).events := by
  obtain ⟨ran, hran⟩ := stoppedAfter_executeAll (d := d) 0 (rfl : c.queue = c.queue)
  rcases houtcome : ((c.executeAll 0 c.queue).run d).value.1 with failure | count
  · obtain ⟨-, houtcomes⟩ := hran.of_error failure houtcome
    have hfirst : firstFailure? ((c.executeEach c.queue).run d).value.1 = some failure := by
      rw [hran.split, run_executeEach_append]
      show firstFailure? (((c.executeEach ran).run d).value.1 ++ _) = _
      rw [houtcomes, List.append_assoc, firstFailure?_ok]
      rfl
    refine ⟨?_, ?_⟩
    · intro other hother
      rw [hfirst] at hother
      cases hother
      rfl
    · intro hnone
      rw [hfirst] at hnone
      cases hnone
  · obtain ⟨hempty, -, houtcomes⟩ := hran.of_ok count houtcome
    have hall : c.queue = ran := by
      rw [hran.split, hempty, List.append_nil]
    have hfirst : firstFailure? ((c.executeEach ran).run d).value.1 = none := by
      rw [houtcomes]
      exact List.append_nil (ran.map _) ▸ firstFailure?_ok ran []
    rw [← hall] at hfirst
    have hevents := hran.events
    rw [← hall] at hevents
    refine ⟨?_, fun _ => ⟨⟨count, rfl⟩, congrArg Event.calls hevents⟩⟩
    intro failure hfailure
    rw [hfirst] at hfailure
    cases hfailure

theorem executePending_stops :
    StopsAtFailure ((c.executeEach c.queue).run d) ((c.executePending).run d).value.1
      ((c.executePending).run d).events := by
  obtain ⟨hvalue, hcalls⟩ := run_executePending c d
  have hstops := executeAll_stops c d
  refine ⟨?_, ?_⟩
  · intro failure hfailure
    rw [hvalue]
    exact hstops.of_failure failure hfailure
  · intro hnone
    rw [hvalue, hcalls]
    exact hstops.of_none hnone

end Context

namespace Replay
variable {σ : Type} [Device σ] (settings : Settings) (path : String) (commands : List Command)
  (d : σ)

/-- The second part of a replay: the queue is executed. -/
def executeQueue (c : Context) : Script (Outcome Unit) := do
  match ← c.executePending with
  | (.error failure, _) => return .error failure
  | (.ok count, _) =>
    Script.note (.replayed count)
    return .ok ()

theorem script_eq :
    script settings path commands =
      (Script.note (.replaying commands.length path)).bind fun _ =>
        (Context.submitAll { deferred := settings.deferred, usage := settings.usage }
          commands).bind fun
        | (.error failure, _) => .done (.error failure)
        | (.ok (), c) => executeQueue c := rfl

theorem executeQueue_stops (c : Context) :
    StopsAtFailure ((c.executeEach c.queue).run d) ((executeQueue c).run d).value
      ((executeQueue c).run d).events := by
  have hstops := Context.executePending_stops c d
  simp only [executeQueue, Dialogue.bind_eq, Script.run_bind]
  rcases hpending : c.executePending.run d with ⟨⟨outcome, after⟩, device, events⟩
  rw [hpending] at hstops
  refine ⟨?_, ?_⟩
  · intro failure hfailure
    cases hstops.of_failure failure hfailure
    rfl
  · intro hnone
    obtain ⟨⟨count, hcount⟩, hcalls⟩ := hstops.of_none hnone
    cases hcount
    refine ⟨⟨(), rfl⟩, ?_⟩
    show Event.calls (events ++ [.note _]) = _
    rw [Event.calls_append, hcalls]
    exact List.append_nil _

/-- **The commands of a replay run up to the first failure, whatever the mode.** -/
theorem script_stops :
    StopsAtFailure ((Context.executeEach { usage := settings.usage } commands).run d)
      ((script settings path commands).run d).value
      ((script settings path commands).run d).events := by
  rw [script_eq, Script.run_bind, Script.run_note, Script.run_bind]
  -- Seen from an execution, the context differs from a new one in nothing.
  have hopening : ({ deferred := settings.deferred, usage := settings.usage } : Context) =
    Context.withQueue { usage := settings.usage } [] settings.deferred := rfl
  rw [hopening]
  cases hmode : settings.deferred with
  | true =>
    rw [Context.run_submitAll_deferred _ d commands rfl]
    have hstops := executeQueue_stops d
      (Context.withQueue { usage := settings.usage } commands true)
    have hqueue : (Context.withQueue { usage := settings.usage } commands true).queue =
      commands := rfl
    rw [hqueue, Context.run_executeEach_withQueue] at hstops
    exact ⟨hstops.of_failure, hstops.of_none⟩
  | false =>
    obtain ⟨hstops, hqueue⟩ := Context.submitAll_immediate
      (Context.withQueue { usage := settings.usage } [] false) d commands rfl
    rw [Context.run_executeEach_withQueue] at hstops
    rcases hsubmitted : ((Context.withQueue { usage := settings.usage } [] false).submitAll
      commands).run d with ⟨⟨outcome, c⟩, device, events⟩
    rw [hsubmitted] at hstops hqueue
    refine ⟨?_, ?_⟩
    · intro failure hfailure
      cases hstops.of_failure failure hfailure
      rfl
    · intro hnone
      obtain ⟨⟨⟨⟩, hok⟩, hcalls⟩ := hstops.of_none hnone
      cases hok
      -- Nothing waits, so the execution of the queue has nothing to stop at.
      have hrest := executeQueue_stops device c
      have hempty : c.queue = [] := hqueue
      rw [hempty] at hrest
      obtain ⟨hok, hnothing⟩ := hrest.of_none rfl
      refine ⟨hok, ?_⟩
      show Event.calls (events ++ _) = _
      rw [Event.calls_append, hnothing, hcalls]
      exact List.append_nil _

/-! ## What is seen of a replay -/

/-- What can be seen of a replay, apart from the log. -/
structure Seen where
  exitCode : UInt32
  /-- The first line of the error output. -/
  complaint? : Option String
  /-- The lines of the output that are not of the log. -/
  calls : List String
  deriving DecidableEq

/-- The first line of a text. -/
def firstLine (s : String) : String := String.ofList (s.toList.takeWhile (· ≠ '\n'))

/-- What can be seen of a replay. -/
def seen (r : Replay) : Seen :=
  ⟨r.exitCode, r.complaint?.map firstLine, r.lines.filter fun line => !isLogged line⟩

/-- What is seen is the same, bar the order of bindings. -/
structure Seen.BarOrder (s s' : Seen) : Prop where
  exitCode : s'.exitCode = s.exitCode
  complaint : s'.complaint? = s.complaint?
  calls : DrawStream.BarOrder Call.describe s.calls s'.calls

@[refl] theorem Seen.BarOrder.refl (s : Seen) : s.BarOrder s := ⟨rfl, rfl, .refl _⟩

/-- The recorder of a replay, with the orders in which tables are gone through. -/
def recorder (arrangements : List Arrangement) : Recorder := { permissive := true, arrangements }

/-- What is to be seen when commands are replayed: the calls that executing them makes, or
else the words of the first failure. -/
def toBeSeen (usage : BufferUsage) (commands : List Command) (arrangements : List Arrangement) :
    Seen :=
  let direct := (Context.executeEach { usage } commands).run (recorder arrangements)
  match firstFailure? direct.value.1 with
  | some failure => ⟨1, some (firstLine ("Error: " ++ failure.message)), []⟩
  | none => ⟨0, none, (Event.calls direct.events).map Call.describe⟩

theorem filter_notes (notes : List Note) :
    (notes.map Note.line).filter (fun line => !isLogged line) = [] := by
  refine List.filter_eq_nil_iff.mpr ?_
  intro line hline
  obtain ⟨n, -, rfl⟩ := List.mem_map.mp hline
  rw [n.isLogged_line]
  exact Bool.false_ne_true

theorem filter_calls (calls : List Call) :
    (calls.map Call.describe).filter (fun line => !isLogged line) = calls.map Call.describe := by
  refine List.filter_eq_self.mpr ?_
  intro line hline
  obtain ⟨c, -, rfl⟩ := List.mem_map.mp hline
  rw [c.isLogged_describe]
  rfl

theorem seen_ofCommands (arrangements : List Arrangement) :
    (ofCommands settings path commands arrangements).seen =
      toBeSeen settings.usage commands arrangements := by
  have hstops := script_stops settings path commands (recorder arrangements)
  unfold ofCommands toBeSeen
  dsimp only
  rcases hfirst : firstFailure? ((Context.executeEach { usage := settings.usage } commands).run
    (recorder arrangements)).value.1 with _ | failure
  · obtain ⟨⟨⟨⟩, hok⟩, hcalls⟩ := hstops.of_none hfirst
    rw [recorder] at hok hcalls
    rw [hok, hcalls]
    refine Seen.mk.injEq .. |>.mpr ⟨rfl, rfl, ?_⟩
    rw [List.filter_append, filter_notes, filter_calls, List.nil_append]
    rfl
  · have hfailed := hstops.of_failure failure hfirst
    rw [recorder] at hfailed
    rw [hfailed]
    exact Seen.mk.injEq .. |>.mpr ⟨rfl, rfl, filter_notes _⟩

theorem barOrder_toBeSeen (usage : BufferUsage) (commands : List Command)
    (arrangements arrangements' : List Arrangement) :
    (toBeSeen usage commands arrangements).BarOrder (toBeSeen usage commands arrangements') := by
  have hsame := Context.barOrder_executeEach { usage } (recorder arrangements) arrangements'
    commands
  have hrecorder : (recorder arrangements).inOrders arrangements' = recorder arrangements' := rfl
  rw [hrecorder] at hsame
  unfold toBeSeen
  dsimp only
  rw [hsame.value]
  split
  · exact .refl _
  · exact ⟨rfl, rfl, hsame.events.calls.map Call.describe⟩

section Files
variable {config config' : String} {t t' : FileTree}

/-- The replay of the file at a path, with the orders in which tables are gone through. -/
def inTree (config path : String) (rest : List String) (arrangements : List Arrangement)
    (t : FileTree) : Replay :=
  ((perform (some config) (path :: rest) arrangements).play FileTree.answer t).1

variable {settings path}

theorem inTree_eq (rest : List String) (arrangements : List Arrangement)
    (hload : (Settings.loaded config t).1 = .ok settings) :
    inTree config path rest arrangements t =
      match ((Settings.loaded config t).2.read? path).bind Text.Utf8.decode? with
      | none => stopped (.unreadable path)
      | some text =>
        match Command.readAll text with
        | .error fault => stopped (.commands fault)
        | .ok commands => ofCommands settings path commands arrangements := by
  unfold Settings.loaded at hload ⊢
  simp only [inTree, perform, Dialogue.bind_eq, Dialogue.play_bind, hload, ofArguments,
    Dialogue.question, Dialogue.ask_bind, Dialogue.done_bind, FileTree.play_read]
  cases (((Settings.load config).play FileTree.answer t).2.read? path).bind Text.Utf8.decode? with
  | none => rfl
  | some text =>
    dsimp only
    cases Command.readAll text <;> rfl

/-- **Replays do not depend on the mode.**  Two replays of files with the same bytes, whose
settings differ in no more than the mode, are seen alike bar the order of bindings, and exactly
alike where tables come in the same orders.  If the text of the file does not read as commands,
nothing but that is said; if it does, what is seen is what executing the commands plainly comes
to. -/
theorem seen_alike (rest rest' : List String) (arrangements arrangements' : List Arrangement)
    {deferred : Bool} (hload : (Settings.loaded config t).1 = .ok settings)
    (hload' : (Settings.loaded config' t').1 = .ok { settings with deferred })
    (hread : (Settings.loaded config t).2.read? path =
      (Settings.loaded config' t').2.read? path) :
    (inTree config path rest arrangements t).seen.BarOrder
        (inTree config' path rest' arrangements' t').seen ∧
      (inTree config path rest arrangements t).seen =
        (inTree config' path rest' arrangements t').seen ∧
      ∀ text, ((Settings.loaded config t).2.read? path).bind Text.Utf8.decode? = some text →
        (∀ fault, Command.readAll text = .error fault →
          inTree config path rest arrangements t = stopped (.commands fault) ∧
            inTree config' path rest' arrangements' t' = stopped (.commands fault)) ∧
        ∀ commands, Command.readAll text = .ok commands →
          (inTree config path rest arrangements t).seen =
              toBeSeen settings.usage commands arrangements ∧
            (inTree config' path rest' arrangements' t').seen =
              toBeSeen settings.usage commands arrangements' := by
  simp only [inTree_eq _ _ hload, inTree_eq _ _ hload', ← hread]
  rcases ((Settings.loaded config t).2.read? path).bind Text.Utf8.decode? with _ | text
  · refine ⟨.refl _, rfl, ?_⟩
    intro text htext
    cases htext
  · dsimp only
    rcases hcommands : Command.readAll text with fault | commands
    · refine ⟨.refl _, rfl, ?_⟩
      intro text' htext
      cases htext
      rw [hcommands]
      refine ⟨?_, ?_⟩
      · intro fault' h
        cases h
        exact ⟨rfl, rfl⟩
      · intro commands h
        cases h
    · dsimp only
      rw [seen_ofCommands, seen_ofCommands, seen_ofCommands]
      refine ⟨barOrder_toBeSeen _ _ _ _, rfl, ?_⟩
      intro text' htext
      cases htext
      rw [hcommands]
      refine ⟨?_, ?_⟩
      · intro fault h
        cases h
      · intro commands' h
        cases h
        exact ⟨rfl, rfl⟩

end Files

/-! ## Two replays of one file -/

/-- A tree with the settings of a user, and with commands where the user is at work. -/
def settingsAndCommands (settings commands : String) : FileTree :=
  (Settings.withSettings settings).put ["work", "commands.json"]
    (.file (Text.Utf8.encode commands))

theorem loaded_settingsAndCommands {text : String} {settings : Settings}
    (htext : Settings.ofText? text = some settings) (commands : String) :
    Settings.loaded Settings.userPath (settingsAndCommands text commands) =
      (.ok settings, settingsAndCommands text commands) :=
  Settings.loaded_of_text
    (FileTree.read?_eq_some_iff.mpr ⟨Settings.userPlace, rfl, rfl⟩) htext

theorem read?_settingsAndCommands (text commands : String) :
    (settingsAndCommands text commands).read? "commands.json" =
      some (Text.Utf8.encode commands) :=
  FileTree.read?_eq_some_iff.mpr ⟨["work", "commands.json"], rfl, rfl⟩

/-- The creation of a program. -/
def creation : Command := .create ⟨5, by decide, by decide⟩ .program

/-- A program is created, and another one under the same number. -/
def creationsText : String :=
  "[\x7b\"cmd\":\"create\",\"id\":5,\"kind\":\"Program\"\x7d," ++
    "\x7b\"kind\":\"Program\",\"cmd\":\"create\",\"id\":5\x7d]"

theorem readAll_creationsText : Command.readAll creationsText = .ok [creation, creation] := by
  have hcmd : Json.Spells 1 (.text "create") _ := ⟨_, Json.spellsChars_plain (by decide), rfl⟩
  have hid : Json.Spells 1 (Command.whole (⟨5, by decide, by decide⟩ : Command.Id)) ['5'] :=
    ⟨by decide, by decide, by decide⟩
  have hkind : Json.Spells 1 (Command.word ObjectKind.program) _ :=
    ⟨_, Json.spellsChars_plain (by decide), rfl⟩
  have htag := Json.spellsMember_plain "cmd" (by decide) hcmd
  have hnumber := Json.spellsMember_plain "id" (by decide) hid
  have hthing := Json.spellsMember_plain "kind" (by decide) hkind
  have hfirst : Json.Spells 2 (.object [_, _, _]) _ :=
    ⟨_, .some (.more htag (.more hnumber (.one hthing))), rfl⟩
  have hsecond : Json.Spells 2 (.object [_, _, _]) _ :=
    ⟨_, .some (.more hthing (.more htag (.one hnumber))), rfl⟩
  have hforms : List.Forall₂ Command.Form [creation, creation] _ :=
    .cons (.object (.create _ _) (.refl _))
      (.cons (.object (.create _ _) (.trans (.swap _ _ _) (.cons _ (.swap _ _ _)))) .nil)
  refine Command.readAll_of_spelledBy ⟨_, hforms, Json.padded_self ⟨3, _, .some (.more
    (Json.padded_self hfirst) (.one (Json.padded_self hsecond))), ?_⟩⟩
  decide

/-- The settings say nothing, so commands wait. -/
def waitingTree : FileTree := settingsAndCommands "" creationsText

/-- The settings let nothing wait. -/
def immediateTree : FileTree := settingsAndCommands "deferred = false" creationsText

/-- Both ways the second creation fails, and the calls of the first one are not listed. -/
theorem creations_seen_alike :
    (inTree Settings.userPath "commands.json" [] [] waitingTree).seen =
        ⟨1, some "Error: object id 5 already exists", []⟩ ∧
      (inTree Settings.userPath "commands.json" [] [[1]] immediateTree).seen =
        ⟨1, some "Error: object id 5 already exists", []⟩ := by
  have hloaded : Settings.loaded Settings.userPath waitingTree = (.ok {}, waitingTree) :=
    loaded_settingsAndCommands (by decide +kernel) _
  have hloaded' : Settings.loaded Settings.userPath immediateTree =
      (.ok { ({} : Settings) with deferred := false }, immediateTree) :=
    loaded_settingsAndCommands (by decide +kernel) _
  have hcommands : waitingTree.read? "commands.json" = some (Text.Utf8.encode creationsText) :=
    read?_settingsAndCommands _ _
  have hcommands' : immediateTree.read? "commands.json" =
      some (Text.Utf8.encode creationsText) := read?_settingsAndCommands _ _
  have hfailure (arrangements : List Arrangement) :
      toBeSeen .dynamicDraw [creation, creation] arrangements =
        ⟨1, some "Error: object id 5 already exists", []⟩ := rfl
  obtain ⟨-, -, hseen⟩ := seen_alike [] [] [] [[1]] (congrArg Prod.fst hloaded)
    (congrArg Prod.fst hloaded') (by rw [hloaded, hloaded', hcommands, hcommands'])
  have htext : ((Settings.loaded Settings.userPath waitingTree).2.read? "commands.json").bind
      Text.Utf8.decode? = some creationsText := by
    rw [hloaded, hcommands]
    exact Text.Utf8.decode?_encode creationsText
  obtain ⟨hwaiting, himmediate⟩ := (hseen _ htext).2 _ readAll_creationsText
  exact ⟨hwaiting.trans (hfailure _), himmediate.trans (hfailure _)⟩

end Replay
end DrawStream
