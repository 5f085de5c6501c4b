import Mathlib.Data.List.Basic
import DrawStream.Proofs.Announcement
import DrawStream.Proofs.Orderless
import DrawStream.Proofs.QueueFrame

/-! # Sessions with a context

A sender submits commands, switches between the modes and has the queue executed, in any
order; these are its turns.  A `Session` is what has become of a list of turns: one `Round`
for each of them, with the commands that ran in it as they were announced, and the context
and the device in the end.

`executeEach` is the plain thing to compare with: it executes commands one after the other
and goes on after failures.  The main results are that every round is `Orderly`, that no
command is lost, repeated or reordered in the queue, and that objects, device, calls and
outcomes of a session are those of plainly executing the commands that ran
(`session_doesAs`).  So waiting makes no difference in the end.  Where the two that are
compared go through their tables in orders of their own, the orders of bindings are all that
they differ in (`session_refines_execution`). -/
namespace DrawStream
open Context

/-- One turn of a sender. -/
inductive Turn
  | submit (command : Command)
  | setDeferred (deferred : Bool)
  | executePending

/-- What the sender is told. -/
inductive Reply
  | submitted (outcome : Outcome Unit)
  | switched
  | executed (outcome : Outcome Nat)

/-- What has become of one turn. -/
structure Round where
  before : Context
  turn : Turn
  reply : Reply
  events : List Event
  after : Context

/-- What has become of a list of turns. -/
structure Session (σ : Type) where
  rounds : List Round
  context : Context
  device : σ

namespace Context

/-- Takes a turn. -/
def take (c : Context) : Turn → Script (Reply × Context)
  | .submit command => do
    let (outcome, c) ← c.submit command
    return (.submitted outcome, c)
  | .setDeferred deferred => return (.switched, c.setDeferred deferred)
  | .executePending => do
    let (outcome, c) ← c.executePending
    return (.executed outcome, c)

/-- Takes turns one after the other. -/
def session {σ : Type} [Device σ] (c : Context) (d : σ) : List Turn → Session σ
  | [] => ⟨[], c, d⟩
  | turn :: rest =>
    let ran := (c.take turn).run d
    let later := session ran.value.2 ran.device rest
    ⟨⟨c, turn, ran.value.1, ran.events, ran.value.2⟩ :: later.rounds, later.context,
      later.device⟩

/-- Executes commands one after the other, whether or not they fail. -/
def executeEach (c : Context) : List Command → Script (List (Outcome Unit) × Context)
  | [] => return ([], c)
  | command :: rest => do
    let (outcome, c) ← c.execute command
    let (outcomes, c) ← executeEach c rest
    return (outcome :: outcomes, c)

end Context

namespace Round

/-- The commands that ran. -/
def ran (r : Round) : List Command := Event.executed r.events

/-- The command that was put in the queue, if one was. -/
def queued (r : Round) : List Command :=
  match r.turn with
  | .submit command => if r.before.deferred then [command] else []
  | .setDeferred _ | .executePending => []

/-- The commands that ran from the queue. -/
def taken (r : Round) : List Command :=
  match r.turn with
  | .executePending => r.ran
  | .submit _ | .setDeferred _ => []

/-- What the reply says of the commands that ran, one by one: all but the last of them
succeeded where the execution of the queue failed. -/
def outcomes (r : Round) : List (Outcome Unit) :=
  match r.reply with
  | .submitted outcome => r.ran.map fun _ => outcome
  | .switched => []
  | .executed (.ok _) => r.ran.map fun _ => .ok ()
  | .executed (.error failure) => r.ran.dropLast.map (fun _ => .ok ()) ++ [.error failure]

/-- What is expected of a round.  A command that is submitted waits behind all others, or
runs at once and leaves the queue alone.  The queue is executed from the front: either all
of it, or up to a command that fails, which is gone then. -/
def Orderly (r : Round) : Prop :=
  match r.turn, r.reply with
  | .submit command, .submitted outcome =>
    if r.before.deferred then
      outcome = .ok () ∧ r.events = [] ∧
        r.after = { r.before with queue := r.before.queue ++ [command] }
    else r.ran = [command] ∧ r.after.queue = r.before.queue ∧ r.after.deferred = false
  | .setDeferred deferred, .switched =>
    r.events = [] ∧ r.after = { r.before with deferred }
  | .executePending, .executed (.ok count) =>
    r.ran = r.before.queue ∧ r.after.queue = [] ∧ count = r.ran.length ∧
      r.after.deferred = r.before.deferred
  | .executePending, .executed (.error _) =>
    r.ran ≠ [] ∧ r.before.queue = r.ran ++ r.after.queue ∧
      r.after.deferred = r.before.deferred
  | _, _ => False

end Round

/-! ## Executing plainly -/

namespace Context
variable {σ : Type} [Device σ] (c : Context) (d : σ)

theorem run_executeEach_cons (command : Command) (rest : List Command) :
    (c.executeEach (command :: rest)).run d =
      let first := (c.execute command).run d
      let later := (first.value.2.executeEach rest).run first.device
      ⟨(first.value.1 :: later.value.1, later.value.2), later.device,
        first.events ++ later.events⟩ := by
  simp [executeEach, Script.run_bind]

theorem run_executeEach_append (xs ys : List Command) :
    (c.executeEach (xs ++ ys)).run d =
      let first := (c.executeEach xs).run d
      let later := (first.value.2.executeEach ys).run first.device
      ⟨(first.value.1 ++ later.value.1, later.value.2), later.device,
        first.events ++ later.events⟩ := by
  induction xs generalizing c d with
  | nil => simp [executeEach]
  | cons command rest ih =>
    simp only [List.cons_append, run_executeEach_cons, ih, List.append_assoc]

theorem executeEach_withQueue (queue : List Command) (deferred : Bool)
    (commands : List Command) :
    (c.withQueue queue deferred).executeEach commands =
      keeping queue deferred (c.executeEach commands) := by
  induction commands generalizing c with
  | nil => rfl
  | cons command rest ih =>
    simp only [executeEach, Dialogue.bind_eq, keeping_bind, execute_withQueue]
    rw [keeping, Dialogue.bind_assoc]
    refine congrArg _ (funext fun r => ?_)
    simp only [Dialogue.done_bind, ih, keeping, Dialogue.bind_assoc]
    rfl

theorem run_executeEach_withQueue (queue : List Command) (deferred : Bool)
    (commands : List Command) :
    ((c.withQueue queue deferred).executeEach commands).run d =
      let direct := (c.executeEach commands).run d
      ⟨(direct.value.1, direct.value.2.withQueue queue deferred), direct.device,
        direct.events⟩ := by
  rw [executeEach_withQueue, run_keeping]

/-- Executing commands one after the other comes to the same whatever the orders of tables. -/
theorem orderless_executeEach (commands : List Command) : (c.executeEach commands).Orderless := by
  induction commands generalizing c with
  | nil => exact Script.orderless_done _
  | cons command rest ih =>
    refine (c.orderless_execute command).bind fun first => ?_
    exact (ih first.2).bind fun _ => Script.orderless_done _

/-! ## Executing the queue -/

/-- What the execution of a queue has come to, when `ran` are the commands that ran and
`direct` is what executing them plainly comes to: it has done the same, and has stopped at
the first failure. -/
structure StoppedAfter (deferred : Bool) (count : Nat) (commands ran : List Command)
    (direct : Ran σ (List (Outcome Unit) × Context)) (r : Ran σ (Outcome Nat × Context)) :
    Prop where
  split : commands = ran ++ r.value.2.queue
  announced : Event.executed r.events = ran
  events : r.events = direct.events
  device : r.device = direct.device
  context : r.value.2 = direct.value.2.withQueue r.value.2.queue deferred
  of_ok : ∀ n, r.value.1 = .ok n → r.value.2.queue = [] ∧ n = count + ran.length ∧
    direct.value.1 = ran.map fun _ => .ok ()
  of_error : ∀ failure, r.value.1 = .error failure → ran ≠ [] ∧
    direct.value.1 = ran.dropLast.map (fun _ => .ok ()) ++ [.error failure]

theorem run_executeAll_cons (count : Nat) (command : Command) (waiting : List Command) :
    (c.executeAll count (command :: waiting)).run d =
      let first := (c.execute command).run d
      let after := first.value.2.withQueue waiting c.deferred
      match first.value.1 with
      | .error failure => ⟨(.error failure, after), first.device, first.events⟩
      | .ok () =>
        let later := (after.executeAll (count + 1) waiting).run first.device
        ⟨later.value, later.device, first.events ++ later.events⟩ := by
  have hexecute : Context.execute { c with queue := waiting } command =
      keeping waiting c.deferred (c.execute command) :=
    execute_withQueue c waiting c.deferred command
  simp only [executeAll, Dialogue.bind_eq, Script.run_bind, hexecute, run_keeping]
  generalize (c.execute command).run d = first
  obtain ⟨⟨outcome, after⟩, device, events⟩ := first
  cases outcome <;> simp

variable {c d}

/-- The induction is on the queue: the first command either fails and is all that runs, or
the rest is executed from the context that it leaves. -/
theorem stoppedAfter_executeAll (count : Nat) {commands : List Command}
    (hqueue : c.queue = commands) :
    ∃ ran, StoppedAfter c.deferred count commands ran ((c.executeEach ran).run d)
      ((c.executeAll count commands).run d) := by
  induction commands generalizing c d count with
  | nil =>
    refine ⟨[], hqueue.symm, rfl, rfl, rfl, (withQueue_self c).symm, ?_, ?_⟩
    · rintro n h
      cases h
      exact ⟨hqueue, rfl, rfl⟩
    · rintro failure h
      cases h
  | cons command waiting ih =>
    have hannounced := executed_execute c command d
    rw [run_executeAll_cons]
    rcases hfirst : (c.execute command).run d with ⟨⟨outcome, after⟩, device, events⟩
    rw [hfirst] at hannounced
    cases outcome with
    | error failure =>
      -- The command is gone from the queue, and what is behind it has not moved.
      refine ⟨[command], ?_⟩
      rw [run_executeEach_cons, hfirst]
      refine ⟨rfl, hannounced, (List.append_nil _).symm, rfl, rfl, ?_, ?_⟩
      · intro n hn
        cases hn
      · intro failure hfailure
        cases hfailure
        exact ⟨List.cons_ne_nil _ _, rfl⟩
    | ok =>
      obtain ⟨ran, hran⟩ := @ih (after.withQueue waiting c.deferred) device (count + 1) rfl
      rw [run_executeEach_withQueue] at hran
      refine ⟨command :: ran, ?_⟩
      rw [run_executeEach_cons, hfirst]
      refine ⟨congrArg (command :: ·) hran.split, ?_, ?_, hran.device, hran.context, ?_, ?_⟩
      · rw [Event.executed_append, hannounced, hran.announced]
        rfl
      · exact congrArg (events ++ ·) hran.events
      · intro n hn
        obtain ⟨hempty, hcount, houtcomes⟩ := hran.of_ok n hn
        refine ⟨hempty, ?_, congrArg (.ok () :: ·) houtcomes⟩
        rw [hcount, List.length_cons]
        omega
      · intro failure hfailure
        obtain ⟨hne, houtcomes⟩ := hran.of_error failure hfailure
        refine ⟨List.cons_ne_nil _ _, ?_⟩
        rw [List.dropLast_cons_of_ne_nil hne]
        exact congrArg (.ok () :: ·) houtcomes

end Context

/-! ## Rounds -/

namespace Session
variable {σ : Type} (s : Session σ)

/-- What came about. -/
def events : List Event := s.rounds.flatMap Round.events

/-- The commands that ran. -/
def ran : List Command := s.rounds.flatMap Round.ran

/-- The commands that were put in the queue. -/
def queued : List Command := s.rounds.flatMap Round.queued

/-- The commands that ran from the queue. -/
def taken : List Command := s.rounds.flatMap Round.taken

/-- What the replies say of the commands that ran. -/
def outcomes : List (Outcome Unit) := s.rounds.flatMap Round.outcomes

/-- The session has done what executing plainly has done: the contexts differ in nothing
but their queues and modes, and the devices, the calls and the outcomes are the same. -/
structure DoesAs (direct : Ran σ (List (Outcome Unit) × Context)) : Prop where
  context : s.context = direct.value.2.withQueue s.context.queue s.context.deferred
  device : s.device = direct.device
  calls : Event.calls s.events = Event.calls direct.events
  outcomes : s.outcomes = direct.value.1

/-- The session has done what executing plainly has done, bar the order of bindings. -/
structure DoesBarOrder (s : Session Recorder)
    (direct : Ran Recorder (List (Outcome Unit) × Context)) : Prop where
  context : s.context = direct.value.2.withQueue s.context.queue s.context.deferred
  device : s.device.BarOrder direct.device
  calls : BarOrder id (Event.calls s.events) (Event.calls direct.events)
  outcomes : s.outcomes = direct.value.1

end Session

namespace Context
variable {σ : Type} [Device σ] (c : Context) (d : σ)

/-- The round of a turn. -/
def round (turn : Turn) : Round :=
  let ran := (c.take turn).run d
  ⟨c, turn, ran.value.1, ran.events, ran.value.2⟩

/-- The session of a single turn. -/
theorem session_cons (turn : Turn) (rest : List Turn) :
    c.session d (turn :: rest) =
      let later := (c.round d turn).after.session ((c.take turn).run d).device rest
      ⟨c.round d turn :: later.rounds, later.context, later.device⟩ := rfl

theorem session_append (xs ys : List Turn) :
    c.session d (xs ++ ys) =
      let first := c.session d xs
      let later := first.context.session first.device ys
      ⟨first.rounds ++ later.rounds, later.context, later.device⟩ := by
  induction xs generalizing c d with
  | nil => rfl
  | cons turn rest ih =>
    rw [List.cons_append, session_cons, session_cons, ih]
    rfl

theorem ran_session_append (xs ys : List Turn) :
    (c.session d (xs ++ ys)).ran = (c.session d xs).ran ++
      ((c.session d xs).context.session (c.session d xs).device ys).ran := by
  rw [session_append]
  exact List.flatMap_append

theorem take_submit_deferred (command : Command) (hmode : c.deferred = true) :
    (c.take (.submit command)).run d =
      ⟨(.submitted (.ok ()), { c with queue := c.queue ++ [command] }), d, []⟩ := by
  simp [take, submit, hmode]

theorem take_submit_immediate (command : Command) (hmode : c.deferred = false) :
    (c.take (.submit command)).run d =
      let first := (c.execute command).run d
      ⟨(.submitted first.value.1, first.value.2), first.device, first.events⟩ := by
  simp [take, submit, hmode, Script.run_bind]

/-- Executing the queue adds no more than a note to what executing its commands does. -/
theorem take_executePending :
    ∃ notes, Event.calls notes = [] ∧ Event.executed notes = [] ∧
      (c.take .executePending).run d =
        let all := (c.executeAll 0 c.queue).run d
        ⟨(.executed all.value.1, all.value.2), all.device, all.events ++ notes⟩ := by
  simp only [take, executePending, Dialogue.bind_eq, Script.run_bind]
  rcases (c.executeAll 0 c.queue).run d with ⟨⟨outcome, after⟩, device, events⟩
  cases outcome with
  | error failure =>
    refine ⟨[], rfl, rfl, ?_⟩
    simp
  | ok count =>
    by_cases hcount : 0 < count
    · refine ⟨[.note (.executedQueue count)], rfl, rfl, ?_⟩
      simp [hcount, Script.run_bind]
    · refine ⟨[], rfl, rfl, ?_⟩
      simp [hcount]

/-- A command that does not wait runs, and the queue and the mode stay as they are. -/
theorem round_submit_immediate (command : Command) (hmode : c.deferred = false) :
    (c.round d (.submit command)).ran = [command] ∧
      (c.round d (.submit command)).after.queue = c.queue ∧
      (c.round d (.submit command)).after.deferred = false := by
  obtain ⟨hqueue, hdeferred⟩ := run_execute_queue c command d
  simp only [round, Round.ran, take_submit_immediate c d command hmode]
  exact ⟨executed_execute c command d, hqueue, hdeferred.trans hmode⟩

theorem orderly_round_submit (command : Command) :
    (c.round d (.submit command)).Orderly := by
  cases hmode : c.deferred with
  | true =>
    rw [round, take_submit_deferred c d command hmode]
    exact (if_pos hmode).mpr ⟨rfl, rfl, rfl⟩
  | false =>
    have hround := round_submit_immediate c d command hmode
    simp only [round, take_submit_immediate c d command hmode] at hround ⊢
    exact (if_neg (by simp [hmode])).mpr hround

theorem orderly_round_executePending : (c.round d .executePending).Orderly := by
  obtain ⟨notes, -, hnotes, htake⟩ := take_executePending c d
  obtain ⟨ran, hran⟩ := stoppedAfter_executeAll (d := d) 0 (rfl : c.queue = c.queue)
  have hdeferred := congrArg Context.deferred hran.context
  rw [round, htake]
  have hall : Event.executed (((c.executeAll 0 c.queue).run d).events ++ notes) = ran := by
    rw [Event.executed_append, hran.announced, hnotes, List.append_nil]
  cases houtcome : ((c.executeAll 0 c.queue).run d).value.1 with
  | error failure =>
    simp only [Round.Orderly, Round.ran, hall, houtcome]
    exact ⟨(hran.of_error failure houtcome).1, hran.split, hdeferred⟩
  | ok count =>
    obtain ⟨hempty, hcount, -⟩ := hran.of_ok count houtcome
    have hsplit := hran.split
    simp only [Round.Orderly, Round.ran, hall, houtcome]
    rw [hempty, List.append_nil] at hsplit
    exact ⟨hsplit.symm, hempty, hcount.trans (Nat.zero_add _), hdeferred⟩

theorem orderly_round (turn : Turn) : (c.round d turn).Orderly := by
  cases turn with
  | submit command => exact orderly_round_submit c d command
  | setDeferred deferred => exact ⟨rfl, rfl⟩
  | executePending => exact orderly_round_executePending c d

/-- What a round does is what executing the commands that ran in it does. -/
structure Does (turn : Turn) (direct : Ran σ (List (Outcome Unit) × Context)) : Prop where
  context : (c.round d turn).after = direct.value.2.withQueue (c.round d turn).after.queue
    (c.round d turn).after.deferred
  device : ((c.take turn).run d).device = direct.device
  calls : Event.calls (c.round d turn).events = Event.calls direct.events
  outcomes : (c.round d turn).outcomes = direct.value.1

theorem does_submit (command : Command) :
    c.Does d (.submit command)
      ((c.executeEach (c.round d (.submit command)).ran).run d) := by
  cases hmode : c.deferred with
  | true =>
    have htake := take_submit_deferred c d command hmode
    constructor <;> simp only [round, htake, Round.ran, Round.outcomes] <;> rfl
  | false =>
    have htake := take_submit_immediate c d command hmode
    obtain ⟨hran, -, -⟩ := round_submit_immediate c d command hmode
    rw [hran, run_executeEach_cons]
    constructor
    · simp only [round, htake]
      rfl
    · simp only [htake]
      rfl
    · simp only [round, htake, Event.calls_append]
      exact (List.append_nil _).symm
    · rw [Round.outcomes, hran]
      simp only [round, htake]
      rfl

theorem does_executePending :
    c.Does d .executePending ((c.executeEach (c.round d .executePending).ran).run d) := by
  obtain ⟨notes, hcalls, hnotes, htake⟩ := take_executePending c d
  obtain ⟨ran, hran⟩ := stoppedAfter_executeAll (d := d) 0 (rfl : c.queue = c.queue)
  have hall : (c.round d .executePending).ran = ran := by
    simp only [round, Round.ran, htake]
    rw [Event.executed_append, hran.announced, hnotes, List.append_nil]
  rw [hall]
  constructor
  · simp only [round, htake]
    exact hran.context.trans (congrArg _ (congrArg Context.deferred hran.context).symm)
  · simp only [htake]
    exact hran.device
  · simp only [round, htake, Event.calls_append, hcalls, List.append_nil, hran.events]
  · rw [Round.outcomes, hall]
    simp only [round, htake]
    cases houtcome : ((c.executeAll 0 c.queue).run d).value.1 with
    | error failure => exact (hran.of_error failure houtcome).2.symm
    | ok count => exact (hran.of_ok count houtcome).2.2.symm

theorem does_round (turn : Turn) :
    c.Does d turn ((c.executeEach (c.round d turn).ran).run d) := by
  cases turn with
  | submit command => exact does_submit c d command
  | setDeferred deferred => exact ⟨rfl, rfl, rfl, rfl⟩
  | executePending => exact does_executePending c d

/-! ## Sessions -/

/-- What went in at the back of the queue has come out at the front or is still there. -/
theorem queue_round {r : Round} (h : r.Orderly) :
    r.before.queue ++ r.queued = r.taken ++ r.after.queue := by
  obtain ⟨before, turn, reply, events, after⟩ := r
  cases turn with
  | submit command =>
    cases reply with
    | submitted outcome =>
      cases hmode : before.deferred with
      | true =>
        obtain ⟨-, -, hafter⟩ := (if_pos hmode).mp h
        simpa [Round.queued, Round.taken, hmode] using (congrArg Context.queue hafter).symm
      | false =>
        obtain ⟨-, hqueue, -⟩ := (if_neg (by simp [hmode])).mp h
        simpa [Round.queued, Round.taken, hmode] using hqueue.symm
    | switched | executed => exact h.elim
  | setDeferred deferred =>
    cases reply with
    | switched =>
      obtain ⟨-, hafter⟩ := h
      exact (List.append_nil _).trans (congrArg Context.queue hafter).symm
    | submitted | executed => exact h.elim
  | executePending =>
    cases reply with
    | executed outcome =>
      cases outcome with
      | ok count =>
        obtain ⟨hran, hempty, -, -⟩ := h
        exact congr_arg₂ (· ++ ·) hran.symm hempty.symm
      | error failure => exact (List.append_nil _).trans h.2.1
    | submitted | switched => exact h.elim

/-- Every round of a session is orderly. -/
theorem session_orderly (turns : List Turn) : (c.session d turns).rounds.Forall Round.Orderly := by
  induction turns generalizing c d with
  | nil => trivial
  | cons turn rest ih =>
    rw [session_cons, List.forall_cons]
    exact ⟨orderly_round c d turn, ih _ _⟩

/-- No command is lost, repeated or reordered in the queue. -/
theorem session_queue (turns : List Turn) :
    c.queue ++ (c.session d turns).queued =
      (c.session d turns).taken ++ (c.session d turns).context.queue := by
  induction turns generalizing c d with
  | nil => exact List.append_nil _
  | cons turn rest ih =>
    have hround := queue_round (orderly_round c d turn)
    have hrest := ih (c.round d turn).after ((c.take turn).run d).device
    simp only [session_cons, Session.queued, Session.taken, List.flatMap_cons] at hrest ⊢
    rw [← List.append_assoc, List.append_assoc (Round.taken _), ← hrest, ← List.append_assoc,
      ← hround]
    rfl

/-- A session does what executing the commands that ran in it does. -/
theorem session_doesAs (turns : List Turn) :
    (c.session d turns).DoesAs ((c.executeEach (c.session d turns).ran).run d) := by
  induction turns generalizing c d with
  | nil => exact ⟨rfl, rfl, rfl, rfl⟩
  | cons turn rest ih =>
    have hround := does_round c d turn
    have hrest := ih (c.round d turn).after ((c.take turn).run d).device
    -- The rest starts from the context of the round, but its direct execution from that of
    -- the direct execution of the round; these differ in queue and mode only.
    have hdirect := run_executeEach_withQueue
      ((c.executeEach (c.round d turn).ran).run d).value.2 ((c.take turn).run d).device
      (c.round d turn).after.queue (c.round d turn).after.deferred
      ((c.round d turn).after.session ((c.take turn).run d).device rest).ran
    rw [← hround.context] at hdirect
    rw [hdirect] at hrest
    rw [session_cons]
    simp only [Session.ran, List.flatMap_cons, run_executeEach_append]
    rw [← hround.device]
    refine ⟨hrest.context, hrest.device, ?_, ?_⟩
    · simp only [Session.events, List.flatMap_cons, Event.calls_append]
      exact congr_arg₂ (· ++ ·) hround.calls hrest.calls
    · exact congr_arg₂ (· ++ ·) hround.outcomes hrest.outcomes

/-! ## Waiting or not -/

/-- Commands that are submitted at once run in their order. -/
theorem session_submit_immediate (commands : List Command) (hmode : c.deferred = false) :
    (c.session d (commands.map .submit)).ran = commands := by
  induction commands generalizing c d with
  | nil => rfl
  | cons command rest ih =>
    obtain ⟨hran, -, hafter⟩ := round_submit_immediate c d command hmode
    rw [List.map_cons, session_cons, Session.ran, List.flatMap_cons, hran]
    exact congrArg (command :: ·) (ih _ _ hafter)

/-- Commands that are submitted to wait only join the queue. -/
theorem session_submit_deferred (commands : List Command) (hmode : c.deferred = true) :
    (c.session d (commands.map .submit)).ran = [] ∧
      (c.session d (commands.map .submit)).context.queue = c.queue ++ commands := by
  induction commands generalizing c d with
  | nil => exact ⟨rfl, (List.append_nil _).symm⟩
  | cons command rest ih =>
    have htake := take_submit_deferred c d command hmode
    obtain ⟨hran, hqueue⟩ := ih { c with queue := c.queue ++ [command] } d hmode
    simp only [List.map_cons, session_cons, Session.ran, List.flatMap_cons, round, htake]
    refine ⟨hran, hqueue.trans ?_⟩
    simp

/-- Executing a queue that is not empty makes it shorter. -/
theorem length_queue_executePending {r : Round} (h : r.Orderly) (hturn : r.turn = .executePending)
    {n : Nat} (hn : r.before.queue.length ≤ n + 1) : r.after.queue.length ≤ n := by
  obtain ⟨before, turn, reply, events, after⟩ := r
  cases hturn
  cases reply with
  | executed outcome =>
    cases outcome with
    | ok count =>
      obtain ⟨-, hempty, -, -⟩ := h
      exact Nat.le_trans (Nat.le_of_eq (congrArg List.length hempty)) (Nat.zero_le n)
    | error failure =>
      obtain ⟨hne, hsplit, -⟩ := h
      have hpos := List.length_pos_of_ne_nil hne
      have hlength := congrArg List.length hsplit
      rw [List.length_append] at hlength
      omega
  | submitted | switched => exact h.elim

/-- Executing the queue again and again, as often as commands wait, executes it all. -/
theorem session_executePending (n : Nat) (hn : c.queue.length ≤ n) :
    (c.session d (List.replicate n .executePending)).ran = c.queue ∧
      (c.session d (List.replicate n .executePending)).context.queue = [] := by
  induction n generalizing c d with
  | zero =>
    have hempty : c.queue = [] := List.eq_nil_of_length_eq_zero (Nat.le_zero.mp hn)
    exact ⟨hempty.symm, hempty⟩
  | succ n ih =>
    have hround := orderly_round c d .executePending
    have hqueue : c.queue ++ [] = (c.round d .executePending).ran ++ _ := queue_round hround
    obtain ⟨hran, hempty⟩ := ih (c.round d .executePending).after
      ((c.take .executePending).run d).device (length_queue_executePending hround rfl hn)
    rw [List.replicate_succ, session_cons]
    refine ⟨?_, hempty⟩
    rw [← List.append_nil c.queue, hqueue, ← hran]
    rfl

/-- The turns that let commands wait and then have the queue executed as often as commands
wait. -/
def waitingTurns (commands : List Command) : List Turn :=
  .setDeferred true :: (commands.map .submit ++
    List.replicate (c.queue.length + commands.length) .executePending)

/-- The turns that submit what waits already and the commands, to be executed at once. -/
def immediateTurns (commands : List Command) : List Turn :=
  .setDeferred false :: (c.queue ++ commands).map .submit

theorem session_waitingTurns (commands : List Command) :
    (c.session d (c.waitingTurns commands)).ran = c.queue ++ commands ∧
      (c.session d (c.waitingTurns commands)).context.queue = [] := by
  obtain ⟨hnone, hqueue⟩ := session_submit_deferred (c.setDeferred true) d commands rfl
  have hstart : (c.session d (c.waitingTurns commands)).ran =
      ((c.setDeferred true).session d _).ran := rfl
  rw [hstart, ran_session_append, hnone, List.nil_append]
  have hend : (c.session d (c.waitingTurns commands)).context =
      ((c.setDeferred true).session d _).context := rfl
  rw [hend, session_append]
  obtain ⟨hran, hempty⟩ := session_executePending
    ((c.setDeferred true).session d (commands.map .submit)).context
    ((c.setDeferred true).session d (commands.map .submit)).device
    (c.queue.length + commands.length) (by
      rw [hqueue, List.length_append]
      exact Nat.le_refl _)
  exact ⟨hran.trans hqueue, hempty⟩

theorem session_immediateTurns (commands : List Command) :
    (c.session d (c.immediateTurns commands)).ran = c.queue ++ commands :=
  session_submit_immediate (c.setDeferred false) d _ rfl

/-- Letting commands wait makes no difference in the end. -/
theorem deferring_makes_no_difference (commands : List Command) :
    let waiting := c.session d (c.waitingTurns commands)
    let immediate := c.session d (c.immediateTurns commands)
    waiting.context.queue = [] ∧ waiting.context.objects = immediate.context.objects ∧
      waiting.device = immediate.device ∧
      Event.calls waiting.events = Event.calls immediate.events ∧
      waiting.outcomes = immediate.outcomes := by
  obtain ⟨hran, hempty⟩ := session_waitingTurns c d commands
  have hwaiting := session_doesAs c d (c.waitingTurns commands)
  have himmediate := session_doesAs c d (c.immediateTurns commands)
  rw [hran] at hwaiting
  rw [session_immediateTurns] at himmediate
  refine ⟨hempty, ?_, ?_, ?_, ?_⟩
  · rw [hwaiting.context, himmediate.context]
    rfl
  · rw [hwaiting.device, himmediate.device]
  · rw [hwaiting.calls, himmediate.calls]
  · rw [hwaiting.outcomes, himmediate.outcomes]

end Context

/-! ## On recorders with orders of their own -/

/-- The same round, bar the order of bindings. -/
structure Round.BarOrder (x y : Round) : Prop where
  before : y.before = x.before
  turn : y.turn = x.turn
  reply : y.reply = x.reply
  events : DrawStream.BarOrder Event.call x.events y.events
  after : y.after = x.after

/-- The same session, bar the order of bindings. -/
structure Session.BarOrder (s t : Session Recorder) : Prop where
  rounds : List.Forall₂ Round.BarOrder s.rounds t.rounds
  context : t.context = s.context
  device : s.device.BarOrder t.device

namespace Session.BarOrder
variable {s t : Session Recorder}

theorem events (h : s.BarOrder t) : DrawStream.BarOrder Event.call s.events t.events := by
  have hrounds := h.rounds
  unfold Session.events
  generalize s.rounds = xs, t.rounds = ys at hrounds
  induction hrounds with
  | nil => exact .nil
  | cons hround _ ih =>
    rw [List.flatMap_cons, List.flatMap_cons]
    exact hround.events.append ih

/-- What the order of bindings has no part in is the same in every round. -/
theorem map_rounds (h : s.BarOrder t) {β : Type} {f : Round → β}
    (hf : ∀ x y : Round, x.BarOrder y → f y = f x) : t.rounds.map f = s.rounds.map f := by
  have hrounds := h.rounds
  generalize s.rounds = xs, t.rounds = ys at hrounds
  induction hrounds with
  | nil => rfl
  | cons hround _ ih => rw [List.map_cons, List.map_cons, hf _ _ hround, ih]

end Session.BarOrder

namespace Context
variable (c : Context)

section Recorder
variable (r : Recorder) (arrangements : List Arrangement)

theorem orderless_take (turn : Turn) : (c.take turn).Orderless := by
  cases turn with
  | submit command => exact (c.orderless_submit command).bind fun _ => Script.orderless_done _
  | setDeferred deferred => exact Script.orderless_done _
  | executePending => exact c.orderless_executePending.bind fun _ => Script.orderless_done _

variable {r} in
/-- A session comes to the same whatever the orders of tables. -/
theorem barOrder_session {r' : Recorder} (h : r.BarOrder r') (turns : List Turn) :
    (c.session r turns).BarOrder (c.session r' turns) := by
  induction turns generalizing c r r' with
  | nil => exact ⟨.nil, rfl, h⟩
  | cons turn rest ih =>
    have hround := c.orderless_take turn r r' h
    obtain ⟨hrounds, hcontext, hdevice⟩ := ih (c.round r turn).after hround.device
    have hafter : (c.round r' turn).after = (c.round r turn).after := congrArg (·.2) hround.value
    rw [session_cons, session_cons, hafter]
    refine ⟨.cons ⟨rfl, rfl, congrArg (·.1) hround.value, hround.events, hafter⟩ hrounds, ?_, ?_⟩
    · exact hcontext
    · exact hdevice

/-- Executing commands on a recorder and on one with other orders. -/
theorem barOrder_executeEach (commands : List Command) :
    ((c.executeEach commands).run r).BarOrder
      ((c.executeEach commands).run (r.inOrders arrangements)) :=
  c.orderless_executeEach commands r _ rfl

theorem session_doesBarOrder (turns : List Turn) :
    (c.session r turns).DoesBarOrder
      ((c.executeEach (c.session r turns).ran).run (r.inOrders arrangements)) := by
  have hsame := session_doesAs c r turns
  have hother := c.barOrder_executeEach r arrangements (c.session r turns).ran
  refine ⟨?_, ?_, ?_, ?_⟩
  · rw [hother.value]
    exact hsame.context
  · rw [hsame.device]
    exact hother.device
  · rw [hsame.calls]
    exact hother.events.calls
  · rw [hother.value]
    exact hsame.outcomes

/-- **Waiting commands run as they would have run at once.**  Every round of a session is
orderly, the queue loses, repeats and reorders nothing, and a session does exactly what executing
the commands that ran in it does with the tables in the same orders.  So does letting any commands
wait and executing the queue until it is empty, compared with executing them at once.  Where the
tables come in other orders, the order of bindings is all that differs. -/
theorem session_refines_execution (turns : List Turn) :
    (c.session r turns).rounds.Forall Round.Orderly ∧
      c.queue ++ (c.session r turns).queued =
        (c.session r turns).taken ++ (c.session r turns).context.queue ∧
      (c.session r turns).DoesAs ((c.executeEach (c.session r turns).ran).run r) ∧
      (c.session r turns).DoesBarOrder
        ((c.executeEach (c.session r turns).ran).run (r.inOrders arrangements)) ∧
      ∀ commands : List Command,
        let waiting := c.session r (c.waitingTurns commands)
        let immediate := c.session r (c.immediateTurns commands)
        waiting.context.queue = [] ∧ waiting.context.objects = immediate.context.objects ∧
          waiting.device = immediate.device ∧
          Event.calls waiting.events = Event.calls immediate.events ∧
          waiting.outcomes = immediate.outcomes ∧
          immediate.BarOrder (c.session (r.inOrders arrangements) (c.immediateTurns commands)) := by
  refine ⟨session_orderly c r turns, session_queue c r turns, session_doesAs c r turns,
    session_doesBarOrder c r arrangements turns, fun commands => ?_⟩
  obtain ⟨hempty, hobjects, hdevice, hcalls, houtcomes⟩ :=
    deferring_makes_no_difference c r commands
  have hrecorder : r.BarOrder (r.inOrders arrangements) := rfl
  exact ⟨hempty, hobjects, hdevice, hcalls, houtcomes,
    c.barOrder_session hrecorder (c.immediateTurns commands)⟩

end Recorder

end Context
end DrawStream
