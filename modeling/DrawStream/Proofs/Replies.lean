import DrawStream.Proofs.Runs

/-! # What is answered on a bench

An `Answered` is an episode together with what is answered in the end: to a command that is
executed, to a piece of work, to a step.  The replies of a run are its episodes with nothing
left out (`Bench.entries_allReplies`), so its history can be read off them.

Whatever is done, every reply comes from one deal (`Bench.Deal`): a command is executed, an
object of the bench is worked on, or a step is performed that asks for neither.  Between deals
nothing happens to the objects or to the recorder (`Bench.Course`), so what every deal keeps
is kept by whole runs (`Bench.course_actAll`). -/
namespace DrawStream
open Machine
open Command (Id)

/-- What comes about in one go, and what is answered. -/
structure Answered where
  episode : Episode
  answer : Bench.Answer

/-- The calls of a reply, each with what it is part of. -/
def Answered.entries (reply : Answered) : List Entry := reply.episode.entries

/-! ## The replies of a run -/

namespace Context

/-- The execution of a command. -/
def reply (c : Context) (r : Recorder) (command : Command) : Answered :=
  ⟨c.episode r command, .ofOutcome ((c.execute command).run r).value.1⟩

/-- The execution of commands up to the first one that fails. -/
def replies (c : Context) (r : Recorder) : List Command → List Answered
  | [] => []
  | command :: waiting =>
    let c := { c with queue := waiting }
    let ran := (c.execute command).run r
    c.reply r command ::
      match ran.value.1 with
      | .error _ => []
      | .ok () => replies ran.value.2 ran.device waiting

theorem map_replies (c : Context) (r : Recorder) (commands : List Command) :
    (c.replies r commands).map Answered.episode = c.episodes r commands := by
  induction commands generalizing c r with
  | nil => rfl
  | cons command waiting ih =>
    simp only [replies, episodes, List.map_cons]
    rcases (Context.execute { c with queue := waiting } command).run r with
      ⟨⟨outcome, after⟩, device, events⟩
    cases outcome with
    | error failure => rfl
    | ok => exact congrArg _ (ih after device)

end Context

namespace Bench
variable (b : Bench)

/-- Work on an object. -/
def workReply (object : Object) (work : Work) : Answered :=
  ⟨b.workEpisode object work, (Script.run (workOn b.named? object work) b.recorder).value.1⟩

/-- The submission of a command. -/
def submitReplies (command : Command) : List Answered :=
  if b.context.deferred then [] else [b.context.reply b.recorder command]

/-- The submission of commands one by one. -/
def submitEachReplies (b : Bench) : List Command → List Answered
  | [] => []
  | command :: rest => b.submitReplies command ++ submitEachReplies (b.submit command).2 rest

/-- A step that asks for no deeds. -/
def stepReply (step : Step) : Answered :=
  ⟨⟨none, !b.recorder.failLink, (b.perform step).1.events⟩, (b.perform step).1.answer⟩

/-- What a step consists of. -/
def stepReplies (step : Step) : List Answered :=
  match step with
  | .commands text =>
    match Command.readAll text with
    | .error _ => []
    | .ok commands => b.submitEachReplies commands
  | .executePending => b.context.replies b.recorder b.context.queue
  | .work name work =>
    match b.named? name with
    | none => []
    | some object => [b.workReply object work]
  | _ => [b.stepReply step]

/-- What an action consists of. -/
def replies : Action → List Answered
  | .submit command => b.submitReplies command
  | .execute command => [b.context.reply b.recorder command]
  | .use id work _ =>
    match b.context.object? id with
    | none => []
    | some object => [b.workReply object work]
  | .step step _ => b.stepReplies step

/-- What a run consists of. -/
def allReplies (b : Bench) : List Action → List Answered
  | [] => []
  | action :: rest => b.replies action ++ allReplies (b.act action) rest

/-! ### Nothing left out -/

theorem map_submitReplies (command : Command) :
    (b.submitReplies command).map Answered.episode = b.submitEpisodes command := by
  unfold submitReplies submitEpisodes
  cases b.context.deferred <;> rfl

theorem map_submitEachReplies (commands : List Command) :
    (b.submitEachReplies commands).map Answered.episode = b.submitEachEpisodes commands := by
  induction commands generalizing b with
  | nil => rfl
  | cons command rest ih =>
    rw [submitEachReplies, submitEachEpisodes, List.map_append, map_submitReplies, ih]

theorem map_stepReplies (step : Step) :
    (b.stepReplies step).map Answered.episode = b.stepEpisodes step := by
  cases step with
  | commands text =>
    simp only [stepReplies, stepEpisodes]
    cases Command.readAll text with
    | error fault => rfl
    | ok commands => exact b.map_submitEachReplies commands
  | executePending => exact Context.map_replies ..
  | work name work =>
    simp only [stepReplies, stepEpisodes]
    cases b.named? name <;> rfl
  | _ => rfl

theorem map_replies (action : Action) :
    (b.replies action).map Answered.episode = b.episodes action := by
  cases action with
  | submit command => exact b.map_submitReplies command
  | execute command => rfl
  | use id work =>
    simp only [replies, episodes]
    cases b.context.object? id <;> rfl
  | step step => exact b.map_stepReplies step

/-- **The history of a run is the history of its replies.** -/
theorem entries_allReplies (actions : List Action) :
    (b.allReplies actions).flatMap Answered.entries = b.history actions := by
  induction actions generalizing b with
  | nil => rfl
  | cons action rest ih =>
    rw [allReplies, history, List.flatMap_append, ih, ← map_replies, List.flatMap_map]
    rfl

/-! ## Deals -/

/-- The step asks for no deeds. -/
def Step.Deedless : Step → Prop
  | .commands _ | .executePending | .work .. => False
  | _ => True

/-- One reply, and the bench before and after. -/
inductive Deal (b : Bench) : Answered → Bench → Prop
  | execute (command : Command) :
      Deal b (b.context.reply b.recorder command) (b.execute command).2
  /-- Only the place of the object that is worked on is another one afterwards. -/
  | work {k : Id ⊕ String} {object : Object} (found : b.at? k = some object)
      {work : Work} (sized : work.Sized) {b' : Bench}
      (recorder : b'.recorder = ((workOn b.named? object work).run b.recorder).device)
      (pool : b'.at? = Function.update b.at? k
        ((workOn b.named? object work).run b.recorder).value.2) :
      Deal b (b.workReply object work) b'
  | step {step : Step} (deedless : step.Deedless) : Deal b (b.stepReply step) (b.perform step).2

variable {b} {b' b'' : Bench} {m : Machine} {reply : Answered}

/-- Every deal is followed by the machine. -/
theorem Deal.leads (h : Deal b reply b') (hb : b.InStep m) : Leads m [reply.episode] b' := by
  cases h with
  | execute command => exact leads_execute hb command
  | work found sized recorder pool =>
    obtain ⟨hfits, hkept, hlast⟩ := workEpisode_keptAs hb found sized
    refine .single hfits ?_
    unfold InStep
    rw [recorder, pool]
    exact hb.moved (.work found hkept) hlast
  | @step step deedless =>
    have hsized : step.Sized := by
      cases step <;> first | exact deedless.elim | trivial
    have hleads := leads_step hb hsized
    cases step <;> first | exact deedless.elim | exact hleads

/-- From one bench to another by deals.  In between, commands may be put in the queue or taken
from it, and the mode may be set. -/
inductive Course : Bench → List Answered → Bench → Prop
  | nil {b b' : Bench} (pool : b'.at? = b.at?) (recorder : b'.recorder = b.recorder) :
      Course b [] b'
  | cons {b c b' b'' : Bench} {reply : Answered} {rest : List Answered} (pool : c.at? = b.at?)
      (recorder : c.recorder = b.recorder) (deal : Deal c reply b')
      (later : Course b' rest b'') :
      Course b (reply :: rest) b''

namespace Course
variable {xs ys : List Answered}

theorem refl (b : Bench) : Course b [] b := .nil rfl rfl

theorem single (h : Deal b reply b') : Course b [reply] b' := .cons rfl rfl h (refl b')

theorem quiet {c : Bench} (pool : c.at? = b.at?) (recorder : c.recorder = b.recorder)
    (h : Course c xs b') : Course b xs b' := by
  cases h with
  | nil pool' recorder' => exact .nil (pool'.trans pool) (recorder'.trans recorder)
  | cons pool' recorder' deal later =>
    exact .cons (pool'.trans pool) (recorder'.trans recorder) deal later

theorem append (h : Course b xs b') (h' : Course b' ys b'') : Course b (xs ++ ys) b'' := by
  induction h with
  | nil pool recorder => exact h'.quiet pool recorder
  | cons pool recorder deal _ ih => exact .cons pool recorder deal (ih h')

end Course

/-! ## The course of a run -/

theorem course_submit (b : Bench) (command : Command) :
    Course b (b.submitReplies command) (b.submit command).2 := by
  unfold submitReplies submit Context.submit
  cases b.context.deferred with
  | true => exact .nil rfl rfl
  | false => exact .single (.execute command)

theorem course_submitEach (b : Bench) (commands : List Command) :
    Course b (b.submitEachReplies commands) (b.submitEach commands).2 := by
  induction commands generalizing b with
  | nil => exact .refl b
  | cons command rest ih => exact (b.course_submit command).append (ih _)

theorem course_executeAll (b : Bench) (count : Nat) (commands : List Command) :
    Course b (b.context.replies b.recorder commands)
      { b with
        context := ((b.context.executeAll count commands).run b.recorder).value.2
        recorder := ((b.context.executeAll count commands).run b.recorder).device } := by
  induction commands generalizing b count with
  | nil => exact .refl b
  | cons command waiting ih =>
    -- The command runs while the others wait; that is nothing to the objects.
    have hfirst : Course b _ _ :=
      .cons (c := { b with context := { b.context with queue := waiting } }) rfl rfl
        (.execute command) (.refl _)
    simp only [execute, after] at hfirst
    simp only [Context.replies, Context.executeAll, Dialogue.bind_eq, Script.run_bind]
    rcases hran : (Context.execute { b.context with queue := waiting } command).run b.recorder with
      ⟨⟨outcome, context⟩, device, events⟩
    rw [hran] at hfirst
    cases outcome with
    | error failure => exact hfirst
    | ok => exact hfirst.append (ih _ (count + 1))

theorem course_executePending (b : Bench) :
    Course b (b.context.replies b.recorder b.context.queue) b.executePending.2 := by
  have hall := b.course_executeAll 0 b.context.queue
  simp only [executePending, Context.executePending, Dialogue.bind_eq, Script.run_bind, after]
  rcases hran : (b.context.executeAll 0 b.context.queue).run b.recorder with
    ⟨⟨outcome, context⟩, device, events⟩
  rw [hran] at hall
  cases outcome with
  | error failure => exact hall
  | ok count => by_cases hcount : 0 < count <;> simpa [hcount, Script.run_bind] using hall

theorem course_step (b : Bench) {step : Step} (hsized : step.Sized) :
    Course b (b.stepReplies step) (b.perform step).2 := by
  cases step with
  | commands text =>
    simp only [stepReplies, perform]
    cases Command.readAll text with
    | error fault => exact .refl b
    | ok commands => exact b.course_submitEach commands
  | executePending => exact b.course_executePending
  | work name work =>
    simp only [stepReplies, perform]
    cases hfound : b.named? name with
    | none =>
      simp only [Bench.work, hfound]
      exact .refl b
    | some object =>
      obtain ⟨hrecorder, hat⟩ := work_of_found hfound work
      exact .single (.work (k := Sum.inr name) hfound hsized hrecorder hat)
  | _ => exact .single (.step trivial)

theorem course_act (b : Bench) (action : Action) :
    Course b (b.replies action) (b.act action) := by
  cases action with
  | submit command => exact b.course_submit command
  | execute command => exact .single (.execute command)
  | use id work hsized =>
    simp only [replies, act]
    cases hfound : b.context.object? id with
    | none =>
      simp only [use, hfound]
      exact .refl b
    | some object =>
      obtain ⟨hrecorder, hat⟩ := use_of_found hfound work
      exact .single (.work (k := Sum.inl id) hfound hsized hrecorder hat)
  | step step hsized => exact b.course_step hsized

/-- **A run is a course of deals.** -/
theorem course_actAll (b : Bench) (actions : List Action) :
    Course b (b.allReplies actions) (b.actAll actions) := by
  induction actions generalizing b with
  | nil => exact .refl b
  | cons action rest ih => exact (b.course_act action).append (ih _)

end Bench
end DrawStream
