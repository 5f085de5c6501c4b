import DrawStream.Bench.Perform
import DrawStream.Proofs.Machine

/-! # Histories of a bench

Whatever is done with a context and with objects of one's own, at one device, is a list of
actions on a bench (`Bench.Action`): steps, commands that are submitted or executed
directly, and work on an object of the context that someone has got hold of.  What the
device is asked for meanwhile is the `trace` of the actions.

A history is the trace with what each call is part of.  The work that a command asks for is
`Context.workOf`; one execution, or one piece of work, is an `Episode`, and a history is
the calls of its episodes in order.  That nothing is left out and nothing made up is
`calls_history`. -/
namespace DrawStream
open Command (Id)

/-! ## The work that is done -/

/-- The work with the textures that it speaks of found. -/
def Bench.Work.resolve (find : String → Option Object) : Bench.Work → Bench.Work
  | .setTexture name texture =>
    match find texture with
    | some (.texture t) => .bindSampler name Texture.target t.handle
    | _ => .setTexture name texture
  | work => work

/-- Sizes have 64 bits. -/
def Bench.Work.Sized : Bench.Work → Prop
  | .bufferSetSize bytes => bytes ≤ greatestSize
  | _ => True

/-- Sizes have 64 bits. -/
def Bench.Step.Sized : Bench.Step → Prop
  | .work _ w => w.Sized
  | _ => True

namespace Context
variable (c : Context)

/-- The upload that a command asks for. -/
def uploadOf (object : Object) (offset : Command.Offset)
    (shape : Option (Command.Count × Command.Count)) (data : Elements) : Option Bench.Work :=
  match object, offset with
  | .vertexBuffer _, .linear n | .indexBuffer _, .linear n => some (.bufferSetData n.toNat data)
  | .texture t, offset => do
    let offset ← texelOffset? offset
    let shape ← (shape.map fun s => (s.1.toNat, s.2.toNat)) <|> t.shape
    return .textureSetData offset shape data
  | _, _ => none

/-- The work that a command asks for on the object that it addresses. -/
def workOf (object : Object) : Command → Option Bench.Work
  | .create .. => none
  | .delete _ => some .delete
  | .shaders _ vertex fragment => some (.setShaders vertex fragment)
  | .size _ (.bytes n) => some (.bufferSetSize n.toNat)
  | .size _ (.texture (height, width) format) =>
    some (.textureSetSize ⟨height.toNat, width.toNat, format⟩)
  | .data _ offset shape data => uploadOf object offset shape data
  | .attribute _ name type value => (c.source value).toOption.map (.setAttribute name type)
  | .uniform _ name type value => some (.setUniform name type (.floats value))
  | .texture _ name image =>
    (c.texture image).toOption.map fun t => .bindSampler name Texture.target t.handle
  | .interpolation _ min mag => some (.textureSetInterpolation min mag)
  | .wrapping _ (s, t) => some (.textureSetWrapping s t)
  | .draw _ mode selection => (c.selection selection).toOption.map (.draw mode)

/-- The deed that executing a command is. -/
def deed? (command : Command) : Option Deed := do
  let object ← c.object? (Bench.addressee command)
  let work ← c.workOf object command
  return ⟨object, work⟩

end Context

/-! ## Episodes -/

/-- What comes about in one go. -/
structure Episode where
  deed : Option Deed
  links : Bool
  events : List Event

/-- The calls of an episode, each with what it is part of. -/
def Episode.entries (e : Episode) : List Entry :=
  (Event.calls e.events).map fun call => ⟨call, e.deed, e.links⟩

/-- The execution of a command. -/
def Context.episode (c : Context) (r : Recorder) (command : Command) : Episode :=
  ⟨c.deed? command, !r.failLink, ((c.execute command).run r).events⟩

/-- The execution of commands up to the first one that fails. -/
def Context.episodes (c : Context) (r : Recorder) : List Command → List Episode
  | [] => []
  | command :: waiting =>
    let c := { c with queue := waiting }
    let ran := (c.execute command).run r
    c.episode r command ::
      match ran.value.1 with
      | .error _ => []
      | .ok () => episodes ran.value.2 ran.device waiting

namespace Bench
variable (b : Bench)

/-- Work on an object. -/
def workEpisode (object : Object) (work : Work) : Episode :=
  ⟨some ⟨object, work.resolve b.named?⟩, !b.recorder.failLink,
    (Script.run (workOn b.named? object work) b.recorder).events⟩

/-- The submission of a command. -/
def submitEpisodes (command : Command) : List Episode :=
  if b.context.deferred then [] else [b.context.episode b.recorder command]

/-- The submission of commands one by one. -/
def submitEachEpisodes (b : Bench) : List Command → List Episode
  | [] => []
  | command :: rest => b.submitEpisodes command ++ submitEachEpisodes (b.submit command).2 rest

/-- What a step consists of. -/
def stepEpisodes (step : Step) : List Episode :=
  match step with
  | .commands text =>
    match Command.readAll text with
    | .error _ => []
    | .ok commands => b.submitEachEpisodes commands
  | .executePending => b.context.episodes b.recorder b.context.queue
  | .work name work =>
    match b.named? name with
    | none => []
    | some object => [b.workEpisode object work]
  | _ => [⟨none, !b.recorder.failLink, (b.perform step).1.events⟩]

/-! ## Actions -/

/-- Something done with a context or with objects of one's own. -/
inductive Action
  | submit (command : Command)
  /-- Execute a command, whatever the mode. -/
  | execute (command : Command)
  /-- Work on an object of the context. -/
  | use (id : Id) (work : Work) (sized : work.Sized)
  | step (step : Step) (sized : step.Sized)

/-- Executes a command. -/
def execute (command : Command) : Report × Bench :=
  let ran := Script.run (b.context.execute command) b.recorder
  ({ answer := .ofOutcome ran.value.1, events := ran.events },
    { b.after ran with context := ran.value.2 })

/-- Works on an object of the context. -/
def use (id : Id) (work : Work) : Report × Bench :=
  match b.context.object? id with
  | none => ({ answer := .unsuited }, b)
  | some object =>
    let ran := Script.run (workOn b.named? object work) b.recorder
    let (answer, object) := ran.value
    let context := match object with
      | some object => b.context.put id object
      | none => b.context.remove id
    ({ answer, events := ran.events, object }, { b.after ran with context })

/-- Performs an action. -/
def act : Action → Bench
  | .submit command => (b.submit command).2
  | .execute command => (b.execute command).2
  | .use id work _ => (b.use id work).2
  | .step step _ => (b.perform step).2

/-- What an action consists of. -/
def episodes : Action → List Episode
  | .submit command => b.submitEpisodes command
  | .execute command => [b.context.episode b.recorder command]
  | .use id work _ =>
    match b.context.object? id with
    | none => []
    | some object => [b.workEpisode object work]
  | .step step _ => b.stepEpisodes step

/-- What came about in a step, as reported: command by command if there were commands. -/
def stepEvents (step : Step) : List Event :=
  match step with
  | .commands text =>
    match (b.perform (.commands text)).1.answer with
    | .submitted reports => reports.flatMap CommandReport.events
    | _ => []
  | _ => (b.perform step).1.events

/-- What came about in an action, as reported. -/
def events : Action → List Event
  | .submit command => (b.submit command).1.events
  | .execute command => (b.execute command).1.events
  | .use id work _ => (b.use id work).1.events
  | .step step _ => b.stepEvents step

/-! ## Whole runs -/

/-- The bench after actions. -/
def actAll (b : Bench) : List Action → Bench
  | [] => b
  | action :: rest => actAll (b.act action) rest

/-- What the device is asked for. -/
def trace (b : Bench) : List Action → List Call
  | [] => []
  | action :: rest => Event.calls (b.events action) ++ trace (b.act action) rest

/-- What the device is asked for, each call with what it is part of. -/
def history (b : Bench) : List Action → List Entry
  | [] => []
  | action :: rest =>
    (b.episodes action).flatMap Episode.entries ++ history (b.act action) rest

/-- A new bench: a context without objects, and no objects of one's own. -/
def fresh (deferred : Bool) (usage : BufferUsage) (recorder : Recorder) : Bench :=
  { context := { deferred, usage }, recorder }

/-! ## Nothing left out -/

/-- The calls of episodes. -/
def callsOf (episodes : List Episode) : List Call := Event.calls (episodes.flatMap Episode.events)

@[simp] theorem callsOf_append (xs ys : List Episode) :
    callsOf (xs ++ ys) = callsOf xs ++ callsOf ys := by
  simp [callsOf]

@[simp] theorem callsOf_singleton (e : Episode) : callsOf [e] = Event.calls e.events := by
  simp [callsOf]

theorem map_call_entries (episodes : List Episode) :
    (episodes.flatMap Episode.entries).map Entry.call = callsOf episodes := by
  induction episodes with
  | nil => rfl
  | cons e rest ih =>
    rw [List.flatMap_cons, List.map_append, ih, ← List.singleton_append, callsOf_append]
    simp [Episode.entries, Function.comp_def]

theorem callsOf_episodes (c : Context) (r : Recorder) (count : Nat) (commands : List Command) :
    callsOf (c.episodes r commands) =
      Event.calls ((c.executeAll count commands).run r).events := by
  induction commands generalizing c r count with
  | nil => rfl
  | cons command waiting ih =>
    simp only [Context.episodes, Context.executeAll, Context.episode, Dialogue.bind_eq,
      Script.run_bind, Event.calls_append]
    rw [← List.singleton_append, callsOf_append, callsOf_singleton]
    rcases (Context.execute { c with queue := waiting } command).run r with
      ⟨⟨outcome, after⟩, device, events⟩
    -- Both stop at the first failure.
    cases outcome with
    | error failure => rfl
    | ok => exact congrArg _ (ih after device (count + 1))

theorem callsOf_submitEpisodes (command : Command) :
    callsOf (b.submitEpisodes command) = Event.calls (b.submit command).1.events := by
  unfold submitEpisodes submit Context.submit
  cases b.context.deferred <;> simp [Context.episode, callsOf, Event.calls]

theorem callsOf_submitEachEpisodes (commands : List Command) :
    callsOf (b.submitEachEpisodes commands) =
      Event.calls ((b.submitEach commands).1.flatMap CommandReport.events) := by
  induction commands generalizing b with
  | nil => rfl
  | cons command rest ih =>
    simp only [submitEachEpisodes, callsOf_append, callsOf_submitEpisodes, ih, submitEach,
      List.flatMap_cons, Event.calls_append]

theorem calls_executePending (c : Context) (r : Recorder) :
    Event.calls (c.executePending.run r).events = callsOf (c.episodes r c.queue) := by
  rw [callsOf_episodes c r 0]
  simp only [Context.executePending, Dialogue.bind_eq, Script.run_bind, Event.calls_append]
  rcases (c.executeAll 0 c.queue).run r with ⟨⟨outcome, after⟩, device, events⟩
  cases outcome with
  | error failure => simp [Event.calls]
  | ok count =>
    by_cases hcount : 0 < count <;> simp [hcount, Script.run_bind, Event.calls]

theorem callsOf_stepEpisodes (step : Step) :
    callsOf (b.stepEpisodes step) = Event.calls (b.stepEvents step) := by
  cases step with
  | commands text =>
    simp only [stepEpisodes, stepEvents, perform]
    cases Command.readAll text with
    | error fault => rfl
    | ok commands => exact b.callsOf_submitEachEpisodes commands
  | executePending => exact (calls_executePending b.context b.recorder).symm
  | work name work =>
    simp only [stepEpisodes, stepEvents, perform, Bench.work]
    cases b.named? name with
    | none => rfl
    | some object => exact callsOf_singleton _
  | _ => exact callsOf_singleton _

theorem callsOf_actEpisodes (action : Action) :
    callsOf (b.episodes action) = Event.calls (b.events action) := by
  cases action with
  | submit command => exact b.callsOf_submitEpisodes command
  | execute command => exact callsOf_singleton _
  | use id work =>
    simp only [episodes, events, use]
    cases b.context.object? id with
    | none => rfl
    | some object => exact callsOf_singleton _
  | step step => exact b.callsOf_stepEpisodes step

/-- **A history is the trace of what is done, with what each call is part of.** -/
theorem calls_history (actions : List Action) :
    (b.history actions).map Entry.call = b.trace actions := by
  induction actions generalizing b with
  | nil => rfl
  | cons action rest ih =>
    rw [history, List.map_append, map_call_entries, callsOf_actEpisodes, ih]
    rfl

end Bench
end DrawStream
