import DrawStream.Device.Recorder
import DrawStream.Proofs.Concerns
import DrawStream.Proofs.Session

/-! # What the usage of buffers has a part in

A context copies its usage into every buffer that it creates, and a buffer gives it with every
allocation.  Nothing else ever looks at it.  As an equation of scripts: a context with another
usage does what it would have done without, but for that one argument, and the other usage is
still there afterwards (`execute_withUsage`).  The equation is shown operation by operation;
`retold` is what it says of each.  Programs and most of what is done with textures do not
allocate buffers, so there the equation says that nothing changes.

A recorder does not look at the usage of an allocation either, so two sessions that differ in
the usage go the same way (`session_withUsage`).  Two contexts go through tables of their own, so
their sessions may bind what is recorded in different orders as well, but differ in nothing
else (`usage_shows_in_allocations_only`). -/
namespace DrawStream
open Command (Id)

/-! ## Requests and calls -/

/-- The request with another usage, if it allocates storage for a buffer. -/
def Request.withUsage (usage : Nat) : {β : Type} → Request β → Request β
  | _, .bufferStorage target bytes _ => .bufferStorage target bytes usage
  | _, r => r

/-- The call with another usage, if it allocates storage for a buffer. -/
def Call.withUsage (usage : Nat) : Call → Call
  | .bufferStorage target bytes _ => .bufferStorage target bytes usage
  | c => c

/-- The usage that a call gives for the storage of a buffer. -/
def Call.usage? : Call → Option Nat
  | .bufferStorage _ _ usage => some usage
  | _ => none

/-- The event with another usage, if it is a call that allocates storage. -/
def Event.withUsage (usage : Nat) : Event → Event
  | .call c => .call (c.withUsage usage)
  | .note n => .note n

theorem Request.withUsage_of_topic {β : Type} {r : Request β} (h : r.topic ≠ .storage)
    (usage : Nat) : r.withUsage usage = r := by
  cases r <;> first | rfl | exact absurd rfl h

theorem Call.withUsage_withUsage (c : Call) (usage usage' : Nat) :
    (c.withUsage usage').withUsage usage = c.withUsage usage := by
  cases c <;> rfl

theorem Call.usage?_withUsage {c : Call} {usage n : Nat}
    (h : (c.withUsage usage).usage? = some n) : n = usage := by
  cases c <;> cases h
  rfl

theorem Call.ofAnswer?_withUsage {β : Type} (r : Request β) (usage : Nat) (b : β) :
    Call.ofAnswer? (r.withUsage usage) b = (Call.ofAnswer? r b).map (Call.withUsage usage) := by
  cases r <;> rfl

theorem Event.calls_withUsage (usage : Nat) (events : List Event) :
    Event.calls (events.map (Event.withUsage usage)) =
      (Event.calls events).map (Call.withUsage usage) := by
  induction events with
  | nil => rfl
  | cons e rest ih => cases e <;> simpa [Event.calls, Event.withUsage] using ih

theorem Event.notes_withUsage (usage : Nat) (events : List Event) :
    Event.notes (events.map (Event.withUsage usage)) = Event.notes events := by
  induction events with
  | nil => rfl
  | cons e rest ih => cases e <;> simpa [Event.notes, Event.withUsage] using ih

theorem Recorder.answer_withUsage {β : Type} (r : Request β) (usage : Nat) (d : Recorder) :
    Device.answer (r.withUsage usage) d = Device.answer r d := by
  cases r <;> rfl

/-! ## Scripts -/

/-- The act with another usage, if it allocates storage for a buffer. -/
def Act.withUsage (usage : Nat) : {β : Type} → Act β → Act β
  | _, .request r => .request (r.withUsage usage)
  | _, act => act

namespace Script
variable {α γ : Type} (usage : Nat)

/-- The script with another usage wherever it allocates storage for a buffer. -/
def withUsage : Script α → Script α
  | .done a => .done a
  | .ask act next => .ask (act.withUsage usage) fun b => withUsage (next b)

@[simp] theorem withUsage_done (a : α) :
    withUsage usage (Dialogue.done a : Script α) = .done a := rfl

@[simp] theorem withUsage_request {β : Type} (r : Request β) :
    withUsage usage (request r) = request (r.withUsage usage) := rfl

@[simp] theorem withUsage_note (n : Note) : withUsage usage (note n) = note n := rfl

@[simp] theorem withUsage_bind (x : Script α) (f : α → Script γ) :
    withUsage usage (Dialogue.bind x f) =
      Dialogue.bind (withUsage usage x) fun a => withUsage usage (f a) := by
  induction x with
  | done a => rfl
  | ask act next ih => simp only [Dialogue.ask_bind, withUsage, ih]

/-- A script that has nothing to do with storage. -/
theorem Within.withUsage_eq {topics : List Topic} {post : α → Prop} {x : Script α}
    (h : x.Within topics post) (hstorage : .storage ∉ topics) : withUsage usage x = x := by
  induction x with
  | done a => rfl
  | ask act next ih =>
    have hrest : (fun b => withUsage usage (next b)) = next := funext fun b => ih b (h.2 b)
    rw [withUsage, hrest]
    cases act with
    | request r =>
      have htopic : r.topic ≠ .storage := fun heq => hstorage (heq ▸ h.1 _ rfl)
      rw [Act.withUsage, r.withUsage_of_topic htopic]
    | drain | arrange | note n => rfl

theorem perform_withUsage {β : Type} (act : Act β) (d : Recorder) :
    (act.withUsage usage).perform d =
      ⟨(act.perform d).value, (act.perform d).device,
        (act.perform d).events.map (Event.withUsage usage)⟩ := by
  cases act with
  | request r =>
    simp only [Act.withUsage, Act.perform, Recorder.answer_withUsage, Call.ofAnswer?_withUsage]
    cases Call.ofAnswer? r (Device.answer r d).1 <;> rfl
  | drain =>
    simp only [Act.withUsage, Act.perform, List.map_replicate]
    rfl
  | arrange | note n => rfl

/-- A recorder answers as ever. -/
theorem run_withUsage (x : Script α) (d : Recorder) :
    (withUsage usage x).run d =
      ⟨(x.run d).value, (x.run d).device, (x.run d).events.map (Event.withUsage usage)⟩ := by
  induction x generalizing d with
  | done a => rfl
  | ask act next ih =>
    simp only [withUsage, run_ask, perform_withUsage, ih, List.map_append]

end Script

/-! ## Objects -/

/-- The buffer with another usage. -/
def Buffer.withUsage (usage : BufferUsage) (b : Buffer) : Buffer := { b with usage }

/-- The object with another usage, if it is a buffer. -/
def Object.withUsage (usage : BufferUsage) : Object → Object
  | vertexBuffer b => vertexBuffer (b.withUsage usage)
  | indexBuffer b => indexBuffer (b.withUsage usage)
  | texture t => texture t
  | program p => program p

section Objects
variable (usage : BufferUsage)

@[simp] theorem Object.kind_withUsage (o : Object) : (o.withUsage usage).kind = o.kind := by
  cases o <;> rfl

@[simp] theorem Object.handle_withUsage (o : Object) :
    (o.withUsage usage).handle = o.handle := by
  cases o <;> rfl

theorem Object.delete_withUsage (o : Object) :
    (o.withUsage usage).delete = Script.withUsage usage.number o.delete := by
  cases o <;> rfl

theorem Object.create_withUsage (old : BufferUsage) (kind : ObjectKind) :
    Object.create usage kind =
      Dialogue.bind (Script.withUsage usage.number (Object.create old kind)) fun o =>
        .done (o.withUsage usage) := by
  cases kind <;> rfl

theorem Buffer.setSize_withUsage (b : Buffer) (bytes : Nat) :
    (b.withUsage usage).setSize bytes =
      Dialogue.bind (Script.withUsage usage.number (b.setSize bytes)) fun b =>
        .done (b.withUsage usage) := by
  unfold setSize
  by_cases hsize : bytes = b.size
  · rw [if_pos hsize, if_pos (show bytes = (b.withUsage usage).size from hsize)]
    rfl
  · rw [if_neg hsize, if_neg (show ¬ bytes = (b.withUsage usage).size from hsize)]
    rfl

theorem Buffer.setData_withUsage (b : Buffer) (offset : Nat) (data : Elements) :
    (b.withUsage usage).setData offset data =
      Script.withUsage usage.number (b.setData offset data) := by
  by_cases hfits : !rangeFits b.size offset data.byteLength
  · simp [setData, Buffer.withUsage, hfits]
  · simp [setData, Buffer.withUsage, hfits, activate, Request.withUsage]

end Objects

namespace Texture
variable (t : Texture) (usage : Nat)

theorem withUsage_setStorage (storage : TextureStorage) :
    Script.withUsage usage (t.setStorage storage) = t.setStorage storage := by
  unfold setStorage
  split
  · rfl
  · split <;> rfl

theorem withUsage_align (alignment value : Nat) :
    Script.withUsage usage (align alignment value) = align alignment value := by
  unfold align
  split <;> rfl

theorem withUsage_setData (offset shape : Extent) (data : Elements) :
    Script.withUsage usage (t.setData offset shape data) = t.setData offset shape data := by
  unfold setData
  split
  · rfl
  · split
    · rfl
    · simp only [write, activate, Dialogue.bind_eq, Script.withUsage_bind,
        Script.withUsage_request, withUsage_align, Request.withUsage]
      rfl

end Texture

namespace Program
variable (p : Program) (usage : Nat)

theorem withUsage_perform (a : Assignment) :
    Script.withUsage usage (a.perform p) = a.perform p :=
  (p.within_perform_assignment a).withUsage_eq usage (by decide)

theorem withUsage_setShaders (vertex fragment : String) :
    Script.withUsage usage (p.setShaders vertex fragment) = p.setShaders vertex fragment :=
  (p.within_setShaders vertex fragment).withUsage_eq usage (by decide)

theorem withUsage_draw (mode : DrawMode) (selection : Selection) :
    Script.withUsage usage (p.draw mode selection) = p.draw mode selection :=
  (p.within_draw mode selection).withUsage_eq usage (by decide)

end Program

/-! ## Contexts -/

namespace Context

/-- The context with another usage, which all its buffers have too. -/
def withUsage (usage : BufferUsage) (c : Context) : Context :=
  { c with objects := c.objects.map fun e => (e.1, e.2.withUsage usage), usage }

/-- The script with another usage, also in the context that comes out of it. -/
def retold {α : Type} (usage : BufferUsage) (x : Script (α × Context)) : Script (α × Context) :=
  Dialogue.bind (Script.withUsage usage.number x) fun r => .done (r.1, r.2.withUsage usage)

variable (c : Context) (usage : BufferUsage)

section WithUsage
variable (id : Id)

@[simp] theorem withUsage_object? :
    (c.withUsage usage).object? id = (c.object? id).map (Object.withUsage usage) := by
  change (c.objects.map fun e => (e.1, e.2.withUsage usage)).lookup id = _
  unfold object?
  induction c.objects with
  | nil => rfl
  | cons e rest ih =>
    rw [List.map_cons, List.lookup_cons, List.lookup_cons, ih]
    cases id == e.1 <;> rfl

@[simp] theorem withUsage_object :
    (c.withUsage usage).object id = (c.object id).map (Object.withUsage usage) := by
  unfold object
  rw [withUsage_object?]
  cases c.object? id <;> rfl

@[simp] theorem withUsage_program : (c.withUsage usage).program id = c.program id := by
  unfold program
  rw [withUsage_object]
  rcases c.object id with failure | o
  · rfl
  · cases o <;> rfl

@[simp] theorem withUsage_texture : (c.withUsage usage).texture id = c.texture id := by
  unfold texture
  rw [withUsage_object]
  rcases c.object id with failure | o
  · rfl
  · cases o <;> rfl

@[simp] theorem withUsage_source (value : Command.Source) :
    (c.withUsage usage).source value = c.source value := by
  cases value with
  | constant => rfl
  | buffer id stride offset =>
    simp only [source, vertexBuffer, withUsage_object]
    rcases c.object id with failure | o
    · rfl
    · cases o <;> rfl

@[simp] theorem withUsage_selection (value : Command.Selection) :
    (c.withUsage usage).selection value = c.selection value := by
  cases value with
  | range => rfl
  | elements id type count =>
    simp only [selection, indexBuffer, withUsage_object]
    rcases c.object id with failure | o
    · rfl
    · cases o <;> rfl

@[simp] theorem withUsage_put (o : Object) :
    (c.withUsage usage).put id (o.withUsage usage) = (c.put id o).withUsage usage := by
  unfold put
  rw [withUsage_object?, Option.isSome_map]
  by_cases hfound : (c.object? id).isSome
  · rw [if_pos hfound, if_pos hfound]
    simp only [withUsage, List.map_map]
    congr 2
    funext e
    simp only [Function.comp_apply]
    split <;> rfl
  · rw [if_neg hfound, if_neg hfound]
    simp [withUsage]

@[simp] theorem withUsage_remove :
    (c.withUsage usage).remove id = (c.remove id).withUsage usage := by
  simp only [remove, withUsage, List.filter_map]
  rfl

end WithUsage

section Retold
variable {α γ : Type}

@[simp] theorem retold_done (a : α) :
    retold usage (.done (a, c)) = .done (a, c.withUsage usage) := rfl

@[simp] theorem retold_refuse (failure : Failure) :
    retold usage (c.refuse failure) = (c.withUsage usage).refuse failure := rfl

@[simp] theorem retold_bind (x : Script γ) (f : γ → Script (α × Context)) :
    retold usage (Dialogue.bind x f) =
      Dialogue.bind (Script.withUsage usage.number x) fun b => retold usage (f b) := by
  rw [retold, Script.withUsage_bind, Dialogue.bind_assoc]
  rfl

theorem run_retold (x : Script (α × Context)) (d : Recorder) :
    (retold usage x).run d =
      ⟨((x.run d).value.1, (x.run d).value.2.withUsage usage), (x.run d).device,
        (x.run d).events.map (Event.withUsage usage.number)⟩ := by
  rw [retold, Script.run_bind, Script.run_withUsage]
  simp

end Retold

/-! ## Operation by operation -/

theorem onProgram_withUsage (id : Id) {act : Program → Script (Outcome Unit × Program)}
    (hact : ∀ p, Script.withUsage usage.number (act p) = act p) :
    (c.withUsage usage).onProgram id act = retold usage (c.onProgram id act) := by
  simp only [onProgram, withUsage_program]
  cases c.program id with
  | error failure => rfl
  | ok p =>
    simp only [Dialogue.bind_eq, Dialogue.pure_eq_done, retold_bind, hact, retold_done]
    exact congrArg _ (funext fun r => by rw [← withUsage_put]; rfl)

theorem onTexture_withUsage (id : Id) {act : Texture → Script Unit}
    (hact : ∀ t, Script.withUsage usage.number (act t) = act t) :
    (c.withUsage usage).onTexture id act = retold usage (c.onTexture id act) := by
  simp only [onTexture, withUsage_texture]
  cases c.texture id with
  | error failure => rfl
  | ok t =>
    simp only [Dialogue.bind_eq, Dialogue.pure_eq_done, retold_bind, hact, retold_done]

theorem create_withUsage (id : Id) (kind : ObjectKind) :
    (c.withUsage usage).create id kind = retold usage (c.create id kind) := by
  simp only [create, withUsage_object?]
  cases c.object? id with
  | some o => rfl
  | none =>
    simp only [Option.map_none, Dialogue.bind_eq, Dialogue.pure_eq_done, retold_bind, retold_done,
      Script.withUsage_note]
    rw [show (c.withUsage usage).usage = usage from rfl,
      Object.create_withUsage usage c.usage kind, Dialogue.bind_assoc]
    simp only [Dialogue.done_bind, Object.handle_withUsage, withUsage_put]

theorem delete_withUsage (id : Id) :
    (c.withUsage usage).delete id = retold usage (c.delete id) := by
  simp only [delete, withUsage_object]
  cases c.object id with
  | error failure => rfl
  | ok o =>
    simp only [Except.map, Dialogue.bind_eq, Dialogue.pure_eq_done, retold_bind, retold_done,
      Script.withUsage_note, Object.kind_withUsage, Object.delete_withUsage, withUsage_remove]

theorem setSize_withUsage (id : Id) (storage : Command.Storage) :
    (c.withUsage usage).setSize id storage = retold usage (c.setSize id storage) := by
  simp only [setSize, withUsage_object]
  rcases c.object id with failure | o
  · rfl
  cases o with
  | vertexBuffer b | indexBuffer b =>
    cases storage with
    | bytes n =>
      simp only [Except.map, Object.withUsage, Dialogue.bind_eq, Dialogue.pure_eq_done,
        retold_bind, retold_done, Buffer.setSize_withUsage, Dialogue.bind_assoc,
        Dialogue.done_bind]
      exact congrArg _ (funext fun r => by rw [← withUsage_put]; rfl)
    | texture => rfl
  | texture t =>
    cases storage with
    | bytes => rfl
    | texture =>
      simp only [Except.map, Object.withUsage, Dialogue.bind_eq, Dialogue.pure_eq_done,
        retold_bind, retold_done, Texture.withUsage_setStorage]
      exact congrArg _ (funext fun r => by rw [← withUsage_put]; rfl)
  | program p => cases storage <;> rfl

theorem setBufferData_withUsage (id : Id) (b : Buffer) (offset : Command.Offset)
    (data : Elements) :
    (c.withUsage usage).setBufferData id (b.withUsage usage) offset data =
      retold usage (c.setBufferData id b offset data) := by
  cases offset with
  | texel => rfl
  | linear n =>
    simp only [setBufferData, Dialogue.bind_eq, Dialogue.pure_eq_done, retold_bind, retold_done,
      Buffer.setData_withUsage]

theorem setTextureData_withUsage (id : Id) (t : Texture) (offset : Command.Offset)
    (shape : Option (Command.Count × Command.Count)) (data : Elements) :
    (c.withUsage usage).setTextureData id t offset shape data =
      retold usage (c.setTextureData id t offset shape data) := by
  simp only [setTextureData]
  cases texelOffset? offset with
  | none => rfl
  | some place =>
    dsimp only
    split
    · rfl
    · simp only [Dialogue.bind_eq, Dialogue.pure_eq_done, retold_bind, retold_done,
        Texture.withUsage_setData]

theorem setData_withUsage (id : Id) (offset : Command.Offset)
    (shape : Option (Command.Count × Command.Count)) (data : Elements) :
    (c.withUsage usage).setData id offset shape data =
      retold usage (c.setData id offset shape data) := by
  simp only [setData, withUsage_object]
  rcases c.object id with failure | o
  · rfl
  cases o with
  | vertexBuffer b | indexBuffer b => exact setBufferData_withUsage ..
  | texture t => exact setTextureData_withUsage ..
  | program p => rfl

/-- **The usage has no part in an execution but in what is allocated.** -/
theorem execute_withUsage (command : Command) :
    (c.withUsage usage).execute command = retold usage (c.execute command) := by
  simp only [execute, Dialogue.bind_eq, retold_bind, Script.withUsage_note]
  -- The announcement comes first either way.
  refine congrArg _ (funext fun _ => ?_)
  have hassign (id : Id) (a : Program.Assignment) :
      (c.withUsage usage).onProgram id (fun p => a.perform p) =
        retold usage (c.onProgram id fun p => a.perform p) :=
    onProgram_withUsage c usage id fun p => p.withUsage_perform _ a
  cases command with
  | create => exact create_withUsage ..
  | delete => exact delete_withUsage ..
  | shaders id vertex fragment =>
    exact onProgram_withUsage c usage id fun p => p.withUsage_setShaders _ vertex fragment
  | size => exact setSize_withUsage ..
  | data => exact setData_withUsage ..
  | «attribute» id name type value =>
    simp only [carryOut, withUsage_source]
    cases c.source value with
    | error failure => rfl
    | ok source => exact hassign id (.attribute name type source)
  | uniform id name type value => exact hassign id (.uniform name type (.floats value))
  | texture id name image =>
    simp only [carryOut, withUsage_texture]
    cases c.texture image with
    | error failure => rfl
    | ok t => exact hassign id (.sampler name Texture.target t.handle)
  | interpolation id min mag => exact onTexture_withUsage c usage id fun t => rfl
  | wrapping id wrap => exact onTexture_withUsage c usage id fun t => rfl
  | draw id mode selection =>
    simp only [carryOut, withUsage_selection]
    cases c.selection selection with
    | error failure => rfl
    | ok found => exact onProgram_withUsage c usage id fun p => p.withUsage_draw _ mode found

/-! ## Sessions -/

theorem submit_withUsage (command : Command) :
    (c.withUsage usage).submit command = retold usage (c.submit command) := by
  unfold submit
  rw [show (c.withUsage usage).deferred = c.deferred from rfl]
  cases c.deferred with
  | true => rfl
  | false => exact execute_withUsage c usage command

theorem executeAll_withUsage (count : Nat) (commands : List Command) :
    (c.withUsage usage).executeAll count commands =
      retold usage (c.executeAll count commands) := by
  induction commands generalizing c count with
  | nil => rfl
  | cons command waiting ih =>
    have hexecute := execute_withUsage { c with queue := waiting } usage command
    simp only [executeAll, Dialogue.bind_eq, retold_bind]
    refine (congrArg (Dialogue.bind · _) hexecute).trans ?_
    rw [retold, Dialogue.bind_assoc]
    refine congrArg _ (funext fun r => ?_)
    obtain ⟨outcome, after⟩ := r
    cases outcome with
    | error failure => rfl
    | ok => exact ih after (count + 1)

theorem executePending_withUsage :
    (c.withUsage usage).executePending = retold usage c.executePending := by
  have hall := executeAll_withUsage c usage 0 c.queue
  simp only [executePending, Dialogue.bind_eq, retold_bind]
  refine (congrArg (Dialogue.bind · _) hall).trans ?_
  rw [retold, Dialogue.bind_assoc]
  refine congrArg _ (funext fun r => ?_)
  obtain ⟨outcome, after⟩ := r
  cases outcome with
  | error failure => rfl
  | ok count =>
    by_cases hcount : 0 < count
    · simp [hcount]
    · simp [hcount]

theorem take_withUsage (turn : Turn) :
    (c.withUsage usage).take turn = retold usage (c.take turn) := by
  cases turn with
  | submit command =>
    simp only [take, Dialogue.bind_eq, retold_bind, submit_withUsage]
    rw [retold, Dialogue.bind_assoc]
    rfl
  | setDeferred deferred => rfl
  | executePending =>
    simp only [take, Dialogue.bind_eq, retold_bind, executePending_withUsage]
    rw [retold, Dialogue.bind_assoc]
    rfl

end Context

/-- The round with another usage. -/
def Round.withUsage (usage : BufferUsage) (r : Round) : Round where
  before := r.before.withUsage usage
  turn := r.turn
  reply := r.reply
  events := r.events.map (Event.withUsage usage.number)
  after := r.after.withUsage usage

namespace Context
variable (c : Context) (usage : BufferUsage) (d : Recorder)

/-- **A session with another usage goes the same way**, round by round. -/
theorem session_withUsage (turns : List Turn) :
    (c.withUsage usage).session d turns =
      ⟨(c.session d turns).rounds.map (Round.withUsage usage),
        (c.session d turns).context.withUsage usage, (c.session d turns).device⟩ := by
  induction turns generalizing c d with
  | nil => rfl
  | cons turn rest ih =>
    simp only [session, take_withUsage, run_retold, ih, List.map_cons]
    rfl

theorem events_session_withUsage (turns : List Turn) :
    ((c.withUsage usage).session d turns).events =
      (c.session d turns).events.map (Event.withUsage usage.number) := by
  simp only [session_withUsage, Session.events, List.flatMap_map, List.map_flatMap]
  rfl

theorem withUsage_withUsage (usage' : BufferUsage) :
    (c.withUsage usage').withUsage usage = c.withUsage usage := by
  have hobject (o : Object) : (o.withUsage usage').withUsage usage = o.withUsage usage := by
    cases o <;> rfl
  simp only [withUsage, List.map_map, Function.comp_def, hobject]

end Context

/-- The second of two sessions goes as the first, with its usage in the place of the other and its
bindings in orders of its own. -/
structure Session.RetoldAs (s t : Session Recorder) (usage usage' : BufferUsage) : Prop where
  turns : t.rounds.map Round.turn = s.rounds.map Round.turn
  replies : t.rounds.map Round.reply = s.rounds.map Round.reply
  pending : t.rounds.map (·.after.pending) = s.rounds.map (·.after.pending)
  contexts : t.rounds.map Round.after = s.rounds.map (·.after.withUsage usage')
  device : s.device.BarOrder t.device
  notes : Event.notes t.events = Event.notes s.events
  /-- Without the usage of allocations the calls are the same, bar the order of bindings. -/
  calls : DrawStream.BarOrder (Call.withUsage 0) ((Event.calls s.events).map (Call.withUsage 0))
    ((Event.calls t.events).map (Call.withUsage 0))
  ownUsage : ∀ call ∈ Event.calls s.events, ∀ n, call.usage? = some n → n = usage.number
  ownUsage' : ∀ call ∈ Event.calls t.events, ∀ n, call.usage? = some n → n = usage'.number
  context : t.context = s.context.withUsage usage'

namespace Context
variable (c : Context) (usage usage' : BufferUsage) (d : Recorder)

/-- Whatever allocates storage in a session gives the usage of the context. -/
theorem usage?_of_session_withUsage (turns : List Turn) :
    ∀ call ∈ Event.calls ((c.withUsage usage).session d turns).events,
      ∀ n, call.usage? = some n → n = usage.number := by
  rw [events_session_withUsage, Event.calls_withUsage]
  intro call hcall n hn
  obtain ⟨plain, -, rfl⟩ := List.mem_map.mp hcall
  exact Call.usage?_withUsage hn

/-- Without the usage of allocations, the calls are those of the session as it was. -/
theorem calls_session_withUsage (turns : List Turn) :
    (Event.calls ((c.withUsage usage).session d turns).events).map (Call.withUsage 0) =
      (Event.calls (c.session d turns).events).map (Call.withUsage 0) := by
  rw [events_session_withUsage, Event.calls_withUsage, List.map_map]
  exact List.map_congr_left fun call _ => call.withUsage_withUsage 0 usage.number

/-- Two contexts whose buffers have their own usages, on recorders with their own orders. -/
theorem retoldAs_session (arrangements : List Arrangement) (turns : List Turn) :
    ((c.withUsage usage).session d turns).RetoldAs
      ((c.withUsage usage').session (d.inOrders arrangements) turns) usage usage' := by
  have hrecorder : d.BarOrder (d.inOrders arrangements) := rfl
  have hplain := c.barOrder_session hrecorder turns
  have hnotes (usage : BufferUsage) (d : Recorder) :
      Event.notes ((c.withUsage usage).session d turns).events =
        Event.notes (c.session d turns).events := by
    rw [events_session_withUsage, Event.notes_withUsage]
  constructor
  case notes => rw [hnotes, hnotes, hplain.events.notes]
  case calls =>
    rw [calls_session_withUsage, calls_session_withUsage]
    exact hplain.events.calls.map (Call.withUsage 0)
  case ownUsage => exact usage?_of_session_withUsage c usage d turns
  case ownUsage' => exact usage?_of_session_withUsage c usage' _ turns
  all_goals simp only [session_withUsage, List.map_map, withUsage_withUsage]
  case turns => exact hplain.map_rounds fun _ _ h => h.turn
  case replies => exact hplain.map_rounds fun _ _ h => h.reply
  case pending =>
    exact hplain.map_rounds fun _ _ h => congrArg (·.queue.length) h.after
  case contexts =>
    refine (hplain.map_rounds fun _ _ h => congrArg (Context.withUsage usage') h.after).trans ?_
    exact List.map_congr_left fun r _ => (r.after.withUsage_withUsage usage' usage).symm
  case device => exact hplain.device
  case context => rw [hplain.context]

/-- **The usage of buffers shows in allocations only.**  Two contexts that differ in nothing
else, of which every buffer has the usage of its context, go through the same session bar the
order of bindings, on recorders that are the same but for the orders of tables.  On one recorder
the order is the same as well.  And a context that starts without objects is always such a
context. -/
theorem usage_shows_in_allocations_only (arrangements : List Arrangement) (turns : List Turn) :
    ((c.withUsage usage).session d turns).RetoldAs
      ((c.withUsage usage').session (d.inOrders arrangements) turns) usage usage' ∧
    (((c.withUsage usage).session d turns).device =
        ((c.withUsage usage').session d turns).device ∧
      (Event.calls ((c.withUsage usage).session d turns).events).map (Call.withUsage 0) =
        (Event.calls ((c.withUsage usage').session d turns).events).map (Call.withUsage 0)) ∧
    ∀ deferred, let reached := (({ deferred, usage } : Context).session d turns).context
      reached.withUsage usage = reached := by
  refine ⟨retoldAs_session c usage usage' d arrangements turns, ⟨?_, ?_⟩, fun deferred => ?_⟩
  · simp only [session_withUsage]
  · rw [calls_session_withUsage, calls_session_withUsage]
  · have hfresh := session_withUsage { deferred, usage } usage d turns
    exact (congrArg Session.context hfresh).symm

end Context
end DrawStream
