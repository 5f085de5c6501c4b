import DrawStream.Proofs.Concerns
import DrawStream.Proofs.Draws
import DrawStream.Proofs.Executions

/-! # What a command leaves behind when it fails

A command looks at everything it is given before it changes anything, so most failures
leave the objects and the device exactly as they were.  The exceptions are those where the
device itself has to be asked.  A name is looked up before its value is looked at, so a
refused value may leave the location behind.  Shaders that do not compile leave a program
that is not linked.  Errors that were waiting are gone once they have been reported, the
device's verdict on a program is asked for once, and what a draw call went wrong with is known
only after it.

`Context.Leaves` says for every cause of failure what is left, and `Context.leaves_of_error`
that nothing else ever is. -/
namespace DrawStream
open Command (Id)

/-- A call that has to do with shaders, or that links. -/
def Call.Builds : Call → Prop
  | createShader .. | shaderSource _ | compileShader _ | attachShader .. | detachShader ..
  | deleteShader _ | linkProgram _ => True
  | _ => False

/-- The call that looks a name up. -/
def VariableKind.lookupCall (name : String) : VariableKind → Call
  | .uniform => .uniformLocation name
  | .attribute => .attributeLocation name

/-- A failure that is noticed before anything has been done. -/
def Failure.Early : Failure → Prop
  | uniformValue .. | attributeValue .. | shaderCompile .. | programLink _ | device ..
  | programValidation _ => False
  | programNotLinked | bufferOverflow .. | textureNotAllocated | textureDataSize ..
  | textureRegion .. | outOfRange .. | unknownObject _ | duplicateObject _ | wrongObjectKind ..
  | invalidCommand _ => True

namespace Context
variable {σ : Type} [Device σ] (c : Context)

/-- The context has these objects now, and is otherwise the same. -/
structure Becomes (table : Id → Option Object) (c' : Context) : Prop where
  objects : c'.object? = table
  queue : c'.queue = c.queue
  deferred : c'.deferred = c.deferred
  usage : c'.usage = c.usage

/-- The objects, with another program under a number. -/
def withProgram (id : Id) (p : Program) : Id → Option Object :=
  Function.update c.object? id (some (.program p))

/-- Nothing has happened, to the context or to the device. -/
def Untouched (d : σ) (c' : Context) (d' : σ) (calls : List Call) : Prop :=
  c.Becomes c.object? c' ∧ d' = d ∧ calls = []

/-- A name has been looked up and its location remembered, unless it was known before. -/
def LooksUpAtMost (id : Id) (p : Program) (kind : VariableKind) (name : String) (d : σ)
    (c' : Context) (d' : σ) (calls : List Call) : Prop :=
  c.Untouched d c' d' calls ∨
  ∃ location : Int, p.cache.locations.lookup name = none ∧ 0 ≤ location ∧
    Device.answer (p.locationRequest kind name) d = (location, d') ∧
    calls = [kind.lookupCall name] ∧
    c.Becomes (c.withProgram id { p with
      cache := { p.cache with locations := (name, location) :: p.cache.locations } }) c'

/-- **What a command leaves behind when it fails**, by the cause: the context, the device and
the calls. -/
def Leaves (command : Command) (d : σ) (c' : Context) (d' : σ) (calls : List Call) :
    Failure → Prop
  | .uniformValue name _ => ∃ id type value p, command = .uniform id name type value ∧
      c.object? id = some (.program p) ∧ c.LooksUpAtMost id p .uniform name d c' d' calls
  | .attributeValue name _ _ => ∃ id type value p, command = .attribute id name type value ∧
      c.object? id = some (.program p) ∧ c.LooksUpAtMost id p .attribute name d c' d' calls
  | .shaderCompile .. | .programLink _ => ∃ id vertex fragment p,
      command = .shaders id vertex fragment ∧ c.object? id = some (.program p) ∧
      c.Becomes (c.withProgram id { p with linked := false }) c' ∧ ∀ call ∈ calls, call.Builds
  | .programValidation _ => ∃ id mode selection p questions,
      command = .draw id mode selection ∧ c.object? id = some (.program p) ∧
      p.cache.validated = false ∧
      c.Becomes (c.withProgram id { p with cache := { p.cache with validated := true } }) c' ∧
      calls = List.replicate questions .getError ++
        ((p.drawOrder d).calls ++ [.validateProgram p.handle])
  | .device checkpoint _ => ∃ id mode selection p, command = .draw id mode selection ∧
      c.object? id = some (.program p) ∧
      ((checkpoint = "before draw" ∧ c.Becomes c.object? c' ∧ ∀ call ∈ calls, call = .getError) ∨
       (checkpoint = "after draw" ∧
        c.Becomes (c.withProgram id { p with cache := { p.cache with validated := true } }) c' ∧
        ∀ e : σ, ((c.execute command).run e).value.1 = .ok () →
          ((c.execute command).run e).value.2 = c'))
  | .programNotLinked | .bufferOverflow .. | .textureNotAllocated | .textureDataSize ..
  | .textureRegion .. | .outOfRange .. | .unknownObject _ | .duplicateObject _
  | .wrongObjectKind .. | .invalidCommand _ => c.Untouched d c' d' calls

section Leaves
variable {c} {command : Command} {d d' : σ} {c' : Context} {calls : List Call}

theorem leaves_of_early {failure : Failure} (hearly : failure.Early)
    (h : c.Untouched d c' d' calls) : c.Leaves command d c' d' calls failure := by
  cases failure <;> first | exact h | cases hearly

theorem becomes_self : c.Becomes c.object? c := ⟨rfl, rfl, rfl, rfl⟩

theorem becomes_put (id : Id) (o : Object) :
    c.Becomes (Function.update c.object? id (some o)) (c.put id o) := by
  refine ⟨object?_put c id o, ?_, ?_, ?_⟩ <;> unfold put <;> split <;> rfl

/-- Putting an object where it is changes nothing that can be seen. -/
theorem becomes_put_self {id : Id} {o : Object} (h : c.object? id = some o) :
    c.Becomes c.object? (c.put id o) := by
  have hput := c.becomes_put id o
  rwa [← h, Function.update_eq_self] at hput

end Leaves
end Context

/-! ## Buffers and textures -/

section Storage
variable {σ : Type} [Device σ] {d : σ} {failure : Failure}

theorem Buffer.run_setData_of_error {b : Buffer} {offset : Nat} {data : Elements}
    (h : ((b.setData offset data).run d).value = .error failure) :
    failure.Early ∧ (b.setData offset data).run d = ⟨.error failure, d, []⟩ := by
  unfold setData at h ⊢
  split at h
  · next hfits =>
    rw [if_pos hfits]
    cases h
    exact ⟨trivial, rfl⟩
  · cases h

theorem early_of_quantity {what : Quantity} {value : Nat}
    (h : quantity what value = .error failure) : failure.Early := by
  unfold quantity at h
  split at h <;> cases h
  trivial

/-- The first failure of two steps is one of either. -/
theorem Outcome.of_bind_error {α γ : Type} {x : Outcome α} {f : α → Outcome γ}
    (h : x >>= f = .error failure) : x = .error failure ∨ ∃ a, f a = .error failure := by
  cases x with
  | error first =>
    cases h
    exact .inl rfl
  | ok a => exact .inr ⟨a, h⟩

theorem Texture.early_of_deviceShape {storage : TextureStorage}
    (h : deviceShape storage = .error failure) : failure.Early := by
  rcases Outcome.of_bind_error h with hwidth | ⟨width, h⟩
  · exact early_of_quantity hwidth
  rcases Outcome.of_bind_error h with hheight | ⟨height, h⟩
  · exact early_of_quantity hheight
  cases h

theorem Texture.early_of_checkBlock {storage : TextureStorage} {offset shape : Extent}
    {data : Elements} (h : checkBlock storage offset shape data = .error failure) :
    failure.Early := by
  unfold checkBlock at h
  dsimp only at h
  split at h
  · cases h
    trivial
  split at h
  · cases h
    trivial
  rcases Outcome.of_bind_error h with hx | ⟨x, h⟩
  · exact early_of_quantity hx
  rcases Outcome.of_bind_error h with hy | ⟨y, h⟩
  · exact early_of_quantity hy
  rcases Outcome.of_bind_error h with hwidth | ⟨width, h⟩
  · exact early_of_quantity hwidth
  rcases Outcome.of_bind_error h with hheight | ⟨height, h⟩
  · exact early_of_quantity hheight
  cases h

theorem Texture.run_setStorage_of_error {t : Texture} {storage : TextureStorage}
    (h : ((t.setStorage storage).run d).value.1 = .error failure) :
    failure.Early ∧ (t.setStorage storage).run d = ⟨(.error failure, t), d, []⟩ := by
  unfold setStorage at h ⊢
  split at h
  · cases h
  next hnew =>
  rw [if_neg hnew]
  split at h
  · next first hshape =>
    cases h
    exact ⟨early_of_deviceShape hshape, rfl⟩
  · cases h

theorem Texture.run_setData_of_error {t : Texture} {offset shape : Extent} {data : Elements}
    (h : ((t.setData offset shape data).run d).value = .error failure) :
    failure.Early ∧ (t.setData offset shape data).run d = ⟨.error failure, d, []⟩ := by
  unfold setData at h ⊢
  split at h
  · cases h
    exact ⟨trivial, rfl⟩
  split at h
  · next first hblock =>
    cases h
    exact ⟨early_of_checkBlock hblock, rfl⟩
  · simp [Script.run_bind] at h

end Storage

/-! ## Programs -/

namespace Program
variable {σ : Type} [Device σ] {p : Program} {d : σ} {failure : Failure}

theorem builds_of_topic {β : Type} (r : Request β) (b : β) (h : r.topic ∈ [Topic.building, .status])
    (c : Call) (hcall : Call.ofAnswer? r b = some c) : c.Builds := by
  cases r <;> first | (cases hcall; trivial) | exact absurd h (by decide) | cases hcall

/-- A program that could not be built is unlinked, and building is all that has been tried. -/
theorem run_setShaders_of_error {vertex fragment : String}
    (h : ((p.setShaders vertex fragment).run d).value.1 = .error failure) :
    Built (.error failure) ∧
      ((p.setShaders vertex fragment).run d).value.2 = { p with linked := false } ∧
      ∀ call ∈ Event.calls ((p.setShaders vertex fragment).run d).events, call.Builds := by
  have hwithin := p.within_buildAlone vertex fragment
  have hbuilt := hwithin.value d
  have hcalls := hwithin.forall_calls builds_of_topic (fun h => absurd h (by decide)) d
  rw [setShaders_eq, Script.run_bind] at h ⊢
  cases houtcome : ((p.buildAlone vertex fragment).run d).value with
  | ok => simp [houtcome, setBuilt, Script.run_bind] at h
  | error first =>
    rw [houtcome] at h hbuilt
    cases h
    refine ⟨hbuilt, rfl, ?_⟩
    simpa [setBuilt] using hcalls

theorem value_settle_of_error {a : Assignment} {location : Int}
    (h : ((p.settle a location).run d).value.1 = .error failure) :
    a.refusal? = some failure ∧ (p.settle a location).run d = ⟨(.error failure, p), d, []⟩ := by
  unfold settle at h ⊢
  cases hrefusal : a.refusal? with
  | none => simp [hrefusal, Script.run_bind] at h
  | some first =>
    simp only [hrefusal] at h
    cases h
    exact ⟨rfl, rfl⟩

theorem run_locationRequest (kind : VariableKind) (name : String) :
    (Script.request (p.locationRequest kind name)).run d =
      ⟨(Device.answer (p.locationRequest kind name) d).1,
        (Device.answer (p.locationRequest kind name) d).2, [.call (kind.lookupCall name)]⟩ := by
  cases kind <;> rfl

/-- An assignment fails because the program is not linked, or because the value is refused once
the location is known. -/
theorem run_assign_of_error {a : Assignment}
    (h : ((p.assign a).run d).value.1 = .error failure) :
    (failure = .programNotLinked ∧ (p.assign a).run d = ⟨(.error failure, p), d, []⟩) ∨
    (a.refusal? = some failure ∧ (p.assign a).run d = ⟨(.error failure, p), d, []⟩) ∨
    (a.refusal? = some failure ∧ ∃ (location : Int) (left : σ),
      p.cache.locations.lookup a.name = none ∧ 0 ≤ location ∧
      Device.answer (p.locationRequest a.kind a.name) d = (location, left) ∧
      (p.assign a).run d = ⟨(.error failure, p.learn a.name location), left,
        [.call (a.kind.lookupCall a.name)]⟩) := by
  cases hlinked : p.linked with
  | false =>
    rw [assign_of_unlinked hlinked] at h ⊢
    cases h
    exact .inl ⟨rfl, rfl⟩
  | true =>
    cases hlookup : p.cache.locations.lookup a.name with
    | some location =>
      rw [assign_of_located hlinked hlookup] at h ⊢
      exact .inr (.inl (value_settle_of_error h))
    | none =>
      by_cases hinvalid : a.name ∈ p.cache.invalid
      · rw [assign_of_invalid hlinked hlookup hinvalid] at h
        cases h
      · rw [assign_of_unknown hlinked ⟨hlookup, hinvalid⟩, Script.run_bind] at h ⊢
        obtain ⟨location, left, hanswer⟩ : ∃ location left,
          Device.answer (p.locationRequest a.kind a.name) d = (location, left) := ⟨_, _, rfl⟩
        have hasked := run_locationRequest (p := p) (d := d) a.kind a.name
        rw [hanswer] at hasked
        rw [hasked] at h ⊢
        by_cases hneg : location < 0
        · simp [hneg, Script.run_bind] at h
        · simp only [if_neg hneg] at h ⊢
          obtain ⟨hrefusal, hrun⟩ := value_settle_of_error h
          refine .inr (.inr ⟨hrefusal, location, left, trivial, Int.not_lt.mp hneg, hanswer, ?_⟩)
          rw [hrun]
          rfl

/-- A draw that was worth drawing and succeeds leaves the program validated. -/
theorem after_of_draw_ok {mode : DrawMode} {selection : Selection} (hlinked : p.linked = true)
    (hcount : selection.count ≠ 0) (h : ((p.draw mode selection).run d).value.1 = .ok ()) :
    ((p.draw mode selection).run d).value.2 = p.checked := by
  have hdrawn := p.drawn mode selection d
  generalize (p.draw mode selection).run d = ran at h hdrawn
  cases hdrawn with
  | unlinked hunlinked => cases hlinked.symm.trans hunlinked
  | empty _ hempty => exact absurd hempty hcount
  | outOfRange | erroneous | invalid => cases h
  | drawn => rfl

end Program

/-! ## Commands -/

namespace Context
variable {σ : Type} [Device σ] {c : Context} {id : Id} {failure : Failure}

theorem early_of_object (h : c.object id = .error failure) : failure.Early := by
  unfold object at h
  split at h <;> cases h
  trivial

theorem early_of_program (h : c.program id = .error failure) : failure.Early := by
  rcases Outcome.of_bind_error h with hobject | ⟨o, h⟩
  · exact early_of_object hobject
  · cases o <;> cases h <;> trivial

theorem early_of_texture (h : c.texture id = .error failure) : failure.Early := by
  rcases Outcome.of_bind_error h with hobject | ⟨o, h⟩
  · exact early_of_object hobject
  · cases o <;> cases h <;> trivial

theorem early_of_source {source : Command.Source} (h : c.source source = .error failure) :
    failure.Early := by
  cases source with
  | constant => cases h
  | buffer id stride offset =>
    rcases Outcome.of_bind_error h with hbuffer | ⟨handle, h⟩
    · rcases Outcome.of_bind_error hbuffer with hobject | ⟨o, h⟩
      · exact early_of_object hobject
      · cases o <;> cases h <;> trivial
    · cases h

theorem early_of_selection {selection : Command.Selection}
    (h : c.selection selection = .error failure) : failure.Early := by
  cases selection with
  | range => cases h
  | elements id type count =>
    rcases Outcome.of_bind_error h with hbuffer | ⟨handle, h⟩
    · rcases Outcome.of_bind_error hbuffer with hobject | ⟨o, h⟩
      · exact early_of_object hobject
      · cases o <;> cases h <;> trivial
    · cases h

omit [Device σ] in
theorem untouched_self (d : σ) : c.Untouched d c d [] := ⟨becomes_self, rfl, rfl⟩

/-- Work on a program either does not begin, or comes to what becomes of the program. -/
theorem run_onProgram (c : Context) (id : Id) (act : Program → Script (Outcome Unit × Program)) :
    (∃ failure : Failure, failure.Early ∧
      ∀ d : σ, (c.onProgram id act).run d = ⟨(.error failure, c), d, []⟩) ∨
    ∃ p, c.object? id = some (.program p) ∧ ∀ d : σ, (c.onProgram id act).run d =
      ⟨(((act p).run d).value.1, c.put id (.program ((act p).run d).value.2)),
        ((act p).run d).device, ((act p).run d).events⟩ := by
  unfold onProgram
  cases hp : c.program id with
  | error failure => exact .inl ⟨failure, early_of_program hp, fun _ => rfl⟩
  | ok p =>
    refine .inr ⟨p, object?_of_program hp, fun d => ?_⟩
    simp [Script.run_bind]

/-- A failed assignment leaves the location of the name at most. -/
theorem leaves_assign {p : Program} {a : Program.Assignment} {d : σ}
    (hp : c.object? id = some (.program p)) (h : ((p.assign a).run d).value.1 = .error failure) :
    (failure = .programNotLinked ∧ c.Untouched d
      (c.put id (.program ((p.assign a).run d).value.2)) ((p.assign a).run d).device
      (Event.calls ((p.assign a).run d).events)) ∨
    (a.refusal? = some failure ∧ c.LooksUpAtMost id p a.kind a.name d
      (c.put id (.program ((p.assign a).run d).value.2)) ((p.assign a).run d).device
      (Event.calls ((p.assign a).run d).events)) := by
  have hsame : c.Untouched d (c.put id (.program p)) d [] := ⟨becomes_put_self hp, rfl, rfl⟩
  rcases Program.run_assign_of_error h with
    ⟨hfailure, hrun⟩ | ⟨hrefusal, hrun⟩ | ⟨hrefusal, location, left, hnew, hpos, hanswer, hrun⟩
  · rw [hrun]
    exact .inl ⟨hfailure, hsame⟩
  · rw [hrun]
    exact .inr ⟨hrefusal, .inl hsame⟩
  · rw [hrun]
    refine .inr ⟨hrefusal, .inr ⟨location, hnew, hpos, hanswer, rfl, ?_⟩⟩
    rw [Program.learn, if_neg (Int.not_lt.mpr hpos)]
    exact becomes_put _ _

variable {command : Command} {d : σ}

theorem leaves_refuse {first : Failure} (hearly : first.Early)
    (h : ((c.refuse first).run d).value.1 = .error failure) :
    c.Leaves command d ((c.refuse first).run d).value.2 ((c.refuse first).run d).device
      (Event.calls ((c.refuse first).run d).events) failure := by
  cases h
  exact leaves_of_early hearly (untouched_self d)

theorem leaves_onProgram {act : Program → Script (Outcome Unit × Program)}
    (h : ∀ p, c.object? id = some (.program p) → ((act p).run d).value.1 = .error failure →
      c.Leaves command d (c.put id (.program ((act p).run d).value.2)) ((act p).run d).device
        (Event.calls ((act p).run d).events) failure)
    (herror : ((c.onProgram id act).run d).value.1 = .error failure) :
    c.Leaves command d ((c.onProgram id act).run d).value.2 ((c.onProgram id act).run d).device
      (Event.calls ((c.onProgram id act).run d).events) failure := by
  rcases run_onProgram (σ := σ) c id act with
    ⟨first, hearly, hrun⟩ | ⟨p, hp, hrun⟩
  · rw [hrun] at herror ⊢
    cases herror
    exact leaves_of_early hearly (untouched_self d)
  · rw [hrun] at herror ⊢
    exact h p hp herror

theorem leaves_create {kind : ObjectKind}
    (h : ((c.create id kind).run d).value.1 = .error failure) :
    c.Leaves command d ((c.create id kind).run d).value.2 ((c.create id kind).run d).device
      (Event.calls ((c.create id kind).run d).events) failure := by
  unfold create at h ⊢
  split at h
  · exact leaves_refuse trivial h
  · simp [Script.run_bind] at h

theorem leaves_delete (h : ((c.delete id).run d).value.1 = .error failure) :
    c.Leaves command d ((c.delete id).run d).value.2 ((c.delete id).run d).device
      (Event.calls ((c.delete id).run d).events) failure := by
  unfold delete at h ⊢
  split at h
  · next hobject => exact leaves_refuse (early_of_object hobject) h
  · simp [Script.run_bind] at h

theorem leaves_setSize {storage : Command.Storage}
    (h : ((c.setSize id storage).run d).value.1 = .error failure) :
    c.Leaves command d ((c.setSize id storage).run d).value.2
      ((c.setSize id storage).run d).device
      (Event.calls ((c.setSize id storage).run d).events) failure := by
  unfold setSize at h ⊢
  split at h
  · next hobject => exact leaves_refuse (early_of_object hobject) h
  next o ho =>
  split at h
  · simp [Script.run_bind] at h
  · simp [Script.run_bind] at h
  · next t height width format =>
    simp only [Dialogue.bind_eq, Script.run_bind] at h ⊢
    obtain ⟨hearly, hrun⟩ := Texture.run_setStorage_of_error h
    rw [hrun]
    refine leaves_of_early hearly ⟨?_, rfl, rfl⟩
    exact becomes_put_self (object?_of_object ho)
  · exact leaves_refuse trivial h

theorem leaves_setBufferData {b : Buffer} {offset : Command.Offset} {data : Elements}
    (h : ((c.setBufferData id b offset data).run d).value.1 = .error failure) :
    c.Leaves command d ((c.setBufferData id b offset data).run d).value.2
      ((c.setBufferData id b offset data).run d).device
      (Event.calls ((c.setBufferData id b offset data).run d).events) failure := by
  unfold setBufferData at h ⊢
  split at h
  · exact leaves_refuse trivial h
  · simp only [Dialogue.bind_eq, Script.run_bind] at h ⊢
    obtain ⟨hearly, hrun⟩ := Buffer.run_setData_of_error h
    rw [hrun]
    exact leaves_of_early hearly (untouched_self d)

theorem leaves_setTextureData {t : Texture} {offset : Command.Offset}
    {shape : Option (Command.Count × Command.Count)} {data : Elements}
    (h : ((c.setTextureData id t offset shape data).run d).value.1 = .error failure) :
    c.Leaves command d ((c.setTextureData id t offset shape data).run d).value.2
      ((c.setTextureData id t offset shape data).run d).device
      (Event.calls ((c.setTextureData id t offset shape data).run d).events) failure := by
  unfold setTextureData at h ⊢
  split at h
  · exact leaves_refuse trivial h
  split at h
  · exact leaves_refuse trivial h
  · simp only [Dialogue.bind_eq, Script.run_bind] at h ⊢
    obtain ⟨hearly, hrun⟩ := Texture.run_setData_of_error h
    rw [hrun]
    exact leaves_of_early hearly (untouched_self d)

theorem leaves_setData {offset : Command.Offset}
    {shape : Option (Command.Count × Command.Count)} {data : Elements}
    (h : ((c.setData id offset shape data).run d).value.1 = .error failure) :
    c.Leaves command d ((c.setData id offset shape data).run d).value.2
      ((c.setData id offset shape data).run d).device
      (Event.calls ((c.setData id offset shape data).run d).events) failure := by
  unfold setData at h ⊢
  split at h
  · next hobject => exact leaves_refuse (early_of_object hobject) h
  · exact leaves_setBufferData h
  · exact leaves_setBufferData h
  · exact leaves_setTextureData h
  · exact leaves_refuse trivial h

theorem leaves_shaders {vertex fragment : String}
    (h : ((c.onProgram id (·.setShaders vertex fragment)).run d).value.1 = .error failure) :
    c.Leaves (.shaders id vertex fragment) d
      ((c.onProgram id (·.setShaders vertex fragment)).run d).value.2
      ((c.onProgram id (·.setShaders vertex fragment)).run d).device
      (Event.calls ((c.onProgram id (·.setShaders vertex fragment)).run d).events) failure := by
  refine leaves_onProgram (fun p hp herror => ?_) h
  obtain ⟨hbuilt, hafter, hcalls⟩ := Program.run_setShaders_of_error herror
  have hbecomes := becomes_put (c := c) id (.program ((p.setShaders vertex fragment).run d).value.2)
  rw [hafter] at hbecomes ⊢
  cases failure with
  | shaderCompile | programLink => exact ⟨id, vertex, fragment, p, rfl, hp, hbecomes, hcalls⟩
  | _ => cases hbuilt

/-- An assignment leaves what its refused value leaves, or nothing. -/
theorem leaves_assignment (a : Program.Assignment)
    (hrefused : a.refusal? = some failure → ∀ p c' d' calls, c.object? id = some (.program p) →
      c.LooksUpAtMost id p a.kind a.name d c' d' calls → c.Leaves command d c' d' calls failure)
    (h : ((c.onProgram id fun p => a.perform p).run d).value.1 = .error failure) :
    c.Leaves command d ((c.onProgram id fun p => a.perform p).run d).value.2
      ((c.onProgram id fun p => a.perform p).run d).device
      (Event.calls ((c.onProgram id fun p => a.perform p).run d).events) failure := by
  refine leaves_onProgram (fun p hp herror => ?_) h
  simp only [Program.perform_eq_assign] at herror ⊢
  rcases leaves_assign hp herror with ⟨rfl, huntouched⟩ | ⟨hrefusal, hlooks⟩
  · exact huntouched
  · exact hrefused hrefusal p _ _ _ hp hlooks

theorem leaves_attribute {name : String} {type : AttributeType} {value : Command.Source}
    {source : AttributeSource}
    (h : ((c.onProgram id (·.setAttribute name type source)).run d).value.1 = .error failure) :
    c.Leaves (.attribute id name type value) d
      ((c.onProgram id (·.setAttribute name type source)).run d).value.2
      ((c.onProgram id (·.setAttribute name type source)).run d).device
      (Event.calls ((c.onProgram id (·.setAttribute name type source)).run d).events) failure := by
  refine leaves_assignment (.attribute name type source) ?_ h
  intro hrefusal p c' d' calls hp hlooks
  simp only [Program.Assignment.refusal?, Program.sourceFailure?] at hrefusal
  split at hrefusal
  · split at hrefusal <;> cases hrefusal
    exact ⟨id, type, value, p, rfl, hp, hlooks⟩
  · cases hrefusal

theorem leaves_uniform {name : String} {type : UniformType} {value : List Single}
    (h : ((c.onProgram id (·.setUniform name type (.floats value))).run d).value.1 =
      .error failure) :
    c.Leaves (.uniform id name type value) d
      ((c.onProgram id (·.setUniform name type (.floats value))).run d).value.2
      ((c.onProgram id (·.setUniform name type (.floats value))).run d).device
      (Event.calls ((c.onProgram id (·.setUniform name type (.floats value))).run d).events)
      failure := by
  refine leaves_assignment (.uniform name type (.floats value)) ?_ h
  intro hrefusal p c' d' calls hp hlooks
  obtain ⟨refusal, -, rfl⟩ := Option.map_eq_some_iff.mp hrefusal
  exact ⟨id, type, value, p, rfl, hp, hlooks⟩

theorem leaves_texture {name : String} {target : Nat} {texture : Handle}
    (h : ((c.onProgram id (·.bindSampler name target texture)).run d).value.1 =
      .error failure) :
    c.Leaves command d ((c.onProgram id (·.bindSampler name target texture)).run d).value.2
      ((c.onProgram id (·.bindSampler name target texture)).run d).device
      (Event.calls ((c.onProgram id (·.bindSampler name target texture)).run d).events)
      failure := by
  refine leaves_assignment (.sampler name target texture) ?_ h
  intro hrefusal
  cases hrefusal

theorem leaves_onTexture {act : Texture → Script Unit}
    (h : ((c.onTexture id act).run d).value.1 = .error failure) :
    c.Leaves command d ((c.onTexture id act).run d).value.2 ((c.onTexture id act).run d).device
      (Event.calls ((c.onTexture id act).run d).events) failure := by
  unfold onTexture at h ⊢
  split at h
  · next htexture => exact leaves_refuse (early_of_texture htexture) h
  · simp [Script.run_bind] at h

/-- Where a draw of a program leads, whatever the device. -/
theorem value_execute_draw {mode : DrawMode} {selection : Command.Selection}
    {found : Selection} {p : Program} (hselection : c.selection selection = .ok found)
    (hp : c.program id = .ok p) (e : σ) :
    ((c.execute (.draw id mode selection)).run e).value =
      (((p.draw mode found).run e).value.1,
        c.put id (.program ((p.draw mode found).run e).value.2)) := by
  simp [execute, carryOut, hselection, onProgram, hp, Script.run_bind]

theorem leaves_draw {mode : DrawMode} {selection : Command.Selection} {found : Selection}
    (hselection : c.selection selection = .ok found)
    (h : ((c.onProgram id (·.draw mode found)).run d).value.1 = .error failure) :
    c.Leaves (.draw id mode selection) d ((c.onProgram id (·.draw mode found)).run d).value.2
      ((c.onProgram id (·.draw mode found)).run d).device
      (Event.calls ((c.onProgram id (·.draw mode found)).run d).events) failure := by
  refine leaves_onProgram (fun p hp herror => ?_) h
  have hdrawn := p.drawn mode found d
  generalize (p.draw mode found).run d = ran at herror hdrawn ⊢
  cases hdrawn with
  | unlinked | outOfRange =>
    cases herror
    exact ⟨becomes_put_self hp, rfl, rfl⟩
  | empty => cases herror
  | erroneous =>
    cases herror
    refine ⟨id, mode, selection, p, rfl, hp, .inl ⟨rfl, becomes_put_self hp, ?_⟩⟩
    intro call hcall
    rw [Event.calls_questions] at hcall
    exact List.eq_of_mem_replicate hcall
  | invalid hlinked hcount hrange hcodes hnew hvalid log left =>
    cases herror
    refine ⟨id, mode, selection, p, (Device.drain d).questions, rfl, hp, hnew, becomes_put _ _, ?_⟩
    simp only [Event.calls_append, Event.calls_questions, Event.calls_map_call,
      Program.calls_validationEvents]
  | drawn hlinked hcount hrange hcodes hvalid after =>
    dsimp only at herror
    split at herror <;> cases herror
    refine ⟨id, mode, selection, p, rfl, hp, .inr ⟨rfl, becomes_put _ _, fun e hok => ?_⟩⟩
    rw [value_execute_draw hselection (program_of_object? hp)] at hok ⊢
    rw [Program.after_of_draw_ok hlinked hcount hok]

/-- **A command that fails leaves what its failure says**: nothing has happened to the context
or the device, but for a location that has been looked up, a program that is no longer linked or
has been validated, shaders that have come and gone, and errors that have been asked for. -/
theorem leaves_of_error (c : Context) (command : Command) (d : σ) (failure : Failure)
    (herror : ((c.execute command).run d).value.1 = .error failure) :
    c.Leaves command d ((c.execute command).run d).value.2 ((c.execute command).run d).device
      (Event.calls ((c.execute command).run d).events) failure := by
  rw [run_execute] at herror ⊢
  cases command with
  | create id kind => exact leaves_create herror
  | delete id => exact leaves_delete herror
  | shaders id vertex fragment => exact leaves_shaders herror
  | size id storage => exact leaves_setSize herror
  | data id offset shape elements => exact leaves_setData herror
  | «attribute» id name type value =>
    dsimp only [carryOut] at herror ⊢
    split at herror
    · next hsource => exact leaves_refuse (early_of_source hsource) herror
    · exact leaves_attribute herror
  | uniform id name type value => exact leaves_uniform herror
  | texture id name image =>
    dsimp only [carryOut] at herror ⊢
    split at herror
    · next htexture => exact leaves_refuse (early_of_texture htexture) herror
    · exact leaves_texture herror
  | interpolation id min mag => exact leaves_onTexture herror
  | wrapping id wrap => exact leaves_onTexture herror
  | draw id mode selection =>
    dsimp only [carryOut] at herror ⊢
    split at herror
    · next hselection => exact leaves_refuse (early_of_selection hselection) herror
    · next found hselection => exact leaves_draw hselection herror

/-- A context with a linked program under the number 7. -/
def withSeven : Context :=
  { objects := [(⟨7, by decide, by decide⟩, .program { handle := 1, linked := true })] }

/-- Draws three points with that program. -/
def drawSeven : Command :=
  .draw ⟨7, by decide, by decide⟩ .points
    (.range ⟨0, by decide, by decide⟩ ⟨3, by decide, by decide⟩)

/-- A recorder that finds fault with every program. -/
def faultFinder : Recorder := { lastHandle := 1, failValidation := true }

theorem leaves_faulty_draw :
    ((withSeven.execute drawSeven).run faultFinder).value.1 =
      .error (.programValidation "error: sampler units conflict") ∧
    withSeven.Leaves drawSeven faultFinder ((withSeven.execute drawSeven).run faultFinder).value.2
      ((withSeven.execute drawSeven).run faultFinder).device
      (Event.calls ((withSeven.execute drawSeven).run faultFinder).events)
      (.programValidation "error: sampler units conflict") := by
  have herror : ((withSeven.execute drawSeven).run faultFinder).value.1 =
      .error (.programValidation "error: sampler units conflict") := by decide +kernel
  exact ⟨herror, leaves_of_error withSeven drawSeven faultFinder _ herror⟩

end Context
end DrawStream
