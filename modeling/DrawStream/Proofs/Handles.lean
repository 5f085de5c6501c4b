import Mathlib.Data.List.Nodup
import Mathlib.Data.List.Range
import DrawStream.Device.Recorder
import DrawStream.Object
import DrawStream.Proofs.Concerns

/-! # Handles given out and given back

What happens to handles can be read off the calls of a run: which were given out and for
what, which were given back as what, and which shaders were attached and detached
(`Event.handlings`).  A recorder numbers what it gives out one after the other, so that no
handle is given out twice (`Recorder.numbered_run`).

Only creating, deleting and linking have to do with handles.  A link, whether or not it
succeeds, gives back the two shaders that it is given, and detaches what it attaches
(`Program.tidy_setShaders`). -/
namespace DrawStream

/-- What a device gives out handles for. -/
inductive Resource
  | program | buffer | texture | shader
  deriving DecidableEq, Repr

/-- A handle, with what it stands for. -/
abbrev Item := Resource × Handle

/-- What a call has to do with handles. -/
inductive Handling
  | created (item : Item)
  | deleted (item : Item)
  | attached (program shader : Handle)
  | detached (program shader : Handle)
  deriving DecidableEq

/-- What a call has to do with handles, if anything. -/
def Call.handling? : Call → Option Handling
  | .createProgram h => some (.created (.program, h))
  | .createBuffer h => some (.created (.buffer, h))
  | .createTexture h => some (.created (.texture, h))
  | .createShader _ h => some (.created (.shader, h))
  | .deleteProgram h => some (.deleted (.program, h))
  | .deleteBuffer h => some (.deleted (.buffer, h))
  | .deleteTexture h => some (.deleted (.texture, h))
  | .deleteShader h => some (.deleted (.shader, h))
  | .attachShader program shader => some (.attached program shader)
  | .detachShader program shader => some (.detached program shader)
  | _ => none

/-- What has been done with handles, in order. -/
def Event.handlings (events : List Event) : List Handling :=
  (Event.calls events).filterMap Call.handling?

@[simp] theorem Event.handlings_append (xs ys : List Event) :
    Event.handlings (xs ++ ys) = Event.handlings xs ++ Event.handlings ys := by
  simp [handlings]

namespace Handling

/-- What is given out. -/
def created? : Handling → Option Item
  | created item => some item
  | deleted _ | attached .. | detached .. => none

/-- What is given back. -/
def deleted? : Handling → Option Item
  | deleted item => some item
  | created _ | attached .. | detached .. => none

/-- All that is given out, in order. -/
def given (hs : List Handling) : List Item := hs.filterMap created?

/-- All that is given back, in order. -/
def returned (hs : List Handling) : List Item := hs.filterMap deleted?

section Lists
variable (hs hs' : List Handling)

@[simp] theorem given_append : given (hs ++ hs') = given hs ++ given hs' :=
  List.filterMap_append

@[simp] theorem returned_append : returned (hs ++ hs') = returned hs ++ returned hs' :=
  List.filterMap_append

variable {hs}

theorem mem_given {item : Item} : item ∈ given hs ↔ .created item ∈ hs := by
  rw [given, List.mem_filterMap]
  constructor
  · rintro ⟨handling, hmem, heq⟩
    cases handling <;> cases heq
    exact hmem
  · exact fun hmem => ⟨_, hmem, rfl⟩

theorem count_returned {item : Item} : (returned hs).count item = hs.count (.deleted item) := by
  induction hs with
  | nil => rfl
  | cons handling rest ih =>
    cases handling with
    | deleted item' =>
      have hcons : returned (deleted item' :: rest) = item' :: returned rest := rfl
      rw [hcons, List.count_cons, List.count_cons, ih]
      congr 1
      by_cases heq : item' = item <;> simp [heq]
    | created | attached | detached =>
      rw [List.count_cons_of_ne (by simp)]
      exact ih

theorem mem_returned {item : Item} : item ∈ returned hs ↔ .deleted item ∈ hs := by
  rw [← List.count_pos_iff, count_returned, List.count_pos_iff]

end Lists

/-- Handles are given out one after the other, after `last` and up to `last'`. -/
structure Numbered (last : Handle) (hs : List Handling) (last' : Handle) : Prop where
  handles : (given hs).map Prod.snd = List.range' (last + 1) (given hs).length
  last : last' = last + (given hs).length

theorem Numbered.nil (last : Handle) : Numbered last [] last := ⟨rfl, rfl⟩

theorem Numbered.append {last last' last'' : Handle} {hs hs' : List Handling}
    (h : Numbered last hs last') (h' : Numbered last' hs' last'') :
    Numbered last (hs ++ hs') last'' := by
  refine ⟨?_, ?_⟩
  · rw [given_append, List.map_append, h.handles, h'.handles, h.last, List.length_append,
      ← List.range'_append_1, Nat.add_right_comm]
  · rw [h'.last, h.last, given_append, List.length_append, Nat.add_assoc]

theorem Numbered.nodup {last last' : Handle} {hs : List Handling} (h : Numbered last hs last') :
    ((given hs).map Prod.snd).Nodup := by
  rw [h.handles]
  exact List.nodup_range'

/-- Nothing is left over: what is given out is given back, and what is attached is detached. -/
structure Tidy (hs : List Handling) : Prop where
  shaders : ∀ item ∈ given hs, item.1 = .shader
  returned : returned hs = given hs
  detached : ∀ program shader,
    hs.count (.attached program shader) = hs.count (.detached program shader)

theorem Tidy.nil : Tidy [] := by
  refine ⟨fun item hitem => ?_, rfl, fun _ _ => rfl⟩
  cases hitem

end Handling
open Handling

/-! ## Runs -/

namespace Script
variable {α γ : Type} {σ : Type} [Device σ] (d : σ)

/-- What a request has to do with handles. -/
def handling? {β : Type} (r : Request β) (b : β) : Option Handling :=
  (Call.ofAnswer? r b).bind Call.handling?

theorem handlings_run (x : Script α) : Event.handlings (x.run d).events = x.gather handling? d :=
  filterMap_calls_run d Call.handling? rfl x

theorem handlings_request {β : Type} (r : Request β) :
    Event.handlings ((request r).run d).events = (handling? r (Device.answer r d).1).toList := by
  rw [handlings_run, gather_request]

theorem handlings_bind (x : Script α) (f : α → Script γ) :
    Event.handlings (run (Dialogue.bind x f) d).events =
      Event.handlings (x.run d).events ++
        Event.handlings ((f (x.run d).value).run (x.run d).device).events := by
  rw [run_bind, Event.handlings_append]

theorem handling?_eq_none {β : Type} {r : Request β} (b : β) (hcreation : r.topic ≠ .creation)
    (hdeletion : r.topic ≠ .deletion) (hbuilding : r.topic ≠ .building) : handling? r b = none := by
  cases r <;> first
    | rfl
    | exact absurd rfl hcreation
    | exact absurd rfl hdeletion
    | exact absurd rfl hbuilding

variable {d} in
/-- What has to do with other things leaves handles alone. -/
theorem Within.handlings_eq_nil {topics : List Topic} {post : α → Prop} {x : Script α}
    (h : x.Within topics post) (hcreation : .creation ∉ topics) (hdeletion : .deletion ∉ topics)
    (hbuilding : .building ∉ topics) : Event.handlings (x.run d).events = [] := by
  rw [handlings_run]
  refine h.gather_eq_nil d fun r b htopic => handling?_eq_none b ?_ ?_ ?_
  · exact fun heq => hcreation (heq ▸ htopic)
  · exact fun heq => hdeletion (heq ▸ htopic)
  · exact fun heq => hbuilding (heq ▸ htopic)

end Script

/-! ## The numbers of a recorder -/

namespace Recorder

theorem lastHandle_find (r : Recorder) (declared : List Variable) (name : String) :
    (r.find declared name).2.lastHandle = r.lastHandle := by
  unfold find
  simp only
  split
  · rfl
  · cases r.assigned.lookup name <;> rfl

theorem lastHandle_takeError (r : Recorder) : r.takeError.2.lastHandle = r.lastHandle := by
  unfold takeError
  split <;> rfl

theorem numbered_request {β : Type} (q : Request β) (r : Recorder) :
    Numbered r.lastHandle (Script.handling? q (Device.answer q r).1).toList
      (Device.answer q r).2.lastHandle := by
  cases q with
  | uniformLocation program name => exact ⟨rfl, r.lastHandle_find _ name⟩
  | attributeLocation program name => exact ⟨rfl, r.lastHandle_find _ name⟩
  | drawArrays | drawElements =>
    refine ⟨rfl, ?_⟩
    change r.raise.lastHandle = r.lastHandle
    unfold raise
    split <;> rfl
  | takeError => exact ⟨rfl, r.lastHandle_takeError⟩
  | _ => exact ⟨rfl, rfl⟩

/-- **A recorder numbers what it gives out one after the other.** -/
theorem numbered_run {α : Type} (x : Script α) (r : Recorder) :
    Numbered r.lastHandle (Event.handlings (x.run r).events) (x.run r).device.lastHandle := by
  rw [Script.handlings_run]
  induction x generalizing r with
  | done a => exact .nil _
  | ask act next ih =>
    refine Numbered.append ?_ (ih _ _)
    cases act with
    | request q => exact numbered_request q r
    | drain =>
      have hkept : ∀ s : Recorder, s.lastHandle = r.lastHandle →
          s.takeError.2.lastHandle = r.lastHandle := fun s hs => s.lastHandle_takeError.trans hs
      exact ⟨rfl, Device.keeps_drainFrom hkept _ none rfl⟩
    | arrange | note n => exact .nil _

end Recorder

/-! ## Objects -/

/-- What a device gives out for an object of a kind. -/
def ObjectKind.resource : ObjectKind → Resource
  | .vertexBuffer | .indexBuffer => .buffer
  | .texture => .texture
  | .program => .program

/-- The handle of an object, with what it stands for. -/
def Object.item (o : Object) : Item := (o.kind.resource, o.handle)

section Object
variable {σ : Type} [Device σ] (d : σ)

/-- A new object has the kind that was wanted, and the handle that was given out for it. -/
theorem Object.create_gives (usage : BufferUsage) (kind : ObjectKind) :
    ((Object.create usage kind).run d).value.kind = kind ∧
      Event.handlings ((Object.create usage kind).run d).events =
        [.created ((Object.create usage kind).run d).value.item] := by
  cases kind <;> exact ⟨rfl, rfl⟩

theorem Object.delete_returns (o : Object) :
    Event.handlings (o.delete.run d).events = [.deleted o.item] := by
  cases o <;> rfl

end Object

/-! ## Linking -/

namespace Program
variable {σ : Type} [Device σ] (p : Program) (d : σ)

/-- Compiling a shader only uses it. -/
theorem handlings_compile (stage : Stage) (shader : Handle) (source : String) :
    Event.handlings ((compile stage shader source).run d).events = [] := by
  have hrest : ∀ (compiled : Bool) (d : σ), Event.handlings ((Script.run
      (if compiled then (.done (.ok ()) : Script (Outcome Unit))
      else Dialogue.bind (Script.request (.shaderLog shader)) fun log =>
        .done (.error (.shaderCompile stage log))) d).events) = [] := by
    intro compiled d
    cases compiled <;> rfl
  simp only [compile, Dialogue.bind_eq, Script.handlings_bind, Script.handlings_request]
  exact hrest _ _

theorem handlings_linkShaders (vertex fragment : Handle) :
    Event.handlings ((p.linkShaders vertex fragment).run d).events =
      [.attached p.handle vertex, .attached p.handle fragment,
        .detached p.handle vertex, .detached p.handle fragment] := by
  have hfault : ∀ d : σ, Event.handlings (p.linkFault.run d).events = [] := fun d =>
    p.within_linkFault.handlings_eq_nil (by decide) (by decide) (by decide)
  simp only [linkShaders, Dialogue.bind_eq, Script.handlings_bind, Script.handlings_request,
    hfault]
  generalize p.linkFault.run (σ := σ) _ = ran
  cases ran.value <;> rfl

/-- Either nothing is attached, or both shaders are, and are detached again. -/
theorem handlings_build (vertex fragment : Handle) (vertexSource fragmentSource : String) :
    Event.handlings ((p.build vertex fragment vertexSource fragmentSource).run d).events = [] ∨
    Event.handlings ((p.build vertex fragment vertexSource fragmentSource).run d).events =
      [.attached p.handle vertex, .attached p.handle fragment,
        .detached p.handle vertex, .detached p.handle fragment] := by
  simp only [build, Dialogue.bind_eq, Script.handlings_bind, handlings_compile, List.nil_append]
  cases ((compile .vertex vertex vertexSource).run d).value with
  | error failure => exact .inl rfl
  | ok =>
    simp only [Script.handlings_bind, handlings_compile, List.nil_append]
    generalize (compile .fragment fragment fragmentSource).run (σ := σ) _ = ran
    cases ran.value with
    | error failure => exact .inl rfl
    | ok => exact .inr (p.handlings_linkShaders _ vertex fragment)

theorem handlings_createShader_bind {α : Type} (stage : Stage) (next : Handle → Script α) :
    ∃ (shader : Handle) (d' : σ), Event.handlings
      (Script.run (Dialogue.bind (Script.request (.createShader stage)) next) d).events =
        .created (.shader, shader) :: Event.handlings ((next shader).run d').events := by
  rw [Script.handlings_bind, Script.handlings_request]
  exact ⟨_, _, rfl⟩

theorem handlings_setShaders (vertex fragment : String) :
    ∃ (v f : Handle) (attachments : List Handling), (attachments = [] ∨ attachments =
        [.attached p.handle v, .attached p.handle f, .detached p.handle v, .detached p.handle f]) ∧
      Event.handlings ((p.setShaders vertex fragment).run d).events =
        [created (.shader, v), created (.shader, f)] ++ attachments ++
          [deleted (.shader, v), deleted (.shader, f)] := by
  have hbuilt : ∀ (built : Outcome Unit) (d : σ),
      Event.handlings ((p.setBuilt built).run d).events = [] := fun built d =>
    (p.within_setBuilt built).handlings_eq_nil (by decide) (by decide) (by decide)
  rw [setShaders_eq, Script.handlings_bind, hbuilt, List.append_nil]
  unfold buildAlone
  obtain ⟨v, d₁, hvertex⟩ := handlings_createShader_bind d .vertex _
  rw [Dialogue.bind_eq, hvertex]
  obtain ⟨f, d₂, hfragment⟩ := handlings_createShader_bind d₁ .fragment _
  rw [Dialogue.bind_eq, hfragment, Dialogue.bind_eq, Script.handlings_bind]
  have hdeleted : ∀ (built : Outcome Unit) (d : σ), Event.handlings (Script.run (do
      Script.request (.deleteShader v)
      Script.request (.deleteShader f)
      return built) d).events = [.deleted (.shader, v), .deleted (.shader, f)] := fun _ _ => rfl
  rw [hdeleted]
  exact ⟨v, f, _, p.handlings_build d₂ v f vertex fragment, rfl⟩

/-- **A link returns its shaders and detaches what it attaches**, whether or not it succeeds. -/
theorem tidy_setShaders (vertex fragment : String) :
    Tidy (Event.handlings ((p.setShaders vertex fragment).run d).events) := by
  obtain ⟨v, f, attachments, hattachments, hhandlings⟩ := p.handlings_setShaders d vertex fragment
  have hgiven : given attachments = [] := by rcases hattachments with rfl | rfl <;> rfl
  have hreturned : returned attachments = [] := by rcases hattachments with rfl | rfl <;> rfl
  have hshaders : given (Event.handlings ((p.setShaders vertex fragment).run d).events) =
      [(.shader, v), (.shader, f)] := by
    rw [hhandlings, given_append, given_append, hgiven]
    rfl
  refine ⟨?_, ?_, ?_⟩
  · rw [hshaders]
    simp
  · rw [hshaders, hhandlings, returned_append, returned_append, hreturned]
    rfl
  · intro program shader
    rw [hhandlings]
    rcases hattachments with rfl | rfl
    · rfl
    · simp [List.count_cons]

end Program
end DrawStream
