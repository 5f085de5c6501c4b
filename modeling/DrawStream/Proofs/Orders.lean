import DrawStream.Program.Draw
import DrawStream.Proofs.Topics

/-! # Orders of bindings

The samplers and attributes of a program are kept in tables, so a draw may bind them in any order.
A `Program.BindingOrder` is such an order: all of them, each as often as it is kept.  A device
settles one for every draw (`Program.bindingOrder`), and the calls that bind everything are those
of this order (`Program.events_bindAll`).

What two runs tell may then differ in the orders of their draws and in nothing else.  Lists that
do are equal bar order (`BarOrder`), and what goes for the parts of a run goes for the whole of
it (`BarOrder.append`). -/
namespace DrawStream

/-- The calls that bind the texture of a sampler. -/
def Sampler.calls (s : Sampler) : List Call :=
  [.activeTexture s.unit, .bindTexture s.target s.texture]

/-- The calls that connect the location of an attribute with its source. -/
def Attribute.calls (a : Attribute) : List Call :=
  match a.source with
  | .buffer handle stride offset =>
    [.bindBuffer BufferTarget.array.number handle, .enableAttribute a.location,
      .attributePointer a.location a.type.components a.type.number stride offset]
  | .constant values =>
    [.bindBuffer BufferTarget.array.number 0, .disableAttribute a.location,
      .attributeValue a.location values]

/-- The call makes something current, active, bound or connected. -/
def Call.Binds : Call → Prop
  | useProgram _ | activeTexture _ | bindTexture .. | bindBuffer .. | enableAttribute _
  | disableAttribute _ | attributePointer .. | attributeValue .. => True
  | _ => False

@[simp] theorem Event.calls_map_call (calls : List Call) :
    Event.calls (calls.map .call) = calls := by
  rw [Event.calls, List.filterMap_map]
  exact List.filterMap_some

@[simp] theorem Event.notes_map_call (calls : List Call) : Event.notes (calls.map .call) = [] := by
  simp [Event.notes, List.filterMap_map]

namespace Program

/-- An order in which all that is recorded for a program is bound. -/
@[ext] structure BindingOrder (p : Program) where
  samplers : List Sampler
  attributes : List Attribute
  samplers_perm : samplers.Perm p.cache.samplers
  attributes_perm : attributes.Perm p.cache.attributes

/-- The calls that make the program current and bind all that is recorded in an order. -/
def BindingOrder.calls {p : Program} (order : p.BindingOrder) : List Call :=
  .useProgram p.handle ::
    (order.samplers.flatMap Sampler.calls ++ order.attributes.flatMap Attribute.calls)

/-- Nothing but bindings is done by the calls. -/
theorem BindingOrder.binds {p : Program} (order : p.BindingOrder) {call : Call}
    (h : call ∈ order.calls) : call.Binds := by
  rcases List.mem_cons.mp h with rfl | h
  · trivial
  rcases List.mem_append.mp h with h | h
  · obtain ⟨s, -, h⟩ := List.mem_flatMap.mp h
    simp only [Sampler.calls, List.mem_cons, List.not_mem_nil, or_false] at h
    rcases h with rfl | rfl <;> trivial
  · obtain ⟨a, -, h⟩ := List.mem_flatMap.mp h
    unfold Attribute.calls at h
    split at h <;> simp only [List.mem_cons, List.not_mem_nil, or_false] at h <;>
      rcases h with rfl | rfl | rfl <;> trivial

/-! ## The order that a device settles -/

section Device
variable {σ : Type} [Device σ] (p : Program) (d : σ)

/-- The program is current, and the order of its samplers settled. -/
def arrangedSamplers : Ran σ (List Sampler) :=
  (Script.arranged p.cache.samplers).run (p.activate.run d).device

/-- The samplers are bound, and the order of the attributes settled. -/
def arrangedAttributes : Ran σ (List Attribute) :=
  (Script.arranged p.cache.attributes).run
    ((inOrder Sampler.bind (p.arrangedSamplers d).value).run (p.arrangedSamplers d).device).device

/-- The order in which a device has everything bound. -/
def bindingOrder : p.BindingOrder where
  samplers := (p.arrangedSamplers d).value
  attributes := (p.arrangedAttributes d).value
  samplers_perm := Arrangement.apply_perm _ _
  attributes_perm := Arrangement.apply_perm _ _

theorem events_inOrder {α : Type} {act : α → Script Unit} {calls : α → List Call}
    (hact : ∀ a (d : σ), ((act a).run d).events = (calls a).map .call) (items : List α) (d : σ) :
    ((inOrder act items).run d).events = (items.flatMap calls).map .call := by
  induction items generalizing d with
  | nil => rfl
  | cons a rest ih =>
    simp only [inOrder, Dialogue.bind_eq, Script.run_bind, hact, ih, List.flatMap_cons,
      List.map_append]

theorem events_bind_sampler (s : Sampler) (d : σ) : (s.bind.run d).events = s.calls.map .call :=
  rfl

theorem events_bind_attribute (a : Attribute) (d : σ) :
    (a.bind.run d).events = a.calls.map .call := by
  unfold Attribute.bind Attribute.calls
  cases a.source <;> rfl

theorem events_arranged {α : Type} (entries : List α) (d : σ) :
    ((Script.arranged entries).run d).events = [] := rfl

/-- What is recorded is bound by the calls for it, in the order that the device settles. -/
theorem events_bindAll : (p.bindAll.run d).events = (p.bindingOrder d).calls.map .call := by
  simp only [bindAll, Dialogue.bind_eq, Script.run_bind, events_inOrder events_bind_sampler,
    events_inOrder events_bind_attribute, events_arranged, List.nil_append,
    BindingOrder.calls, List.map_cons, List.map_append]
  rfl

end Device

end Program

/-! ## Equality bar the order of bindings -/

/-- Lists that tell of the same, but of the bindings of a draw in another order. -/
inductive BarOrder {β : Type} (told : Call → β) : List β → List β → Prop
  | nil : BarOrder told [] []
  | cons (b : β) {bs bs' : List β} (h : BarOrder told bs bs') : BarOrder told (b :: bs) (b :: bs')
  /-- All that is recorded for a program is bound in two orders. -/
  | bindings {p : Program} (order order' : p.BindingOrder) {bs bs' : List β}
      (h : BarOrder told bs bs') :
      BarOrder told (order.calls.map told ++ bs) (order'.calls.map told ++ bs')

namespace BarOrder
variable {β : Type} {told : Call → β} {bs bs' cs cs' : List β}

@[refl] theorem refl (bs : List β) : BarOrder told bs bs := by
  induction bs with
  | nil => exact .nil
  | cons b bs ih => exact .cons b ih

theorem append (h : BarOrder told bs bs') (h' : BarOrder told cs cs') :
    BarOrder told (bs ++ cs) (bs' ++ cs') := by
  induction h with
  | nil => exact h'
  | cons b _ ih => exact .cons b ih
  | bindings order order' _ ih =>
    rw [List.append_assoc, List.append_assoc]
    exact .bindings order order' ih

/-- The bindings of a draw by themselves. -/
theorem of_bindings {p : Program} (order order' : p.BindingOrder) :
    BarOrder told (order.calls.map told) (order'.calls.map told) := by
  have h : BarOrder told (order.calls.map told ++ []) (order'.calls.map told ++ []) :=
    .bindings order order' .nil
  simpa using h

/-- What is told of lists that are equal bar order is equal bar order. -/
theorem map {γ : Type} (h : BarOrder told bs bs') (f : β → γ) :
    BarOrder (fun c => f (told c)) (bs.map f) (bs'.map f) := by
  induction h with
  | nil => exact .nil
  | cons b _ ih => exact .cons (f b) ih
  | bindings order order' _ ih =>
    simp only [List.map_append, List.map_map]
    exact .bindings order order' ih

/-- The calls among events that are equal bar order. -/
theorem calls {es es' : List Event} (h : BarOrder Event.call es es') :
    BarOrder id (Event.calls es) (Event.calls es') := by
  induction h with
  | nil => exact .nil
  | cons e _ ih =>
    cases e with
    | call c => exact .cons c ih
    | note n => exact ih
  | bindings order order' _ ih =>
    have h : BarOrder id (order.calls.map id ++ _) (order'.calls.map id ++ _) :=
      .bindings order order' ih
    simpa only [Event.calls_append, Event.calls_map_call, List.map_id] using h

/-- The order of bindings does not show in notes. -/
theorem notes {es es' : List Event} (h : BarOrder Event.call es es') :
    Event.notes es = Event.notes es' := by
  induction h with
  | nil => rfl
  | cons e _ ih =>
    cases e with
    | call c => exact ih
    | note n => exact congrArg (n :: ·) ih
  | bindings order order' _ ih =>
    simp only [Event.notes_append, Event.notes_map_call, ih]

end BarOrder
end DrawStream
