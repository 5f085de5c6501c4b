import DrawStream.Proofs.Rolls
import DrawStream.Proofs.Session

/-! # Handles in the custody of a context

Whatever is done with a context at a recorder (`Order`), what the recorder has given out is
what has been given back together with what the objects of the context stand for (`Custody`).
So no handle is lost and none is given back twice, in whatever order commands are submitted,
queued and executed, and whether or not compiling, linking and validating succeed; and once
the objects are deleted too, everything has been given back (`Context.handles_in_custody`).

That something holds after all orders is shown for executing a command, and for what lies
between executions (`Context.Preserved`). -/
namespace DrawStream
open Command (Id)
open Handling
open scoped List

/-- Something done with a context at a recorder. -/
inductive Order
  | turn (turn : Turn)
  /-- Execute a command, whatever the mode. -/
  | execute (command : Command)
  /-- Change how the recorder behaves. -/
  | script (change : Bench.Scripting)

namespace Context

/-- Follows an order. -/
def follow (c : Context) (r : Recorder) : Order → Ran Recorder Context
  | .turn t =>
    let ran := (c.take t).run r
    ⟨ran.value.2, ran.device, ran.events⟩
  | .execute command =>
    let ran := (c.execute command).run r
    ⟨ran.value.2, ran.device, ran.events⟩
  | .script change => ⟨c, change.apply r, []⟩

/-- Follows orders one after the other. -/
def followAll (c : Context) (r : Recorder) : List Order → Ran Recorder Context
  | [] => ⟨c, r, []⟩
  | order :: rest =>
    let first := c.follow r order
    let later := followAll first.value first.device rest
    ⟨later.value, later.device, first.events ++ later.events⟩

/-! ## What is preserved -/

/-- What holds of all that has come about, of the context and of the recorder is preserved by
executing a command, and by what lies between executions. -/
structure Preserved (Inv : List Event → Context → Recorder → Prop) : Prop where
  queued : ∀ {events c r} queue deferred, Inv events c r →
    Inv events (c.withQueue queue deferred) r
  noted : ∀ {events c r} notes, Event.calls notes = [] → Event.executed notes = [] →
    Inv events c r → Inv (events ++ notes) c r
  scripted : ∀ {events c r} (change : Bench.Scripting), Inv events c r →
    Inv events c (change.apply r)
  executed : ∀ {events c r} command, Inv events c r →
    Inv (events ++ ((c.execute command).run r).events) ((c.execute command).run r).value.2
      ((c.execute command).run r).device

namespace Preserved
variable {Inv : List Event → Context → Recorder → Prop} {events : List Event} {c : Context}
  {r : Recorder}

theorem executeAll (h : Preserved Inv) (hinv : Inv events c r) (count : Nat)
    (commands : List Command) :
    Inv (events ++ ((c.executeAll count commands).run r).events)
      ((c.executeAll count commands).run r).value.2
      ((c.executeAll count commands).run r).device := by
  induction commands generalizing events c r count with
  | nil => exact (List.append_nil events).symm ▸ hinv
  | cons command waiting ih =>
    have hfirst := h.executed command hinv
    rw [run_executeAll_cons]
    generalize (c.execute command).run r = first at hfirst
    obtain ⟨⟨outcome, after⟩, device, occurred⟩ := first
    have hqueued := h.queued waiting c.deferred hfirst
    cases outcome with
    | error failure => exact hqueued
    | ok =>
      have hrest := ih hqueued (count + 1)
      rw [List.append_assoc] at hrest
      exact hrest

theorem take (h : Preserved Inv) (hinv : Inv events c r) (turn : Turn) :
    Inv (events ++ ((c.take turn).run r).events) ((c.take turn).run r).value.2
      ((c.take turn).run r).device := by
  cases turn with
  | submit command =>
    cases hmode : c.deferred with
    | true =>
      rw [take_submit_deferred c r command hmode, List.append_nil]
      exact h.queued (c.queue ++ [command]) c.deferred hinv
    | false =>
      rw [take_submit_immediate c r command hmode]
      exact h.executed command hinv
  | setDeferred deferred => exact (List.append_nil events).symm ▸ h.queued c.queue deferred hinv
  | executePending =>
    obtain ⟨notes, hcalls, hnotes, htake⟩ := take_executePending c r
    have hall := h.noted notes hcalls hnotes (h.executeAll hinv 0 c.queue)
    rw [List.append_assoc] at hall
    rw [htake]
    exact hall

theorem follow (h : Preserved Inv) (hinv : Inv events c r) (order : Order) :
    Inv (events ++ (c.follow r order).events) (c.follow r order).value
      (c.follow r order).device := by
  cases order with
  | turn turn => exact h.take hinv turn
  | execute command => exact h.executed command hinv
  | script change => exact (List.append_nil events).symm ▸ h.scripted change hinv

/-- What is preserved holds after all orders. -/
theorem followAll (h : Preserved Inv) (hinv : Inv events c r) (orders : List Order) :
    Inv (events ++ (c.followAll r orders).events) (c.followAll r orders).value
      (c.followAll r orders).device := by
  induction orders generalizing events c r with
  | nil => exact (List.append_nil events).symm ▸ hinv
  | cons order rest ih =>
    have hrest := ih (h.follow hinv order)
    rw [List.append_assoc] at hrest
    exact hrest

end Preserved

/-! ## Custody -/

/-- What has been given out is what has been given back together with what the objects stand
for.  The recorder had given out `first` before. -/
structure Custody (first : Handle) (events : List Event) (c : Context) (r : Recorder) :
    Prop where
  /-- Everything has been given out under a handle of its own. -/
  numbered : Numbered first (Event.handlings events) r.lastHandle
  distinct : c.Distinct
  balance : (returned (Event.handlings events) ++ c.held).Perm (given (Event.handlings events))
  detached : ∀ program shader, (Event.handlings events).count (.attached program shader) =
    (Event.handlings events).count (.detached program shader)

section Custody
variable {first : Handle} {events : List Event} {c c' : Context} {r : Recorder}

theorem Custody.execute (h : Custody first events c r) (command : Command) :
    Custody first (events ++ ((c.execute command).run r).events) ((c.execute command).run r).value.2
      ((c.execute command).run r).device := by
  have hmoves := moves_execute r h.distinct command
  have hnumbered := Recorder.numbered_run (c.execute command) r
  refine ⟨?_, hmoves.distinct h.distinct, ?_, ?_⟩
  · rw [Event.handlings_append]
    exact h.numbered.append hnumbered
  · rw [Event.handlings_append, returned_append, given_append, List.append_assoc]
    calc returned (Event.handlings events) ++
          (returned (Event.handlings ((c.execute command).run r).events) ++ _)
      _ ~ returned (Event.handlings events) ++
          (given (Event.handlings ((c.execute command).run r).events) ++ c.held) :=
        (hmoves.balance h.distinct).append_left _
      _ ~ returned (Event.handlings events) ++
          (c.held ++ given (Event.handlings ((c.execute command).run r).events)) :=
        List.perm_append_comm.append_left _
      _ = returned (Event.handlings events) ++ c.held ++
          given (Event.handlings ((c.execute command).run r).events) :=
        (List.append_assoc ..).symm
      _ ~ _ := h.balance.append_right _
  · intro program shader
    rw [Event.handlings_append, List.count_append, List.count_append, h.detached,
      hmoves.detached]

theorem preserved_custody (first : Handle) : Preserved (Custody first) where
  queued _ _ h := ⟨h.numbered, h.distinct, h.balance, h.detached⟩
  noted notes hcalls _ h := by
    have hnothing : Event.handlings notes = [] := by
      rw [Event.handlings, hcalls, List.filterMap_nil]
    refine ⟨?_, h.distinct, ?_, ?_⟩
    · rw [Event.handlings_append, hnothing, List.append_nil]
      exact h.numbered
    · rw [Event.handlings_append, hnothing, List.append_nil]
      exact h.balance
    · rw [Event.handlings_append, hnothing, List.append_nil]
      exact h.detached
  scripted change h := by
    refine ⟨?_, h.distinct, h.balance, h.detached⟩
    cases change <;> exact h.numbered
  executed command h := h.execute command

/-- A new context has nothing. -/
theorem custody_fresh (deferred : Bool) (usage : BufferUsage) (r : Recorder) :
    Custody r.lastHandle [] { deferred, usage } r :=
  ⟨.nil _, List.nodup_nil, List.Perm.refl _, fun _ _ => rfl⟩

/-! ## Numbers keep their objects -/

theorem preserved_entry (entry : Id × ObjectKind × Handle) : Preserved fun events c _ =>
    c.Distinct ∧ (.delete entry.1 ∉ Event.executed events → entry ∈ c.roll) where
  queued _ _ h := h
  noted notes _ hnotes h := by
    rw [Event.executed_append, hnotes, List.append_nil]
    exact h
  scripted _ h := h
  executed {events c r} command h := by
    have hmoves := moves_execute r h.1 command
    refine ⟨hmoves.distinct h.1, fun hnot => ?_⟩
    rw [Event.executed_append, executed_execute, List.mem_append, not_or] at hnot
    refine hmoves.keeps (h.2 hnot.1) ?_
    rintro rfl
    exact hnot.2 List.mem_cons_self

/-- A number that is free is given the object that is created under it. -/
theorem execute_create {id : Id} (hfree : c.object? id = none) (kind : ObjectKind) :
    ∃ o, ((c.execute (.create id kind)).run r).value.2.object? id = some o ∧ o.kind = kind ∧
      Event.handlings ((c.execute (.create id kind)).run r).events = [.created o.item] := by
  obtain ⟨hkind, hgives⟩ := Object.create_gives r c.usage kind
  have hrun : (c.execute (.create id kind)).run r =
      ⟨(.ok (), c.put id ((Object.create c.usage kind).run r).value),
        ((Object.create c.usage kind).run r).device,
        .note (.executing (.create id kind)) :: (((Object.create c.usage kind).run r).events ++
          [.note (.created kind id ((Object.create c.usage kind).run r).value.handle)])⟩ := by
    simp [execute, carryOut, create, hfree, Script.run_bind]
  refine ⟨((Object.create c.usage kind).run r).value, ?_, hkind, ?_⟩
  · rw [hrun, object?_put, Function.update_self]
  · rw [hrun, ← List.singleton_append, Event.handlings_append, Event.handlings_append, hgives]
    rfl

/-! ## Everything once -/

theorem Custody.nodup (h : Custody first events c r) :
    ((returned (Event.handlings events) ++ c.held).map Prod.snd).Nodup :=
  (h.balance.map Prod.snd).nodup_iff.mpr h.numbered.nodup

/-- Objects have different handles. -/
theorem Custody.id_eq (h : Custody first events c r) {id id' : Id} {o o' : Object}
    (hfound : c.object? id = some o) (hfound' : c.object? id' = some o')
    (heq : o.handle = o'.handle) : id = id' := by
  have hnodup := h.nodup
  rw [List.map_append, held, List.map_map] at hnodup
  exact congrArg Prod.fst (List.inj_on_of_nodup_map (List.nodup_append.mp hnodup).2.1
    (h.distinct.object?_iff.mp hfound) (h.distinct.object?_iff.mp hfound') heq)

/-- What is held has been given out and has not been given back. -/
theorem Custody.mem_held (h : Custody first events c r) {item : Item} :
    item ∈ c.held ↔ item.1 ≠ .shader ∧ item ∈ given (Event.handlings events) ∧
      item ∉ returned (Event.handlings events) := by
  constructor
  · intro hheld
    refine ⟨?_, h.balance.mem_iff.mp (List.mem_append_right _ hheld), fun hreturned => ?_⟩
    · obtain ⟨e, he, rfl⟩ := List.mem_map.mp hheld
      cases e.2 <;> exact Resource.noConfusion
    · exact (List.nodup_append.mp h.nodup.of_map).2.2 item hreturned item hheld rfl
  · rintro ⟨-, hgiven, hnot⟩
    exact (List.mem_append.mp (h.balance.mem_iff.mpr hgiven)).resolve_left hnot

/-- If the objects are deleted too, everything has been given back once. -/
theorem Custody.count_dropped (h : Custody first events c r) {order : List Item}
    (horder : order.Perm c.held) {item : Item} (hgiven : item ∈ given (Event.handlings events)) :
    (returned (Event.handlings events) ++ order).count item = 1 := by
  have hall := (horder.append_left (returned (Event.handlings events))).trans h.balance
  rw [hall.count_eq]
  exact List.count_eq_one_of_mem h.numbered.nodup.of_map hgiven

/-- Deleting objects gives back what they stand for. -/
theorem returned_deleteAll (order : List Object) :
    returned (Event.handlings ((Program.inOrder Object.delete order).run r).events) =
      order.map Object.item := by
  induction order generalizing r with
  | nil => rfl
  | cons o rest ih =>
    simp only [Program.inOrder, Dialogue.bind_eq, Script.handlings_bind, o.delete_returns,
      returned_append, ih, List.map_cons]
    rfl

end Custody

/-! ## What can be relied on -/

/-- A context, what has come about with it, and the recorder now. -/
structure InCustody (events : List Event) (c : Context) (r : Recorder) : Prop where
  /-- No two objects have the same handle. -/
  distinct : ∀ id id' o o', c.object? id = some o → c.object? id' = some o' →
    o.handle = o'.handle → id = id'
  /-- The objects stand for what has been created and not yet deleted, shaders apart. -/
  held : ∀ resource h, (∃ id o, c.object? id = some o ∧ o.item = (resource, h)) ↔
    resource ≠ .shader ∧ .created (resource, h) ∈ Event.handlings events ∧
      .deleted (resource, h) ∉ Event.handlings events
  /-- No handle is given out twice. -/
  created : ∀ h, ((given (Event.handlings events)).map Prod.snd).count h ≤ 1
  /-- No handle is given back twice. -/
  deleted : ∀ h, ((returned (Event.handlings events)).map Prod.snd).count h ≤ 1
  /-- Everything is given back as what it was given out as. -/
  own : ∀ item, .deleted item ∈ Event.handlings events → .created item ∈ Event.handlings events
  /-- An object that is created has a free number, its kind, and the handle given out for it. -/
  creates : ∀ id kind, c.object? id = none →
    ∃ o, ((c.execute (.create id kind)).run r).value.2.object? id = some o ∧ o.kind = kind ∧
      Event.handlings ((c.execute (.create id kind)).run r).events = [.created o.item]
  /-- Until it is deleted an object keeps its number, kind and handle. -/
  keeps : ∀ id o (later : List Order), c.object? id = some o →
    .delete id ∉ Event.executed (c.followAll r later).events →
    ∃ o', (c.followAll r later).value.object? id = some o' ∧ o'.kind = o.kind ∧
      o'.handle = o.handle
  /-- In whatever order the objects are deleted in the end, everything has then been given
  back once. -/
  dropped : ∀ order : List Object, order.Perm (c.objects.map Prod.snd) → ∀ item,
    .created item ∈ Event.handlings events →
    (Event.handlings events ++
      Event.handlings ((Program.inOrder Object.delete order).run r).events).count
        (.deleted item) = 1
  /-- A link gives back every shader that it is given, and detaches what it attaches, before it
  is done. -/
  links : ∀ (p : Program) (vertex fragment : String) (shader : Handle),
    .created (.shader, shader) ∈ Event.handlings ((p.setShaders vertex fragment).run r).events →
    (Event.handlings ((p.setShaders vertex fragment).run r).events).count
      (.deleted (.shader, shader)) = 1 ∧
    ∀ q, (Event.handlings ((p.setShaders vertex fragment).run r).events).count
      (.attached q shader) =
        (Event.handlings ((p.setShaders vertex fragment).run r).events).count (.detached q shader)

/-- **Handles are in custody**: whatever is done with a context at a recorder, what has been
given out is held by an object or has been given back, once. -/
theorem handles_in_custody (deferred : Bool) (usage : BufferUsage) (r : Recorder)
    (orders : List Order) :
    InCustody (followAll { deferred, usage } r orders).events
      (followAll { deferred, usage } r orders).value
      (followAll { deferred, usage } r orders).device := by
  have h := (preserved_custody r.lastHandle).followAll (custody_fresh deferred usage r) orders
  rw [List.nil_append] at h
  generalize followAll { deferred, usage } r orders = ran at h
  obtain ⟨c, r', events⟩ := ran
  have hhandles := h.nodup
  rw [List.map_append] at hhandles
  refine ⟨fun _ _ _ _ => h.id_eq, ?_, ?_, ?_, ?_, fun _ kind hfree => execute_create hfree kind,
    ?_, ?_, ?_⟩
  · intro resource handle
    rw [← h.distinct.mem_held_iff, h.mem_held, mem_given, mem_returned]
  · exact List.nodup_iff_count_le_one.mp h.numbered.nodup
  · exact List.nodup_iff_count_le_one.mp (List.nodup_append.mp hhandles).1
  · intro item hitem
    exact mem_given.mp (h.balance.mem_iff.mp (List.mem_append_left _ (mem_returned.mpr hitem)))
  · intro id o later hfound hkept
    have hnow : c.Distinct ∧ (.delete id ∉ Event.executed [] → (id, o.kind, o.handle) ∈ c.roll) :=
      ⟨h.distinct, fun _ => h.distinct.mem_roll_iff.mpr ⟨o, hfound, rfl, rfl⟩⟩
    have hlater := (preserved_entry (id, o.kind, o.handle)).followAll (r := r') hnow later
    rw [List.nil_append] at hlater
    exact hlater.1.mem_roll_iff.mp (hlater.2 hkept)
  · intro order horder item hitem
    rw [← count_returned, returned_append, returned_deleteAll]
    have hheld : (order.map Object.item).Perm c.held := by
      have hmap := horder.map Object.item
      rw [List.map_map] at hmap
      exact hmap
    exact h.count_dropped hheld (mem_given.mpr hitem)
  · intro p vertex fragment shader hshader
    have htidy := p.tidy_setShaders r' vertex fragment
    have hnumbered := Recorder.numbered_run (p.setShaders vertex fragment) r'
    refine ⟨?_, fun q => htidy.detached q shader⟩
    rw [← count_returned, htidy.returned]
    exact List.count_eq_one_of_mem hnumbered.nodup.of_map (mem_given.mpr hshader)

end Context
end DrawStream
