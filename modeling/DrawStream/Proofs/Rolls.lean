import DrawStream.Proofs.Executions
import DrawStream.Proofs.Handles

/-! # What a context has on its roll

The roll of a context are the numbers in use, with the kinds and handles of their objects.
Executing a command works on an object, which keeps its kind and handle, or creates one, or
deletes one (`Context.Moves`), whether or not it succeeds; and it has to do with handles
accordingly (`moves_execute`). -/
namespace DrawStream
open Command (Id)
open Handling

namespace Command

/-- The topics of what a command says. -/
def topics : Command → List Topic
  | create .. => [.creation]
  | delete _ => [.deletion]
  | shaders .. => [.building, .status, .reporting]
  | size .. | data .. | interpolation .. | wrapping .. => [.binding, .storage]
  | .attribute .. | uniform .. | texture .. => [.lookup, .missing, .binding, .upload]
  | draw .. => [.errors, .binding, .order, .validation, .status, .drawing]

/-- The command neither creates an object nor deletes one. -/
def works : Command → Bool
  | create .. | delete _ => false
  | _ => true

end Command

namespace Context

/-- The numbers in use, with the kinds and handles of their objects. -/
def roll (c : Context) : List (Id × ObjectKind × Handle) :=
  c.objects.map fun e => (e.1, e.2.kind, e.2.handle)

/-- What the objects stand for. -/
def held (c : Context) : List Item := c.objects.map fun e => e.2.item

/-- No number is in use twice. -/
def Distinct (c : Context) : Prop := (c.objects.map Prod.fst).Nodup

section Roll
variable {c c' : Context} {id : Id} {o : Object}

theorem held_eq_roll (c : Context) : c.held = c.roll.map fun e => (e.2.1.resource, e.2.2) := by
  rw [roll, List.map_map]
  rfl

theorem ids_eq_roll (c : Context) : c.objects.map Prod.fst = c.roll.map Prod.fst := by
  rw [roll, List.map_map]
  rfl

theorem Distinct.object?_iff (h : c.Distinct) : c.object? id = some o ↔ (id, o) ∈ c.objects :=
  lookup_eq_some_iff_mem h

theorem Distinct.mem_roll_iff (h : c.Distinct) {kind : ObjectKind} {handle : Handle} :
    (id, kind, handle) ∈ c.roll ↔
      ∃ o, c.object? id = some o ∧ o.kind = kind ∧ o.handle = handle := by
  rw [roll, List.mem_map]
  constructor
  · rintro ⟨e, he, heq⟩
    cases heq
    exact ⟨e.2, h.object?_iff.mpr he, rfl, rfl⟩
  · rintro ⟨o, hfound, rfl, rfl⟩
    exact ⟨(id, o), h.object?_iff.mp hfound, rfl⟩

theorem Distinct.mem_held_iff (h : c.Distinct) {item : Item} :
    item ∈ c.held ↔ ∃ id o, c.object? id = some o ∧ o.item = item := by
  rw [held, List.mem_map]
  constructor
  · rintro ⟨e, he, heq⟩
    exact ⟨e.1, e.2, h.object?_iff.mpr he, heq⟩
  · rintro ⟨id, o, hfound, heq⟩
    exact ⟨(id, o), h.object?_iff.mp hfound, heq⟩

/-- An object that keeps its kind and handle stays on the roll. -/
theorem roll_put (h : c.Distinct) {x : Object} (hfound : c.object? id = some o)
    (hkind : x.kind = o.kind) (hhandle : x.handle = o.handle) : (c.put id x).roll = c.roll := by
  have hsome : (c.object? id).isSome := by
    rw [hfound]
    rfl
  rw [put, if_pos hsome, roll, roll, List.map_map]
  refine List.map_congr_left fun e he => ?_
  by_cases heq : e.1 = id
  · have hentry : e.2 = o := by
      have hlookup := h.object?_iff.mpr (show (id, e.2) ∈ c.objects from heq ▸ he)
      exact Option.some.inj (hlookup.symm.trans hfound)
    simp [heq, hkind, hhandle, hentry]
  · simp [heq]

end Roll

/-! ## What commands are concerned with -/

section Within
variable {c : Context} {topics : List Topic}

theorem within_onProgram (id : Id) {act : Program → Script (Outcome Unit × Program)}
    (hact : ∀ p, (act p).Within topics fun r => r.2.handle = p.handle) :
    (c.onProgram id act).Within topics fun r => c.Distinct → r.2.roll = c.roll := by
  unfold onProgram
  split
  · exact fun _ => rfl
  · next p hp =>
    refine (Script.within_bind _ _).mpr ((hact p).mono (List.Subset.refl _) fun r hr h => ?_)
    exact roll_put h (object?_of_program hp) rfl hr

theorem within_onTexture (id : Id) {act : Texture → Script Unit}
    (hact : ∀ t, (act t).Within topics fun _ => True) :
    (c.onTexture id act).Within topics fun r => c.Distinct → r.2.roll = c.roll := by
  unfold onTexture
  split
  · exact fun _ => rfl
  · next t ht =>
    exact (Script.within_bind _ _).mpr ((hact t).mono (List.Subset.refl _) fun _ _ _ => rfl)

theorem within_create (id : Id) (kind : ObjectKind) :
    (c.create id kind).Within [.creation] fun _ => True := by
  unfold create
  split
  · trivial
  · cases kind <;>
      simp [Object.create, Buffer.create, Texture.create, Program.create, Dialogue.bind_assoc,
        Note.topic?]

theorem within_delete (id : Id) : (c.delete id).Within [.deletion] fun _ => True := by
  unfold delete
  split
  · trivial
  · next object hobject =>
    cases object <;>
      simp [Object.delete, Buffer.delete, Texture.delete, Program.delete, Note.topic?]

theorem within_setSize (id : Id) (storage : Command.Storage) :
    (c.setSize id storage).Within [.binding, .storage]
      fun r => c.Distinct → r.2.roll = c.roll := by
  unfold setSize
  split
  · exact fun _ => rfl
  next o ho =>
  have hfound := object?_of_object ho
  split
  · next b n =>
    refine (Script.within_bind _ _).mpr
      ((b.within_setSize n.toNat).mono (List.Subset.refl _) fun b' hb' h => ?_)
    exact roll_put h hfound rfl hb'
  · next b n =>
    refine (Script.within_bind _ _).mpr
      ((b.within_setSize n.toNat).mono (List.Subset.refl _) fun b' hb' h => ?_)
    exact roll_put h hfound rfl hb'
  · next t height width format =>
    refine (Script.within_bind _ _).mpr
      ((t.within_setStorage _).mono (List.Subset.refl _) fun r hr h => ?_)
    exact roll_put h hfound rfl hr
  · exact fun _ => rfl

theorem within_setData (id : Id) (offset : Command.Offset)
    (shape : Option (Command.Count × Command.Count)) (data : Elements) :
    (c.setData id offset shape data).Within [.binding, .storage] fun r => r.2.roll = c.roll := by
  have hbuffer : ∀ b : Buffer,
      (c.setBufferData id b offset data).Within [.binding, .storage]
        fun r => r.2.roll = c.roll := by
    intro b
    cases offset with
    | texel place => exact rfl
    | linear n =>
      exact (Script.within_bind _ _).mpr
        ((b.within_setData n.toNat data).mono (List.Subset.refl _) fun _ _ => rfl)
  unfold setData
  split
  · exact rfl
  · exact hbuffer _
  · exact hbuffer _
  · next t ht =>
    unfold setTextureData
    split
    · exact rfl
    · split
      · exact rfl
      · exact (Script.within_bind _ _).mpr
          ((t.within_setData _ _ data).mono (List.Subset.refl _) fun _ _ => rfl)
  · exact rfl

/-- Carrying out a command keeps to its topics, and to the roll unless an object is created or
deleted. -/
theorem within_carryOut (command : Command) :
    (c.carryOut command).Within command.topics
      fun r => command.works = true → c.Distinct → r.2.roll = c.roll := by
  have hassign (id : Id) (a : Program.Assignment) :
      (c.onProgram id fun p => a.perform p).Within [.lookup, .missing, .binding, .upload]
        fun r => true = true → c.Distinct → r.2.roll = c.roll :=
    (within_onProgram id fun p => p.within_perform_assignment a).mono (List.Subset.refl _)
      fun _ hr _ => hr
  cases command with
  | create id kind =>
    refine (within_create id kind).mono (List.Subset.refl _) fun _ _ hworks => ?_
    cases hworks
  | delete id =>
    refine (within_delete id).mono (List.Subset.refl _) fun _ _ hworks => ?_
    cases hworks
  | shaders id vertex fragment =>
    refine (within_onProgram id fun p => p.within_setShaders vertex fragment).mono
      (List.Subset.refl _) fun _ hr _ => hr
  | size id storage => exact (within_setSize id storage).mono (List.Subset.refl _) fun _ hr _ => hr
  | data id offset shape data =>
    exact (within_setData id offset shape data).mono (List.Subset.refl _) fun _ hr _ _ => hr
  | «attribute» id name type value =>
    dsimp only [carryOut]
    split
    · exact fun _ _ => rfl
    · exact hassign id (.attribute name type _)
  | uniform id name type value => exact hassign id (.uniform name type (.floats value))
  | texture id name image =>
    dsimp only [carryOut]
    split
    · exact fun _ _ => rfl
    · exact hassign id (.sampler name Texture.target _)
  | interpolation id min mag =>
    exact (within_onTexture id fun t => t.within_setInterpolation min mag).mono
      (List.Subset.refl _) fun _ hr _ => hr
  | wrapping id wrap =>
    exact (within_onTexture id fun t => t.within_setWrapping wrap.1 wrap.2).mono
      (List.Subset.refl _) fun _ hr _ => hr
  | draw id mode selection =>
    dsimp only [carryOut]
    split
    · exact fun _ _ => rfl
    · refine (within_onProgram id fun p => (p.within_draw mode _).mono (List.Subset.refl _) ?_).mono
        (List.Subset.refl _) fun _ hr _ => hr
      rintro r ⟨validated, hr⟩
      rw [hr]

end Within

/-! ## What executing a command does to the roll -/

/-- Work on objects, a new object, or one object less, with what is done with handles. -/
inductive Moves (c : Context) (command : Command) (c' : Context) : List Handling → Prop
  | work {hs : List Handling} (hroll : c'.roll = c.roll) (htidy : Tidy hs) : Moves c command c' hs
  | create (id : Id) (kind : ObjectKind) (o : Object) (hcommand : command = .create id kind)
      (hfree : c.object? id = none) (hkind : o.kind = kind)
      (hobjects : c'.objects = c.objects ++ [(id, o)]) : Moves c command c' [.created o.item]
  | delete (id : Id) (o : Object) (hcommand : command = .delete id)
      (hfound : c.object? id = some o)
      (hobjects : c'.objects = c.objects.filter fun e => e.1 ≠ id) :
      Moves c command c' [.deleted o.item]

section Moves
variable {σ : Type} [Device σ] {c : Context} (d : σ)

/-- Work on an object has nothing to do with handles. -/
theorem moves_work {command : Command} (h : c.Distinct) (hworks : command.works = true)
    (hshaders : ∀ id vertex fragment, command ≠ .shaders id vertex fragment) :
    Moves c command ((c.carryOut command).run d).value.2
      (Event.handlings ((c.carryOut command).run d).events) := by
  have hwithin := within_carryOut (c := c) command
  have htopics : .creation ∉ command.topics ∧ .deletion ∉ command.topics ∧
      .building ∉ command.topics := by
    cases command with
    | create | delete => cases hworks
    | shaders id vertex fragment => exact absurd rfl (hshaders id vertex fragment)
    | _ => simp [Command.topics]
  rw [hwithin.handlings_eq_nil htopics.1 htopics.2.1 htopics.2.2]
  exact .work (hwithin.value d hworks h) .nil

theorem moves_create (id : Id) (kind : ObjectKind) :
    Moves c (.create id kind) ((c.create id kind).run d).value.2
      (Event.handlings ((c.create id kind).run d).events) := by
  unfold create
  cases hfound : c.object? id with
  | some o => exact .work rfl .nil
  | none =>
    obtain ⟨hkind, hgives⟩ := Object.create_gives d c.usage kind
    simp only [Dialogue.bind_eq, Script.run_bind, Event.handlings_append, hgives]
    refine .create id kind _ rfl hfound hkind ?_
    change (c.put id _).objects = _
    rw [put, hfound]
    rfl

theorem moves_delete (id : Id) :
    Moves c (.delete id) ((c.delete id).run d).value.2
      (Event.handlings ((c.delete id).run d).events) := by
  unfold delete
  split
  · exact .work rfl .nil
  · next o ho =>
    simp only [Dialogue.bind_eq, Script.run_bind, Event.handlings_append, o.delete_returns]
    exact .delete id o rfl (object?_of_object ho) rfl

theorem moves_shaders (h : c.Distinct) (id : Id) (vertex fragment : String) :
    Moves c (.shaders id vertex fragment)
      ((c.onProgram id (·.setShaders vertex fragment)).run d).value.2
      (Event.handlings ((c.onProgram id (·.setShaders vertex fragment)).run d).events) := by
  refine .work ?_ ?_
  · exact (within_onProgram id fun p => p.within_setShaders vertex fragment).value d h
  · unfold onProgram
    split
    · exact .nil
    · next p hp =>
      rw [Dialogue.bind_eq, Script.handlings_bind]
      exact (List.append_nil _).symm ▸ p.tidy_setShaders d vertex fragment

/-- **Executing a command does one of three things to the roll.** -/
theorem moves_execute (h : c.Distinct) (command : Command) :
    Moves c command ((c.execute command).run d).value.2
      (Event.handlings ((c.execute command).run d).events) := by
  change Moves c command ((c.carryOut command).run d).value.2
    (Event.handlings ((c.carryOut command).run d).events)
  cases command with
  | create id kind => exact moves_create d id kind
  | delete id => exact moves_delete d id
  | shaders id vertex fragment => exact moves_shaders d h id vertex fragment
  | size | data | «attribute» | uniform | texture | interpolation | wrapping | draw =>
    refine moves_work d h rfl ?_
    intro id vertex fragment heq
    cases heq

end Moves

/-! ## What the three things do to handles -/

section Balance
variable {c c' : Context}

/-- Taking an object out takes out what it stands for. -/
theorem Distinct.perm_filter (h : c.Distinct) {id : Id} {o : Object}
    (hfound : c.object? id = some o) :
    c.objects.Perm ((id, o) :: c.objects.filter fun e => e.1 ≠ id) := by
  have hmem : (id, o) ∈ c.objects := h.object?_iff.mp hfound
  have hsame : c.objects.erase (id, o) = c.objects.filter fun e => e.1 ≠ id := by
    rw [h.of_map.erase_eq_filter]
    refine List.filter_congr fun e he => ?_
    by_cases heq : e.1 = id
    · have hentry : e = (id, o) := List.inj_on_of_nodup_map h he hmem heq
      simp [hentry]
    · have hne : e ≠ (id, o) := fun hentry => heq (congrArg Prod.fst hentry)
      simp [heq, hne]
  exact hsame ▸ List.perm_cons_erase hmem

theorem Moves.distinct {command : Command} {hs : List Handling} (hmoves : Moves c command c' hs)
    (h : c.Distinct) : c'.Distinct := by
  cases hmoves with
  | work hroll =>
    rw [Distinct, ids_eq_roll, hroll, ← ids_eq_roll]
    exact h
  | create id kind o hcommand hfree hkind hobjects =>
    rw [Distinct, hobjects, List.map_append]
    refine h.append (List.nodup_singleton _) (List.disjoint_singleton.mpr ?_)
    intro hid
    obtain ⟨e, he, rfl⟩ := List.mem_map.mp hid
    have hfound := h.object?_iff.mpr (show (e.1, e.2) ∈ c.objects from he)
    rw [hfree] at hfound
    cases hfound
  | delete id o hcommand hfound hobjects =>
    rw [Distinct, hobjects]
    exact h.sublist (List.filter_sublist.map _)

/-- What a command gives out and does not give back is in the custody of the context. -/
theorem Moves.balance {command : Command} {hs : List Handling} (hmoves : Moves c command c' hs)
    (h : c.Distinct) : (returned hs ++ c'.held).Perm (given hs ++ c.held) := by
  cases hmoves with
  | work hroll htidy =>
    rw [htidy.returned, held_eq_roll, hroll, ← held_eq_roll]
  | create id kind o hcommand hfree hkind hobjects =>
    rw [held, hobjects, List.map_append]
    change (c.held ++ [o.item]).Perm ([o.item] ++ c.held)
    exact List.perm_append_comm
  | delete id o hcommand hfound hobjects =>
    rw [held, hobjects]
    exact ((h.perm_filter hfound).map fun e => e.2.item).symm

theorem Moves.detached {command : Command} {hs : List Handling} (hmoves : Moves c command c' hs)
    (program shader : Handle) :
    hs.count (.attached program shader) = hs.count (.detached program shader) := by
  cases hmoves with
  | work hroll htidy => exact htidy.detached program shader
  | create | delete => simp

/-- An object that is not deleted keeps its number, kind and handle. -/
theorem Moves.keeps {command : Command} {hs : List Handling} (hmoves : Moves c command c' hs)
    {entry : Id × ObjectKind × Handle} (hentry : entry ∈ c.roll)
    (hcommand : command ≠ .delete entry.1) : entry ∈ c'.roll := by
  cases hmoves with
  | work hroll => exact hroll ▸ hentry
  | create id kind o hcreate hfree hkind hobjects =>
    rw [roll, hobjects, List.map_append]
    exact List.mem_append_left _ hentry
  | delete id o hdelete hfound hobjects =>
    obtain ⟨e, he, rfl⟩ := List.mem_map.mp hentry
    rw [roll, hobjects]
    refine List.mem_map_of_mem (List.mem_filter.mpr ⟨he, decide_eq_true ?_⟩)
    rintro rfl
    exact hcommand hdelete

end Balance
end Context
end DrawStream
