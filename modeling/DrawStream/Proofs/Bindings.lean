import Mathlib.Data.List.Induction
import DrawStream.Proofs.LinkCache
import DrawStream.Proofs.Orders

/-! # What is bound when a program draws

`Program.bindAll` makes a program current and binds the textures of its samplers and the
sources of its attributes, one after the other in some order.  Units differ, so no sampler takes
the place of another; attributes may, if their locations coincide.  Whatever the order, what the
machine is in afterwards does not depend on what was bound before (`ready_bindAll`): all that a
draw takes from earlier is the values of uniforms, and these are what the program's cache
explains. -/
namespace DrawStream
namespace Machine

/-! ## Binding one thing after the other -/

/-- Binds the texture of a sampler to its unit. -/
def attach (m : Machine) (s : Sampler) : Machine :=
  { m with unit := s.unit }.bindTexture s.target s.texture

/-- Connects the location of an attribute with its source. -/
def connect (m : Machine) (a : Attribute) : Machine :=
  match a.source with
  | .buffer handle stride offset =>
    let m := m.bindBuffer BufferTarget.array.number handle
    let m := m.setAttribute a.location ({ · with enabled := true })
    m.setAttribute a.location
      ({ · with
        buffer := m.buffers BufferTarget.array.number
        size := a.type.components
        type := a.type.number
        stride
        offset })
  | .constant values =>
    let m := m.bindBuffer BufferTarget.array.number 0
    let m := m.setAttribute a.location ({ · with enabled := false })
    m.setAttribute a.location ({ · with constant := values })

variable {m : Machine} {deed : Option Deed} {links : Bool}

theorem always_bind_sampler {s : Sampler} {post : Unit → Machine → Prop}
    (hpost : post () (m.attach s)) : s.bind.Always (watch deed links) post m := by
  simp only [Sampler.bind, Dialogue.bind_eq, Script.always_bind]
  refine always_plain rfl rfl ?_
  exact always_plain rfl rfl hpost

theorem always_bind_attribute {a : Attribute} {post : Unit → Machine → Prop}
    (hpost : post () (m.connect a)) : a.bind.Always (watch deed links) post m := by
  unfold Attribute.bind
  unfold connect at hpost
  split
  · next handle stride offset hsource =>
    rw [hsource] at hpost
    simp only [Dialogue.bind_eq, Script.always_bind]
    refine always_plain rfl rfl ?_
    refine always_plain rfl rfl ?_
    exact always_plain rfl rfl hpost
  · next values hsource =>
    rw [hsource] at hpost
    simp only [Dialogue.bind_eq, Script.always_bind]
    refine always_plain rfl rfl ?_
    refine always_plain rfl rfl ?_
    exact always_plain rfl rfl hpost

/-- Doing one thing after the other takes the machine through what each of them does. -/
theorem always_inOrder {α : Type} (act : α → Script Unit) (step : Machine → α → Machine)
    (hact : ∀ {m : Machine} {a : α} {post : Unit → Machine → Prop},
      post () (step m a) → (act a).Always (watch deed links) post m)
    (items : List α) {post : Unit → Machine → Prop} (hpost : post () (items.foldl step m)) :
    (Program.inOrder act items).Always (watch deed links) post m := by
  induction items generalizing m with
  | nil => exact hpost
  | cons a rest ih =>
    simp only [Program.inOrder, Dialogue.bind_eq, Script.always_bind]
    exact hact (ih hpost)

/-! ## What is bound in the end -/

section Attach
variable {samplers : List Sampler}

@[simp] theorem foldl_attach_toStore : (samplers.foldl attach m).toStore = m.toStore := by
  induction samplers generalizing m with
  | nil => rfl
  | cons s rest ih => exact ih

@[simp] theorem foldl_attach_current : (samplers.foldl attach m).current = m.current := by
  induction samplers generalizing m with
  | nil => rfl
  | cons s rest ih => exact ih

/-- Every sampler finds its texture at its unit, since no other has the same unit.  The
induction is from the back: the sampler bound last either is the one in question or leaves
its unit alone. -/
theorem textures_foldl_attach {s : Sampler} (hs : s ∈ samplers)
    (hunits : (samplers.map (·.unit)).Nodup) :
    (samplers.foldl attach m).textures s.unit s.target = s.texture := by
  induction samplers using List.reverseRecOn with
  | nil => cases hs
  | append_singleton front last ih =>
    rw [List.foldl_append]
    by_cases heq : s.unit = last.unit
    · -- No unit is given twice, so the last sampler is the one in question.
      cases List.inj_on_of_nodup_map hunits hs (by simp) heq
      simp [attach, bindTexture]
    · have hfront : s ∈ front := by
        rcases List.mem_append.mp hs with hfront | hlast
        · exact hfront
        · exact absurd (congrArg Sampler.unit (List.mem_singleton.mp hlast)) heq
      rw [List.map_append] at hunits
      have hrest := ih hfront hunits.of_append_left
      simpa [attach, bindTexture, heq] using hrest

end Attach

section Connect
variable {attributes : List Attribute}

theorem connect_toStore {a : Attribute} : (m.connect a).toStore = m.toStore := by
  unfold connect
  split <;> rfl

theorem connect_current {a : Attribute} : (m.connect a).current = m.current := by
  unfold connect
  split <;> rfl

theorem connect_textures {a : Attribute} : (m.connect a).textures = m.textures := by
  unfold connect
  split <;> rfl

theorem connect_takes {a : Attribute} :
    ((m.connect a).attributes a.location).Takes a.type a.source := by
  cases hsource : a.source <;>
    simp [connect, hsource, VertexAttribute.Takes, setAttribute, bindBuffer]

theorem connect_attributes_of_ne {a : Attribute} {location : Nat} (h : location ≠ a.location) :
    (m.connect a).attributes location = m.attributes location := by
  cases hsource : a.source <;> simp [connect, hsource, setAttribute, bindBuffer, h]

@[simp] theorem foldl_connect_toStore : (attributes.foldl connect m).toStore = m.toStore := by
  induction attributes generalizing m with
  | nil => rfl
  | cons a rest ih => exact ih.trans connect_toStore

@[simp] theorem foldl_connect_current : (attributes.foldl connect m).current = m.current := by
  induction attributes generalizing m with
  | nil => rfl
  | cons a rest ih => exact ih.trans connect_current

@[simp] theorem foldl_connect_textures :
    (attributes.foldl connect m).textures = m.textures := by
  induction attributes generalizing m with
  | nil => rfl
  | cons a rest ih => exact ih.trans connect_textures

/-- An attribute that has its location to itself takes its numbers from its source. -/
theorem takes_foldl_connect {a : Attribute} (ha : a ∈ attributes)
    (halone : ∀ b ∈ attributes, b.location = a.location → b = a) :
    ((attributes.foldl connect m).attributes a.location).Takes a.type a.source := by
  induction attributes using List.reverseRecOn with
  | nil => cases ha
  | append_singleton front last ih =>
    rw [List.foldl_append]
    by_cases heq : a.location = last.location
    · cases halone last (by simp) heq.symm
      exact connect_takes
    · have hfront : a ∈ front := by
        rcases List.mem_append.mp ha with hfront | hlast
        · exact hfront
        · exact absurd (congrArg Attribute.location (List.mem_singleton.mp hlast)) heq
      have hrest := ih hfront fun b hb => halone b (List.mem_append_left _ hb)
      simpa [connect_attributes_of_ne heq] using hrest

end Connect

/-! ## Ready to draw -/

variable {p : Program}

/-- Makes a program current and applies all that is recorded for it, in an order. -/
def bindAll (m : Machine) (order : p.BindingOrder) : Machine :=
  order.attributes.foldl connect (order.samplers.foldl attach { m with current := p.handle })

theorem bindAll_toStore (order : p.BindingOrder) : (m.bindAll order).toStore = m.toStore := by
  simp [bindAll]

theorem always_bindAll {post : Unit → Machine → Prop}
    (hpost : ∀ order : p.BindingOrder, post () (m.bindAll order)) :
    p.bindAll.Always (watch deed links) post m := by
  simp only [Program.bindAll, Program.activate, Dialogue.bind_eq, Script.always_bind]
  refine always_plain rfl rfl ?_
  refine Script.always_arranged.mpr fun samplers hsamplers => ?_
  refine always_inOrder Sampler.bind attach always_bind_sampler _ ?_
  refine Script.always_arranged.mpr fun attributes hattributes => ?_
  refine always_inOrder Attribute.bind connect always_bind_attribute _ ?_
  exact hpost ⟨samplers, attributes, hsamplers, hattributes⟩

/-- **A program that has bound all that is recorded for it is ready to draw**, in whatever order
that was done. -/
theorem ready_bindAll (hp : p.Agrees m.toStore) (order : p.BindingOrder) :
    (m.bindAll order).Ready p := by
  refine ⟨by simp [bindAll], ?_, ?_⟩
  · intro location uniform object name target texture huniform hdeed
    rw [bindAll_toStore] at huniform
    obtain ⟨-, unit, hmem, hvalue⟩ := hp.explains _ _ _ _ _ _ huniform hdeed
    have hunits : (order.samplers.map (·.unit)).Nodup := by
      rw [(order.samplers_perm.map _).nodup_iff, hp.coherent.units]
      exact List.nodup_range
    refine ⟨unit, hvalue, ?_⟩
    rw [bindAll, foldl_connect_textures]
    exact textures_foldl_attach (order.samplers_perm.mem_iff.mpr hmem) hunits
  · intro a ha halone
    refine takes_foldl_connect (order.attributes_perm.mem_iff.mpr ha) ?_
    intro b hb hlocation
    have hb := order.attributes_perm.mem_iff.mp hb
    exact List.inj_on_of_nodup_map hp.coherent.attributeNames hb ha (halone b hb hlocation)

end Machine
end DrawStream
