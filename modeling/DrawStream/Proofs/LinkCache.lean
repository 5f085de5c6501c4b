import Mathlib.Data.List.Nodup
import DrawStream.Proofs.Agreement

/-! # What a program remembers of a link stays in order

Attaching a texture and recording an attribute replace what stands under the same name or
add to the end, so every name stands once and the units are those from 0 on
(`LinkCache.Coherent`).  A sampler keeps its unit, so the unit that was once uploaded for
it is still the one at which its texture will be bound (`LinkCache.Explains`). -/
namespace DrawStream.LinkCache
variable {c : LinkCache}

/-- A new link has nothing in it. -/
theorem coherent_fresh (declared : List Variable) : (fresh declared).Coherent :=
  ⟨List.nodup_nil, rfl, List.nodup_nil⟩

/-- Only samplers and attributes matter. -/
theorem Coherent.of_eq {c' : LinkCache} (h : c.Coherent) (hsamplers : c'.samplers = c.samplers)
    (hattributes : c'.attributes = c.attributes) : c'.Coherent := by
  refine ⟨?_, ?_, ?_⟩
  · rw [hsamplers]
    exact h.samplerNames
  · rw [hsamplers]
    exact h.units
  · rw [hattributes]
    exact h.attributeNames

/-- Attaching a texture changes nothing but samplers. -/
theorem attach_eq (name : String) (target : Nat) (texture : Handle) :
    ∃ samplers, c.attach name target texture = { c with samplers } := by
  unfold attach
  split
  · exact ⟨_, rfl⟩
  · exact ⟨_, rfl⟩

/-- Recording an attribute changes nothing but attributes. -/
theorem record_eq (a : Attribute) : ∃ attributes, c.record a = { c with attributes } := by
  unfold record
  split
  · exact ⟨_, rfl⟩
  · exact ⟨_, rfl⟩

/-- Putting something in the place of what has the same name leaves the names alone. -/
theorem map_name_replace {α : Type} (name : α → String) (a : α) (l : List α) :
    (l.map fun b => if name b = name a then a else b).map name = l.map name := by
  rw [List.map_map]
  refine List.map_congr_left ?_
  intro b _
  by_cases heq : name b = name a
  · simp [heq]
  · simp [heq]

/-! ## Samplers -/

/-- The unit of a sampler after it has been given a texture. -/
def attachedUnit (c : LinkCache) (name : String) : Nat := (c.unit? name).getD c.samplers.length

section Attach
variable {name : String} {target : Nat} {texture : Handle}

theorem unit?_eq_some {unit : Nat} (h : c.unit? name = some unit) :
    ∃ s ∈ c.samplers, s.name = name ∧ s.unit = unit := by
  obtain ⟨s, hs, hunit⟩ := Option.map_eq_some_iff.mp h
  exact ⟨s, List.mem_of_find?_eq_some hs, by simpa using List.find?_some hs, hunit⟩

theorem unit?_eq_none (h : c.unit? name = none) : ∀ s ∈ c.samplers, s.name ≠ name := by
  have hnone := Option.map_eq_none_iff.mp h
  simpa using hnone

/-- Giving a sampler a texture replaces what was known of it, if anything was. -/
theorem mem_samplers_attach {s : Sampler} :
    s ∈ (c.attach name target texture).samplers ↔
      s = ⟨name, target, texture, c.attachedUnit name⟩ ∨ s ∈ c.samplers ∧ s.name ≠ name := by
  unfold attach attachedUnit
  cases hunit : c.unit? name with
  | none =>
    have hnew := unit?_eq_none hunit
    simp only [List.mem_append, List.mem_singleton, Option.getD_none]
    constructor
    · rintro (hs | rfl)
      · exact .inr ⟨hs, hnew s hs⟩
      · exact .inl rfl
    · rintro (rfl | ⟨hs, -⟩)
      · exact .inr rfl
      · exact .inl hs
  | some unit =>
    obtain ⟨old, hold, hname, -⟩ := unit?_eq_some hunit
    simp only [List.mem_map, Option.getD_some]
    constructor
    · rintro ⟨s', hs', rfl⟩
      split
      · exact .inl rfl
      · next hne => exact .inr ⟨hs', hne⟩
    · rintro (rfl | ⟨hs, hne⟩)
      · exact ⟨old, hold, if_pos hname⟩
      · exact ⟨s, hs, if_neg hne⟩

theorem unit?_attach :
    (c.attach name target texture).unit? name = some (c.attachedUnit name) := by
  cases hunit : (c.attach name target texture).unit? name with
  | none => exact absurd rfl (unit?_eq_none hunit _ (mem_samplers_attach.mpr (.inl rfl)))
  | some unit =>
    obtain ⟨s, hs, hname, rfl⟩ := unit?_eq_some hunit
    rcases mem_samplers_attach.mp hs with rfl | ⟨-, hne⟩
    · rfl
    · exact absurd hname hne

theorem Coherent.attach (h : c.Coherent) : (c.attach name target texture).Coherent := by
  unfold LinkCache.attach
  cases hunit : c.unit? name with
  | none =>
    have hnew : name ∉ c.samplers.map (·.name) := by
      simpa using unit?_eq_none hunit
    refine ⟨?_, ?_, h.attributeNames⟩
    · rw [List.map_append]
      exact h.samplerNames.append (List.nodup_singleton _) (List.disjoint_singleton.mpr hnew)
    · rw [List.map_append, h.units, List.length_append, List.length_singleton, List.range_succ]
      rfl
  | some unit =>
    obtain ⟨old, hold, hname, hunit⟩ := unit?_eq_some hunit
    refine ⟨?_, ?_, h.attributeNames⟩
    · have hnames := map_name_replace Sampler.name ⟨name, target, texture, unit⟩ c.samplers
      exact hnames.symm ▸ h.samplerNames
    · -- Only one sampler has the name, and the new one is given its unit.
      have hunits : ∀ s ∈ c.samplers,
          (if s.name = name then (⟨name, target, texture, unit⟩ : Sampler) else s).unit =
            s.unit := by
        intro s hs
        split
        · next heq =>
          have hsame := List.inj_on_of_nodup_map h.samplerNames hs hold (heq.trans hname.symm)
          rw [hsame]
          exact hunit.symm
        · rfl
      rw [List.map_map, List.length_map]
      exact (List.map_congr_left hunits).trans h.units

/-- A sampler that has been given a texture has the unit that it is told, and the others
keep theirs. -/
theorem Explains.attach {uniforms : Int → Option Uniform} {location : Int} {object : Object}
    (h : c.Explains uniforms) (hlocation : c.locations.lookup name = some location) :
    (c.attach name target texture).Explains
      (Function.update uniforms location
        (some ⟨.ints [(c.attachedUnit name : Int)],
          some ⟨object, .bindSampler name target texture⟩⟩)) := by
  have hlocations : (c.attach name target texture).locations = c.locations := by
    obtain ⟨samplers, hattach⟩ := attach_eq (c := c) name target texture
    rw [hattach]
  intro location' uniform object' name' target' texture' huniform hdeed
  rw [hlocations]
  by_cases heq : location' = location
  · rw [heq, Function.update_self] at huniform
    cases huniform
    cases hdeed
    exact ⟨heq ▸ hlocation, _, mem_samplers_attach.mpr (.inl rfl), rfl⟩
  · rw [Function.update_of_ne heq] at huniform
    obtain ⟨hlookup, unit, hmem, hvalue⟩ := h _ _ _ _ _ _ huniform hdeed
    -- A name has one location, so what was set elsewhere was set for another name.
    have hne : name' ≠ name := by
      rintro rfl
      exact heq (Option.some.inj (hlookup.symm.trans hlocation))
    exact ⟨hlookup, unit, mem_samplers_attach.mpr (.inr ⟨hmem, hne⟩), hvalue⟩

end Attach

/-! ## Other uniforms and locations -/

section Explains
variable {uniforms : Int → Option Uniform}

/-- A program that has just been linked has no uniforms that need explaining. -/
theorem explains_none : c.Explains fun _ => none := by
  intro _ _ _ _ _ _ huniform
  cases huniform

/-- What is set otherwise needs no explaining. -/
theorem Explains.update {location : Int} {uniform : Uniform} (h : c.Explains uniforms)
    (hdeed : ∀ object name target texture,
      uniform.deed ≠ some ⟨object, .bindSampler name target texture⟩) :
    c.Explains (Function.update uniforms location (some uniform)) := by
  intro location' uniform' object name target texture huniform hdeed'
  by_cases heq : location' = location
  · rw [heq, Function.update_self] at huniform
    cases huniform
    exact absurd hdeed' (hdeed _ _ _ _)
  · rw [Function.update_of_ne heq] at huniform
    exact h _ _ _ _ _ _ huniform hdeed'

/-- A name that had no location can be given one. -/
theorem Explains.cons_location {name : String} {location : Int} (h : c.Explains uniforms)
    (hnone : c.locations.lookup name = none) :
    Explains { c with locations := (name, location) :: c.locations } uniforms := by
  intro location' uniform object name' target texture huniform hdeed
  obtain ⟨hlookup, hrest⟩ := h _ _ _ _ _ _ huniform hdeed
  have hne : name' ≠ name := by
    rintro rfl
    rw [hnone] at hlookup
    cases hlookup
  refine ⟨?_, hrest⟩
  rw [List.lookup_cons, beq_false_of_ne hne]
  exact hlookup

end Explains

/-! ## Attributes -/

/-- Recording an attribute replaces what was known of it, if anything was. -/
theorem mem_attributes_record {a b : Attribute} :
    b ∈ (c.record a).attributes ↔ b = a ∨ b ∈ c.attributes ∧ b.name ≠ a.name := by
  unfold LinkCache.record
  split
  · next hold =>
    obtain ⟨old, hmem, hname⟩ := List.any_eq_true.mp hold
    simp only [List.mem_map]
    constructor
    · rintro ⟨b', hb', rfl⟩
      split
      · exact .inl rfl
      · next hne => exact .inr ⟨hb', hne⟩
    · rintro (rfl | ⟨hb, hne⟩)
      · exact ⟨old, hmem, if_pos (by simpa using hname)⟩
      · exact ⟨b, hb, if_neg hne⟩
  · next hnew =>
    have hne : ∀ b ∈ c.attributes, b.name ≠ a.name := by simpa using hnew
    simp only [List.mem_append, List.mem_singleton]
    constructor
    · rintro (hb | rfl)
      · exact .inr ⟨hb, hne b hb⟩
      · exact .inl rfl
    · rintro (rfl | ⟨hb, -⟩)
      · exact .inr rfl
      · exact .inl hb

theorem Coherent.record {a : Attribute} (h : c.Coherent) : (c.record a).Coherent := by
  unfold LinkCache.record
  split
  · have hnames := map_name_replace Attribute.name a c.attributes
    exact ⟨h.samplerNames, h.units, hnames.symm ▸ h.attributeNames⟩
  · next hnone =>
    have hnew : a.name ∉ c.attributes.map (·.name) := by
      simpa using hnone
    refine ⟨h.samplerNames, h.units, ?_⟩
    rw [List.map_append]
    exact h.attributeNames.append (List.nodup_singleton _) (List.disjoint_singleton.mpr hnew)

/-- Attributes explain nothing about uniforms. -/
theorem Explains.record {a : Attribute} {uniforms : Int → Option Uniform}
    (h : c.Explains uniforms) : (c.record a).Explains uniforms := by
  unfold LinkCache.record
  split <;> exact h

end DrawStream.LinkCache
