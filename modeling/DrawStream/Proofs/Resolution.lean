import DrawStream.Bench.Perform
import DrawStream.Proofs.Lookups

/-! # What a recorder says of names

A recorder resolves names by kind: a name may be a uniform, an attribute, both or neither.
What it has once said of a name of a kind it will say again, for its declarations do not
change and the locations that it gives out only become more (`Recorder.Precedes`).  So what a
program has been told of a name is true as long as it remembers it (`resolve_of_query`). -/
namespace DrawStream

namespace Recorder

/-- The variables of a kind. -/
def declared (r : Recorder) : VariableKind → List Variable
  | .uniform => r.uniforms
  | .attribute => r.attributes

/-- What the recorder says to the question for a name of a kind. -/
def resolve (r : Recorder) (kind : VariableKind) (name : String) : Int :=
  (r.find (r.declared kind) name).1

/-- A recorder comes before another in time: the declarations are the same, and what was given
a location has it still. -/
structure Precedes (r s : Recorder) : Prop where
  uniforms : s.uniforms = r.uniforms
  attributes : s.attributes = r.attributes
  permissive : s.permissive = r.permissive
  assigned : r.assigned <+: s.assigned

namespace Precedes
variable {r s t : Recorder}

theorem refl (r : Recorder) : r.Precedes r := ⟨rfl, rfl, rfl, List.prefix_rfl⟩

theorem trans (h : r.Precedes s) (h' : s.Precedes t) : r.Precedes t :=
  ⟨h'.uniforms.trans h.uniforms, h'.attributes.trans h.attributes,
    h'.permissive.trans h.permissive, h.assigned.trans h'.assigned⟩

theorem declared (h : r.Precedes s) (kind : VariableKind) : s.declared kind = r.declared kind := by
  cases kind with
  | uniform => exact h.uniforms
  | «attribute» => exact h.attributes

end Precedes

section Find
variable (r : Recorder) (declared : List Variable) (name : String)

/-- The location of a name that is not declared and has none yet. -/
def nextAssigned : Int := Device.wrapLocation (firstAssigned + r.assigned.length)

variable {r declared name}

theorem find_of_settled (h : 0 ≤ Device.locate declared name ∨ ¬ r.permissive) :
    r.find declared name = (Device.locate declared name, r) := by
  simp only [find, if_pos h]

theorem find_of_assigned (h : ¬ (0 ≤ Device.locate declared name ∨ ¬ r.permissive))
    {location : Int} (hassigned : r.assigned.lookup name = some location) :
    r.find declared name = (location, r) := by
  simp only [find, if_neg h, hassigned]

theorem find_of_new (h : ¬ (0 ≤ Device.locate declared name ∨ ¬ r.permissive))
    (hnone : r.assigned.lookup name = none) :
    r.find declared name =
      (r.nextAssigned, { r with assigned := r.assigned ++ [(name, r.nextAssigned)] }) := by
  simp only [find, if_neg h, hnone, nextAssigned]

variable (r declared name)

theorem precedes_find : r.Precedes (r.find declared name).2 := by
  by_cases h : 0 ≤ Device.locate declared name ∨ ¬ r.permissive
  · rw [find_of_settled h]
    exact .refl r
  · cases hassigned : r.assigned.lookup name with
    | some location =>
      rw [find_of_assigned h hassigned]
      exact .refl r
    | none =>
      rw [find_of_new h hassigned]
      exact ⟨rfl, rfl, rfl, List.prefix_append _ _⟩

end Find

theorem precedes_answer {β : Type} (q : Request β) (r : Recorder) :
    r.Precedes (Device.answer q r).2 := by
  cases q with
  | uniformLocation program name => exact r.precedes_find _ name
  | attributeLocation program name => exact r.precedes_find _ name
  | drawArrays | drawElements =>
    change r.Precedes r.raise
    unfold raise
    split <;> exact ⟨rfl, rfl, rfl, List.prefix_rfl⟩
  | takeError =>
    change r.Precedes r.takeError.2
    unfold takeError
    split <;> exact ⟨rfl, rfl, rfl, List.prefix_rfl⟩
  | _ => exact ⟨rfl, rfl, rfl, List.prefix_rfl⟩

/-- Whatever is run on a recorder, it is later afterwards. -/
theorem precedes_run {α : Type} (x : Script α) (r : Recorder) : r.Precedes (x.run r).device := by
  induction x generalizing r with
  | done a => exact .refl r
  | ask act next ih =>
    have hact : r.Precedes (act.perform r).device := by
      cases act with
      | request q => exact precedes_answer q r
      | drain =>
        exact Device.keeps_drainFrom (fun s hs => hs.trans (precedes_answer .takeError s)) _ _
          (.refl r)
      | arrange => exact ⟨rfl, rfl, rfl, List.prefix_rfl⟩
      | note n => exact .refl r
    exact hact.trans (ih _ _)

/-- **What has been said of a name stays true.** -/
theorem resolve_of_asked {r s : Recorder} (kind : VariableKind) (name : String)
    (h : (r.find (r.declared kind) name).2.Precedes s) :
    s.resolve kind name = r.resolve kind name := by
  have hdeclared : s.declared kind = r.declared kind :=
    ((r.precedes_find (r.declared kind) name).trans h).declared kind
  have hpermissive : s.permissive = r.permissive :=
    ((r.precedes_find (r.declared kind) name).trans h).permissive
  unfold resolve
  rw [hdeclared]
  by_cases hsettled : 0 ≤ Device.locate (r.declared kind) name ∨ ¬ r.permissive
  · rw [find_of_settled hsettled, find_of_settled (hpermissive ▸ hsettled)]
  · have hsettled' : ¬ (0 ≤ Device.locate (r.declared kind) name ∨ ¬ s.permissive) :=
      hpermissive ▸ hsettled
    cases hlookup : r.assigned.lookup name with
    | some location =>
      rw [find_of_assigned hsettled hlookup] at h ⊢
      obtain ⟨rest, hrest⟩ := h.assigned
      have hkept : s.assigned.lookup name = some location := by
        rw [← hrest, List.lookup_append, hlookup, Option.some_or]
      rw [find_of_assigned hsettled' hkept]
    | none =>
      rw [find_of_new hsettled hlookup] at h ⊢
      obtain ⟨rest, hrest⟩ := h.assigned
      have hkept : s.assigned.lookup name = some r.nextAssigned := by
        rw [← hrest, List.lookup_append, List.lookup_append, hlookup, Option.none_or,
          List.lookup_cons_self, Option.some_or]
      rw [find_of_assigned hsettled' hkept]

end Recorder

namespace Program

theorem answer_locationRequest (p : Program) (kind : VariableKind) (name : String) (r : Recorder) :
    Device.answer (p.locationRequest kind name) r = r.find (r.declared kind) name := by
  cases kind <;> rfl

/-- What an operation was told of a name is what the recorder says ever after. -/
theorem resolve_of_query {p : Program} {o : Operation} {r s : Recorder} {q : Query}
    (hq : q ∈ (o.done p r).queries) (h : (o.done p r).left.Precedes s) :
    s.resolve q.kind q.name = q.location := by
  cases o with
  | setShaders | draw | activate | deactivate =>
    rw [queries_eq_nil p r _ rfl] at hq
    cases hq
  | assign a =>
    rcases queries_assign p a r with ⟨-, hnone⟩ | ⟨hlinked, hunknown, hqueries⟩
    · rw [hnone] at hq
      cases hq
    · rw [hqueries] at hq
      cases List.mem_singleton.mp hq
      rw [answer_locationRequest]
      refine Recorder.resolve_of_asked a.kind a.name (.trans ?_ h)
      rw [← answer_locationRequest p]
      change Recorder.Precedes _ (((Operation.assign a).perform p).run r).device
      rw [show (Operation.assign a).perform p = p.assign a from perform_eq_assign p a,
        assign_of_unknown hlinked hunknown, Script.run_bind]
      exact Recorder.precedes_run _ _

theorem precedes_courseEnd (p : Program) (r : Recorder) (operations : List Operation) :
    r.Precedes (courseEnd p r operations) := by
  induction operations generalizing p r with
  | nil => exact .refl r
  | cons o rest ih => exact (Recorder.precedes_run _ r).trans (ih _ _)

/-- If nothing else is done with the recorder, every operation leaves it before the end. -/
theorem precedes_of_mem_course (p : Program) (r : Recorder) (operations : List Operation) :
    ∀ e ∈ p.past (course p r operations), e.left.Precedes (courseEnd p r operations) := by
  induction operations generalizing p r with
  | nil =>
    rintro e he
    cases he
  | cons o rest ih =>
    intro e he
    rcases List.mem_cons.mp he with rfl | hrest
    · exact precedes_courseEnd _ _ rest
    · exact ih _ _ e hrest

end Program
end DrawStream
