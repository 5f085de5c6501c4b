import DrawStream.Buffer
import DrawStream.Program.Draw
import DrawStream.Program.Link
import DrawStream.Proofs.Assignment

/-! # What operations are concerned with

For every operation on a buffer, a texture or a program: the topics of its requests, and
what it leaves unchanged of what is known of the object.  No operation but a deletion gives
a handle back, only linking has to do with shaders, only assignments look names up, and the
handle stays the same all the time. -/
namespace DrawStream

/-! ## Buffers and textures -/

theorem Buffer.within_setSize (b : Buffer) (bytes : Nat) :
    (b.setSize bytes).Within [.binding, .storage] fun b' => b'.handle = b.handle := by
  unfold Buffer.setSize
  split
  · exact rfl
  · simp [Buffer.activate, Note.topic?]

theorem Buffer.within_setData (b : Buffer) (offset : Nat) (data : Elements) :
    (b.setData offset data).Within [.binding, .storage] fun _ => True := by
  unfold Buffer.setData
  split
  · trivial
  · simp [Buffer.activate]

namespace Texture
variable (t : Texture)

theorem within_setStorage (storage : TextureStorage) :
    (t.setStorage storage).Within [.binding, .storage] fun r => r.2.handle = t.handle := by
  unfold setStorage
  split
  · exact rfl
  · split
    · exact rfl
    · simp [activate, Note.topic?]

theorem within_align (alignment value : Nat) :
    (align alignment value).Within [.binding, .storage] fun _ => True := by
  unfold align
  split <;> simp

theorem within_setData (offset shape : Extent) (data : Elements) :
    (t.setData offset shape data).Within [.binding, .storage] fun _ => True := by
  unfold setData
  split
  · trivial
  split
  · trivial
  simp only [write, activate, Dialogue.bind_eq, Script.within_bind, Script.within_request,
    Request.topic]
  refine ⟨by decide, fun _ => (within_align _ _).mono (List.Subset.refl _) fun _ _ => ?_⟩
  exact ⟨by decide, fun _ => (within_align _ _).mono (List.Subset.refl _) fun _ _ => trivial⟩

theorem within_setWrapping (s r : TextureWrap) :
    (t.setWrapping s r).Within [.binding, .storage] fun _ => True := by
  simp [setWrapping, activate]

theorem within_setInterpolation (min mag : TextureFilter) :
    (t.setInterpolation min mag).Within [.binding, .storage] fun _ => True := by
  simp [setInterpolation, activate]

end Texture

namespace Program
variable (p : Program)

theorem within_activate : p.activate.Within [.binding] fun _ => True := by
  simp [activate]

/-! ## Linking -/

/-- Building has succeeded, or a shader could not be compiled, or the program not linked. -/
def Built : Outcome Unit → Prop
  | .ok () | .error (.shaderCompile ..) | .error (.programLink _) => True
  | .error _ => False

theorem within_compile (stage : Stage) (shader : Handle) (source : String) :
    (compile stage shader source).Within [.building, .status] Built := by
  simp only [compile, Dialogue.bind_eq, Script.within_bind, Script.within_request,
    Request.topic]
  refine ⟨by decide, fun _ => ⟨by decide, fun _ => ⟨by decide, fun compiled => ?_⟩⟩⟩
  cases compiled <;> simp [Built]

theorem within_linkFault : p.linkFault.Within [.status] fun _ => True := by
  simp only [linkFault, Dialogue.bind_eq, Script.within_bind, Script.within_request,
    Request.topic]
  refine ⟨by decide, fun linked => ?_⟩
  cases linked <;> simp

theorem within_linkShaders (vertex fragment : Handle) :
    (p.linkShaders vertex fragment).Within [.building, .status] Built := by
  simp only [linkShaders, Dialogue.bind_eq, Script.within_bind, Script.within_request,
    Request.topic]
  refine ⟨by decide, fun _ => ⟨by decide, fun _ => ⟨by decide, fun _ => ?_⟩⟩⟩
  refine p.within_linkFault.mono (by decide) fun fault _ => ?_
  refine ⟨by decide, fun _ => ⟨by decide, fun _ => ?_⟩⟩
  cases fault <;> trivial

theorem within_build (vertex fragment : Handle) (vertexSource fragmentSource : String) :
    (p.build vertex fragment vertexSource fragmentSource).Within [.building, .status] Built := by
  simp only [build, Dialogue.bind_eq, Script.within_bind]
  refine (within_compile ..).mono (List.Subset.refl _) fun first hfirst => ?_
  cases first with
  | error => exact hfirst
  | ok =>
    simp only [Script.within_bind]
    refine (within_compile ..).mono (List.Subset.refl _) fun second hsecond => ?_
    cases second with
    | error => exact hsecond
    | ok => exact within_linkShaders ..

theorem within_collect {ask : Nat → Request Variable} (hask : ∀ i, (ask i).topic = .reporting)
    (count i : Nat) : (collect ask count i).Within [.reporting] fun _ => True := by
  induction count generalizing i with
  | zero => trivial
  | succ count ih =>
    simp only [collect, Dialogue.bind_eq, Script.within_bind, Script.within_request, hask]
    exact ⟨by decide, fun _ => (ih (i + 1)).mono (List.Subset.refl _) fun _ _ => trivial⟩

theorem within_reported : p.reported.Within [.reporting] fun _ => True := by
  simp only [reported, Dialogue.bind_eq, Script.within_bind, Script.within_request,
    Request.topic]
  refine ⟨by decide, fun _ => ?_⟩
  refine (within_collect (fun _ => rfl) _ _).mono (List.Subset.refl _) fun _ _ => ?_
  refine ⟨by decide, fun _ => ?_⟩
  exact (within_collect (fun _ => rfl) _ _).mono (List.Subset.refl _) fun _ _ => trivial

/-- Builds the program from two shaders that exist only meanwhile. -/
def buildAlone (vertexSource fragmentSource : String) : Script (Outcome Unit) := do
  let vertex ← Script.request (.createShader .vertex)
  let fragment ← Script.request (.createShader .fragment)
  let built ← p.build vertex fragment vertexSource fragmentSource
  Script.request (.deleteShader vertex)
  Script.request (.deleteShader fragment)
  return built

/-- What becomes of the program after it has been built. -/
def setBuilt : Outcome Unit → Script (Outcome Unit × Program)
  | .error failure => return (.error failure, { p with linked := false })
  | .ok () => do
    let cache := LinkCache.fresh (← p.reported)
    Script.note (.linked p.handle cache.active.length)
    return (.ok (), { p with linked := true, cache })

theorem setShaders_eq (vertex fragment : String) :
    p.setShaders vertex fragment = Dialogue.bind (p.buildAlone vertex fragment) p.setBuilt := by
  simp only [setShaders, buildAlone, Dialogue.bind_eq, Dialogue.bind_assoc]
  refine congrArg _ (funext fun _ => congrArg _ (funext fun _ => ?_))
  refine congrArg _ (funext fun built => ?_)
  cases built <;> rfl

theorem within_buildAlone (vertex fragment : String) :
    (p.buildAlone vertex fragment).Within [.building, .status] Built := by
  simp only [buildAlone, Dialogue.bind_eq, Script.within_bind, Script.within_request,
    Request.topic]
  refine ⟨by decide, fun _ => ⟨by decide, fun _ => ?_⟩⟩
  refine (p.within_build ..).mono (List.Subset.refl _) fun built hbuilt => ?_
  exact ⟨by decide, fun _ => ⟨by decide, fun _ => hbuilt⟩⟩

theorem within_setBuilt (built : Outcome Unit) :
    (p.setBuilt built).Within [.reporting] fun r => r.2.handle = p.handle := by
  cases built with
  | error => exact rfl
  | ok =>
    simp only [setBuilt, Dialogue.bind_eq, Script.within_bind]
    refine p.within_reported.mono (List.Subset.refl _) fun _ _ => ?_
    exact (Script.within_note _).mpr ⟨fun _ ht => (by cases ht), rfl⟩

theorem within_setShaders (vertex fragment : String) :
    (p.setShaders vertex fragment).Within [.building, .status, .reporting]
      fun r => r.2.handle = p.handle := by
  rw [setShaders_eq, Script.within_bind]
  refine (p.within_buildAlone ..).mono (by decide) fun built _ => ?_
  exact (p.within_setBuilt built).mono (by decide) fun _ h => h

/-! ## Setting variables -/

theorem within_upload (location : Int) (type : UniformType) (value : UniformValue) :
    (upload location type value).Within [.binding, .upload] fun _ => True := by
  unfold upload
  split <;> simp [Note.topic?]

theorem within_send (a : Assignment) (location : Int) :
    (a.send p location).Within [.binding, .upload] fun _ => True := by
  cases a with
  | uniform name type value =>
    simp only [Assignment.send, activate, Dialogue.bind_eq, Script.within_bind,
      Script.within_request, Request.topic]
    exact ⟨by decide, fun _ => within_upload ..⟩
  | «attribute» => trivial
  | sampler => simp [Assignment.send, activate]

theorem within_settle (a : Assignment) (location : Int) :
    (p.settle a location).Within [.binding, .upload] fun r => r.2.handle = p.handle := by
  unfold settle
  split
  · exact rfl
  · simp only [Dialogue.bind_eq, Script.within_bind]
    exact (within_send ..).mono (List.Subset.refl _) fun _ _ => rfl

theorem handle_learn (name : String) (location : Int) :
    (p.learn name location).handle = p.handle := by
  unfold learn
  split <;> rfl

theorem topic?_missing (a : Assignment) : a.missing.topic? = some .missing := by
  cases a with
  | uniform | sampler => rfl
  | «attribute» name type source =>
    cases source with
    | constant => rfl
    | buffer handle stride offset =>
      simp only [Assignment.missing, missingAttribute]
      split <;> rfl

theorem within_assign (a : Assignment) :
    (p.assign a).Within [.lookup, .missing, .binding, .upload]
      fun r => r.2.handle = p.handle := by
  cases hlinked : p.linked with
  | false =>
    rw [assign_of_unlinked hlinked]
    exact rfl
  | true =>
    cases hlocation : p.cache.locations.lookup a.name with
    | some location =>
      rw [assign_of_located hlinked hlocation]
      exact (within_settle ..).mono (by decide) fun _ h => h
    | none =>
      by_cases hinvalid : a.name ∈ p.cache.invalid
      · rw [assign_of_invalid hlinked hlocation hinvalid]
        exact rfl
      · rw [assign_of_unknown hlinked ⟨hlocation, hinvalid⟩]
        simp only [Script.within_bind, Script.within_request]
        refine ⟨by cases a <;> exact List.mem_cons_self, fun location => ?_⟩
        have hlearnt := handle_learn p a.name location
        split
        · refine (Script.within_note _).mpr ⟨fun t ht => ?_, hlearnt⟩
          rw [topic?_missing] at ht
          cases ht
          decide
        · exact (within_settle ..).mono (by decide) fun _ h => h.trans hlearnt

theorem within_perform_assignment (a : Assignment) :
    (a.perform p).Within [.lookup, .missing, .binding, .upload]
      fun r => r.2.handle = p.handle := by
  rw [perform_eq_assign]
  exact p.within_assign a

/-! ## Drawing -/

theorem within_inOrder {α : Type} {topics : List Topic} {act : α → Script Unit}
    (h : ∀ a, (act a).Within topics fun _ => True) (items : List α) :
    (inOrder act items).Within topics fun _ => True := by
  induction items with
  | nil => trivial
  | cons a rest ih =>
    simp only [inOrder, Dialogue.bind_eq, Script.within_bind]
    exact (h a).mono (List.Subset.refl _) fun _ _ => ih

theorem within_bind_sampler (s : Sampler) : s.bind.Within [.binding] fun _ => True := by
  simp [Sampler.bind]

theorem within_bind_attribute (a : Attribute) : a.bind.Within [.binding] fun _ => True := by
  unfold Attribute.bind
  split <;> simp

theorem within_bindAll : p.bindAll.Within [.binding, .order] fun _ => True := by
  simp only [bindAll, Dialogue.bind_eq, Script.within_bind]
  refine p.within_activate.mono (by decide) fun _ _ => ?_
  refine Script.within_arranged (by decide) fun samplers _ => ?_
  refine (within_inOrder within_bind_sampler _).mono (by decide) fun _ _ => ?_
  refine Script.within_arranged (by decide) fun attributes _ => ?_
  exact (within_inOrder within_bind_attribute _).mono (by decide) fun _ _ => trivial

/-- The program apart from whether it has been validated. -/
def BarValidated (p p' : Program) : Prop :=
  ∃ validated, p' = { p with cache := { p.cache with validated } }

theorem within_validate : p.validate.Within [.validation, .status] fun _ => True := by
  have hrest : Script.Within [.validation, .status] (fun _ => True)
      (Dialogue.bind (Script.request (.validateProgram p.handle)) fun _ =>
        Dialogue.bind (Script.request (.validateStatus p.handle)) fun valid =>
          if valid then (.done (.ok ()) : Script (Outcome Unit))
          else Dialogue.bind (Script.request (.programLog p.handle)) fun log =>
            .done (.error (.programValidation log))) := by
    simp only [Script.within_bind, Script.within_request, Request.topic]
    refine ⟨by decide, fun _ => ⟨by decide, fun valid => ?_⟩⟩
    cases valid <;> simp
  unfold validate
  split
  · simp only [Dialogue.bind_eq, Script.within_bind]
    exact (Script.within_note _).mpr ⟨fun _ ht => (by cases ht; decide), hrest⟩
  · exact hrest

theorem within_validateOnce :
    p.validateOnce.Within [.validation, .status] fun r => p.BarValidated r.2 := by
  unfold validateOnce
  split
  · exact ⟨p.cache.validated, rfl⟩
  · simp only [Dialogue.bind_eq, Script.within_bind]
    exact p.within_validate.mono (List.Subset.refl _) fun _ _ => ⟨true, rfl⟩

theorem within_issue (mode : DrawMode) (call : DrawCall) :
    (call.issue mode).Within [.binding, .drawing] fun _ => True := by
  cases call <;> simp [DrawCall.issue]

/-- Drawing changes nothing but whether the program has been validated. -/
theorem within_draw (mode : DrawMode) (selection : Selection) :
    (p.draw mode selection).Within [.errors, .binding, .order, .validation, .status, .drawing]
      fun r => p.BarValidated r.2 := by
  have hsame : p.BarValidated p := ⟨p.cache.validated, rfl⟩
  unfold draw
  split
  · exact hsame
  split
  · exact hsame
  split
  · exact hsame
  simp only [Dialogue.bind_eq, Script.within_bind]
  refine Script.within_checkErrors (by decide) fun checked => ?_
  cases checked with
  | error => exact hsame
  | ok =>
    simp only [Script.within_bind]
    refine p.within_bindAll.mono (by decide) fun _ _ => ?_
    refine p.within_validateOnce.mono (by decide) fun r hr => ?_
    obtain ⟨validated, p'⟩ := r
    cases validated with
    | error => exact hr
    | ok =>
      simp only [Script.within_bind]
      refine (within_issue ..).mono (by decide) fun _ _ => ?_
      exact Script.within_checkErrors (by decide) fun _ => hr

end Program
end DrawStream
