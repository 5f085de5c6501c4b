import DrawStream.Proofs.Likeness
import DrawStream.Proofs.Past
import DrawStream.Proofs.Programs

/-! # The handle of a program shows in nothing but itself

Two programs that differ in their handles only (`Program.Alike`) go the same way, whatever is
done with them: every operation on the one is alike, as a script, to the same operation on the
other (`alike_perform`).  All that a program knows is in its cache, which both have, and the
handle is only handed on to the device.  This is shown operation by operation; what does not
mention programs or shaders at all, such as an upload or the call of a draw, is like itself. -/
namespace DrawStream.Program

/-- Two programs that differ in their handles only. -/
structure Alike (handle handle' : Handle) (p q : Program) : Prop where
  handle : p.handle = handle
  same : q = { p with handle := handle' }

variable {π : Pairing} {p q : Program}

section Alike
variable {handle handle' : Handle}

theorem Alike.linked (h : p.Alike handle handle' q) : q.linked = p.linked := by
  rw [h.same]

theorem Alike.cache (h : p.Alike handle handle' q) : q.cache = p.cache := by
  rw [h.same]

theorem Alike.stored (h : p.Alike handle handle' q) (a : Assignment) (location : Int) :
    (p.stored a location).Alike handle handle' (q.stored a location) := by
  obtain ⟨hhandle, rfl⟩ := h
  exact ⟨hhandle, rfl⟩

theorem Alike.learn (h : p.Alike handle handle' q) (name : String) (location : Int) :
    (p.learn name location).Alike handle handle' (q.learn name location) := by
  obtain ⟨hhandle, rfl⟩ := h
  unfold Program.learn
  split
  · exact ⟨hhandle, rfl⟩
  · exact ⟨hhandle, rfl⟩

end Alike

/-- The handles of the programs are paired. -/
theorem Alike.pairs (h : p.Alike π.program π.program' q) :
    π.Pairs (.program p.handle) (.program q.handle) := by
  rw [h.handle, h.same]
  exact .program

/-- What mentions nothing but the program mentions the same. -/
theorem Alike.mentions (h : p.Alike π.program π.program' q) :
    List.Forall₂ π.Pairs [.program p.handle] [.program q.handle] :=
  .cons h.pairs .nil

/-- The same outcome, and programs that differ in their handles only. -/
structure SameResult (π : Pairing) (r r' : Outcome Unit × Program) : Prop where
  outcome : r.1 = r'.1
  program : r.2.Alike π.program π.program' r'.2

/-! ## Linking -/

section Build
variable {s s' v v' : Handle}

theorem alike_compile (stage : Stage) (source : String) (hs : π.shaders s s') :
    (compile stage s source).Alike π (· = ·) (compile stage s' source) := by
  have hmentions : List.Forall₂ π.Pairs [.shader s] [.shader s'] := .cons (.shader hs) .nil
  simp only [compile, Dialogue.bind_eq]
  refine .request_bind ?_ fun _ => .request_bind ?_ fun _ => .request_bind ?_ fun compiled => ?_
  · exact ⟨rfl, rfl, hmentions⟩
  · exact ⟨rfl, rfl, hmentions⟩
  · exact ⟨rfl, rfl, hmentions⟩
  refine Script.alike_ite (fun _ => .done rfl) fun _ => .request_bind ?_ fun _ => .done rfl
  exact ⟨rfl, rfl, hmentions⟩

theorem alike_linkFault (h : p.Alike π.program π.program' q) :
    p.linkFault.Alike π (· = ·) q.linkFault := by
  simp only [linkFault, Dialogue.bind_eq]
  refine .request_bind ?_ fun linked => ?_
  · exact ⟨rfl, rfl, h.mentions⟩
  refine Script.alike_ite (fun _ => .done rfl) fun _ => .request_bind ?_ fun _ => .done rfl
  exact ⟨rfl, rfl, h.mentions⟩

theorem alike_linkShaders (h : p.Alike π.program π.program' q) (hs : π.shaders s s')
    (hv : π.shaders v v') :
    (p.linkShaders s v).Alike π (· = ·) (q.linkShaders s' v') := by
  have hfirst : List.Forall₂ π.Pairs [.program p.handle, .shader s]
    [.program q.handle, .shader s'] := .cons h.pairs (.cons (.shader hs) .nil)
  have hsecond : List.Forall₂ π.Pairs [.program p.handle, .shader v]
    [.program q.handle, .shader v'] := .cons h.pairs (.cons (.shader hv) .nil)
  simp only [linkShaders, Dialogue.bind_eq]
  refine .request_bind ?_ fun _ => .request_bind ?_ fun _ => .request_bind ?_ fun _ => ?_
  · exact ⟨rfl, rfl, hfirst⟩
  · exact ⟨rfl, rfl, hsecond⟩
  · exact ⟨rfl, rfl, h.mentions⟩
  refine (alike_linkFault h).bind ?_
  rintro fault _ rfl
  refine .request_bind ?_ fun _ => .request_bind ?_ fun _ => ?_
  · exact ⟨rfl, rfl, hfirst⟩
  · exact ⟨rfl, rfl, hsecond⟩
  cases fault with
  | some log => exact .done rfl
  | none => exact .done rfl

theorem alike_build (h : p.Alike π.program π.program' q) (hs : π.shaders s s')
    (hv : π.shaders v v') (vertexSource fragmentSource : String) :
    (p.build s v vertexSource fragmentSource).Alike π (· = ·)
      (q.build s' v' vertexSource fragmentSource) := by
  simp only [build, Dialogue.bind_eq]
  refine (alike_compile .vertex vertexSource hs).bind ?_
  rintro first _ rfl
  cases first with
  | error failure => exact .done rfl
  | ok =>
    refine (alike_compile .fragment fragmentSource hv).bind ?_
    rintro second _ rfl
    cases second with
    | error failure => exact .done rfl
    | ok => exact alike_linkShaders h hs hv

theorem alike_buildAlone (h : p.Alike π.program π.program' q) (vertex fragment : String) :
    (p.buildAlone vertex fragment).Alike π (· = ·) (q.buildAlone vertex fragment) := by
  simp only [buildAlone, Dialogue.bind_eq]
  refine .shader .vertex fun s s' hs => .shader .fragment fun v v' hv => ?_
  refine (alike_build h hs hv vertex fragment).bind ?_
  rintro built _ rfl
  refine .request_bind ?_ fun _ => .request_bind ?_ fun _ => .done rfl
  · exact ⟨rfl, rfl, .cons (.shader hs) .nil⟩
  · exact ⟨rfl, rfl, .cons (.shader hv) .nil⟩

theorem alike_collect {ask ask' : Nat → Request Variable} (hask : ∀ i, (ask i).Alike π (ask' i))
    (count i : Nat) : (collect ask count i).Alike π (· = ·) (collect ask' count i) := by
  induction count generalizing i with
  | zero => exact .done rfl
  | succ count ih =>
    simp only [collect, Dialogue.bind_eq]
    refine .request_bind (hask i) fun v => (ih (i + 1)).bind ?_
    rintro rest _ rfl
    exact .done rfl

theorem alike_reported (h : p.Alike π.program π.program' q) :
    p.reported.Alike π (· = ·) q.reported := by
  simp only [reported, Dialogue.bind_eq]
  refine .request_bind ?_ fun count => (alike_collect (fun i => ?_) _ _).bind ?_
  · exact ⟨rfl, rfl, h.mentions⟩
  · exact ⟨rfl, rfl, h.mentions⟩
  rintro attributes _ rfl
  refine .request_bind ?_ fun count => (alike_collect (fun i => ?_) _ _).bind ?_
  · exact ⟨rfl, rfl, h.mentions⟩
  · exact ⟨rfl, rfl, h.mentions⟩
  rintro uniforms _ rfl
  exact .done rfl

theorem alike_setBuilt (h : p.Alike π.program π.program' q) (built : Outcome Unit) :
    (p.setBuilt built).Alike π (SameResult π) (q.setBuilt built) := by
  cases built with
  | error failure =>
    obtain ⟨hhandle, rfl⟩ := h
    exact .done ⟨rfl, hhandle, rfl⟩
  | ok =>
    simp only [setBuilt, Dialogue.bind_eq]
    refine (alike_reported h).bind ?_
    rintro declared _ rfl
    refine .note_bind ?_ (.done ⟨rfl, ?_⟩)
    · exact ⟨rfl, h.mentions⟩
    · obtain ⟨hhandle, rfl⟩ := h
      exact ⟨hhandle, rfl⟩

theorem alike_setShaders (h : p.Alike π.program π.program' q) (vertex fragment : String) :
    (p.setShaders vertex fragment).Alike π (SameResult π) (q.setShaders vertex fragment) := by
  rw [setShaders_eq, setShaders_eq]
  refine (alike_buildAlone h vertex fragment).bind ?_
  rintro built _ rfl
  exact alike_setBuilt h built

end Build

/-! ## Setting variables -/

theorem alike_activate (h : p.Alike π.program π.program' q) :
    p.activate.Alike π (· = ·) q.activate :=
  Script.alike_request ⟨rfl, rfl, h.mentions⟩

/-- An upload does not depend on the program. -/
theorem alike_upload (location : Int) (type : UniformType) (value : UniformValue) :
    (upload location type value).Alike π (· = ·) (upload location type value) := by
  unfold upload
  split
  · exact .request (.same rfl rfl) fun _ => .done rfl
  · exact .request (.same rfl rfl) fun _ => .done rfl
  · exact .request (.same rfl rfl) fun _ => .done rfl
  · exact .request (.same rfl rfl) fun _ => .done rfl
  · exact .note (.same rfl) (.done rfl)
  · exact .note (.same rfl) (.done rfl)

theorem alike_send (h : p.Alike π.program π.program' q) (a : Assignment) (location : Int) :
    (a.send p location).Alike π (· = ·) (a.send q location) := by
  have hactivate := alike_activate h
  obtain ⟨hhandle, rfl⟩ := h
  cases a with
  | uniform name type value => exact hactivate.bind fun _ _ _ => alike_upload location type value
  | «attribute» => exact .done rfl
  | sampler name target texture =>
    exact hactivate.bind fun _ _ _ => .request (.same rfl rfl) fun _ => .done rfl

theorem alike_settle (h : p.Alike π.program π.program' q) (a : Assignment) (location : Int) :
    (p.settle a location).Alike π (SameResult π) (q.settle a location) := by
  unfold settle
  cases a.refusal? with
  | some failure => exact .done ⟨rfl, h⟩
  | none =>
    have hstored := h.stored a location
    exact (alike_send hstored a location).bind fun _ _ _ => .done ⟨rfl, hstored⟩

theorem alike_locationRequest (h : p.Alike π.program π.program' q) (kind : VariableKind)
    (name : String) : (p.locationRequest kind name).Alike π (q.locationRequest kind name) := by
  cases kind with
  | uniform => exact ⟨rfl, rfl, h.mentions⟩
  | «attribute» => exact ⟨rfl, rfl, h.mentions⟩

theorem mentions_missing (a : Assignment) : (Event.note a.missing).mentions = [] := by
  cases a with
  | uniform | sampler => rfl
  | «attribute» name type source =>
    cases source with
    | constant => rfl
    | buffer handle stride offset =>
      simp only [Assignment.missing, missingAttribute]
      split <;> rfl

/-- What a program knows of a name is in its cache, so alike programs assign alike. -/
theorem alike_assign (h : p.Alike π.program π.program' q) (a : Assignment) :
    (p.assign a).Alike π (SameResult π) (q.assign a) := by
  have hlinked := h.linked
  have hcache := h.cache
  cases hp : p.linked with
  | false =>
    rw [assign_of_unlinked hp, assign_of_unlinked (hlinked.trans hp)]
    exact .done ⟨rfl, h⟩
  | true =>
    have hq : q.linked = true := hlinked.trans hp
    cases hlookup : p.cache.locations.lookup a.name with
    | some location =>
      rw [assign_of_located hp hlookup, assign_of_located hq (hcache ▸ hlookup)]
      exact alike_settle h a location
    | none =>
      by_cases hinvalid : a.name ∈ p.cache.invalid
      · rw [assign_of_invalid hp hlookup hinvalid,
          assign_of_invalid hq (hcache ▸ hlookup) (hcache ▸ hinvalid)]
        exact .done ⟨rfl, h⟩
      · have hunknown : p.Unknown a.name := ⟨hlookup, hinvalid⟩
        have hunknown' : q.Unknown a.name := by
          unfold Unknown
          rw [hcache]
          exact hunknown
        rw [assign_of_unknown hp hunknown, assign_of_unknown hq hunknown']
        refine .request_bind (alike_locationRequest h a.kind a.name) fun location => ?_
        have hlearn := h.learn a.name location
        refine Script.alike_ite (fun _ => ?_) fun _ => alike_settle hlearn a location
        refine .note_bind (.same ?_) (.done ⟨rfl, hlearn⟩)
        simp [mentions_missing]

/-! ## Drawing -/

/-- What both have recorded is bound by each in an order of its own. -/
theorem alike_bindAll (h : p.Alike π.program π.program' q) :
    p.bindAll.Alike π (· = ·) q.bindAll := by
  have hbindings : Script.Alike π (· = ·) (Dialogue.bind p.bindAll .done)
      (Dialogue.bind q.bindAll .done) := .bindings h.pairs h.cache (.done rfl)
  rwa [Dialogue.bind_done, Dialogue.bind_done] at hbindings

theorem alike_verdict (h : p.Alike π.program π.program' q) :
    p.verdict.Alike π (· = ·) q.verdict := by
  simp only [verdict, Dialogue.bind_eq]
  refine .request_bind ?_ fun _ => .request_bind ?_ fun valid => ?_
  · exact ⟨rfl, rfl, h.mentions⟩
  · exact ⟨rfl, rfl, h.mentions⟩
  refine Script.alike_ite (fun _ => .done rfl) fun _ => .request_bind ?_ fun _ => .done rfl
  exact ⟨rfl, rfl, h.mentions⟩

theorem alike_validate (h : p.Alike π.program π.program' q) :
    p.validate.Alike π (· = ·) q.validate := by
  rw [validate_eq, validate_eq, h.cache]
  refine Script.alike_ite (fun _ => ?_) fun _ => alike_verdict h
  exact .note_bind (.same rfl) (alike_verdict h)

theorem alike_validateOnce (h : p.Alike π.program π.program' q) :
    p.validateOnce.Alike π (SameResult π) q.validateOnce := by
  have hvalidate := alike_validate h
  obtain ⟨hhandle, rfl⟩ := h
  unfold validateOnce
  refine Script.alike_ite (fun _ => .done ⟨rfl, hhandle, rfl⟩) fun _ => ?_
  refine hvalidate.bind ?_
  rintro outcome _ rfl
  exact .done ⟨rfl, hhandle, rfl⟩

theorem alike_issue (mode : DrawMode) (call : DrawCall) :
    (call.issue mode).Alike π (· = ·) (call.issue mode) := by
  cases call with
  | elements buffer type count =>
    exact .request (.same rfl rfl) fun _ => .request (.same rfl rfl) fun _ =>
      .request (.same rfl rfl) fun _ => .done rfl
  | range first count => exact .request (.same rfl rfl) fun _ => .done rfl

theorem alike_draw (h : p.Alike π.program π.program' q) (mode : DrawMode)
    (selection : Selection) :
    (p.draw mode selection).Alike π (SameResult π) (q.draw mode selection) := by
  simp only [draw, h.linked, Dialogue.bind_eq]
  refine Script.alike_ite (fun _ => .done ⟨rfl, h⟩) fun _ => ?_
  refine Script.alike_ite (fun _ => .done ⟨rfl, h⟩) fun _ => ?_
  cases drawCall selection with
  | error failure => exact .done ⟨rfl, h⟩
  | ok call =>
    refine (Script.alike_checkErrors _).bind ?_
    rintro before _ rfl
    cases before with
    | error failure => exact .done ⟨rfl, h⟩
    | ok =>
      refine (alike_bindAll h).bind fun _ _ _ => (alike_validateOnce h).bind ?_
      rintro ⟨outcome, p'⟩ ⟨_, q'⟩ ⟨rfl, h'⟩
      cases outcome with
      | error failure => exact .done ⟨rfl, h'⟩
      | ok =>
        refine (alike_issue mode call).bind fun _ _ _ => (Script.alike_checkErrors _).bind ?_
        rintro after _ rfl
        exact .done ⟨rfl, h'⟩

/-! ## All operations -/

/-- **Operations on programs that differ in their handles only are alike.** -/
theorem alike_perform (h : p.Alike π.program π.program' q) (o : Operation) :
    (o.perform p).Alike π (SameResult π) (o.perform q) := by
  cases o with
  | setShaders vertex fragment => exact alike_setShaders h vertex fragment
  | assign a =>
    change (a.perform p).Alike π (SameResult π) (a.perform q)
    rw [perform_eq_assign, perform_eq_assign]
    exact alike_assign h a
  | draw mode selection => exact alike_draw h mode selection
  | activate => exact (alike_activate h).bind fun _ _ _ => .done ⟨rfl, h⟩
  | deactivate =>
    refine .request_bind ?_ fun _ => .done ⟨rfl, h⟩
    exact ⟨rfl, rfl, .cons .noProgram .nil⟩

end DrawStream.Program
