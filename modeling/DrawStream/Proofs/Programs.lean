import DrawStream.Program.Draw
import DrawStream.Program.Link
import DrawStream.Program.Set
import DrawStream.Proofs.Bindings

/-! # Programs keep in step with the device

Whatever is done to a program, the values of its uniforms that were set for samplers remain
those that its cache explains: a link that succeeds takes both away, a lookup and a value
that is set otherwise leave them alone, and a texture that is attached to a sampler comes
with its unit.  Values are uploaded right after the program has been made current, and a
draw call comes right after all that is recorded has been bound. -/
namespace DrawStream.Program
open Machine

variable {p : Program} {m : Machine} {deed : Option Deed} {links : Bool}

theorem always_activate {post : Unit → Machine → Prop}
    (hpost : post () { m with current := p.handle }) :
    p.activate.Always (watch deed links) post m :=
  always_plain rfl rfl hpost

theorem always_deactivate {post : Unit → Machine → Prop}
    (hpost : post () { m with current := 0 }) :
    p.deactivate.Always (watch deed links) post m :=
  always_plain rfl rfl hpost

theorem always_delete {post : Unit → Machine → Prop} (hpost : post () m) :
    p.delete.Always (watch deed links) post m :=
  always_idle (fun _ => rfl) fun _ _ => hpost

/-! ## Linking -/

/-- Takes away the uniforms of a program. -/
def reset (m : Machine) (program : Handle) : Machine :=
  { m with uniforms := Function.update m.uniforms program fun _ => none }

theorem always_compile {stage : Stage} {shader : Handle} {source : String}
    {post : Outcome Unit → Machine → Prop} (hpost : ∀ outcome, post outcome m) :
    (compile stage shader source).Always (watch deed links) post m := by
  simp only [compile, Dialogue.bind_eq, Script.always_bind]
  refine always_idle (fun _ => rfl) fun _ _ => always_idle (fun _ => rfl) fun _ _ =>
    always_idle (fun _ => rfl) fun compiled _ => ?_
  cases compiled with
  | true => exact hpost _
  | false =>
    simp only [Bool.false_eq_true, if_false, Script.always_bind]
    exact always_idle (fun _ => rfl) fun _ _ => hpost _

/-- A link that succeeds takes the uniforms away, and one that fails leaves them. -/
theorem always_linkShaders {vertex fragment : Handle} {post : Outcome Unit → Machine → Prop}
    (hok : post (.ok ()) (reset m p.handle)) (herror : ∀ failure, post (.error failure) m) :
    (p.linkShaders vertex fragment).Always (watch deed links) post m := by
  simp only [linkShaders, linkFault, Dialogue.bind_eq, Script.always_bind]
  refine always_idle (fun _ => rfl) fun _ _ => always_idle (fun _ => rfl) ?_
  intro _ _
  refine always_plain rfl rfl ?_
  refine always_idle (fun _ => rfl) ?_
  intro _ hlinks
  -- The status tells what the machine has made of the link.
  cases hlinks
  cases links with
  | true =>
    exact always_idle (fun _ => rfl) fun _ _ => always_idle (fun _ => rfl) fun _ _ => hok
  | false =>
    simp only [Bool.false_eq_true, if_false, Script.always_bind]
    exact always_idle (fun _ => rfl) fun _ _ => always_idle (fun _ => rfl) fun _ _ =>
      always_idle (fun _ => rfl) fun _ _ => herror _

theorem always_build {vertex fragment : Handle} {vertexSource fragmentSource : String}
    {post : Outcome Unit → Machine → Prop} (hok : post (.ok ()) (reset m p.handle))
    (herror : ∀ failure, post (.error failure) m) :
    (p.build vertex fragment vertexSource fragmentSource).Always (watch deed links) post m := by
  simp only [build, Dialogue.bind_eq, Script.always_bind]
  refine always_compile ?_
  intro first
  cases first with
  | error failure => exact herror failure
  | ok =>
    refine (Script.always_bind _ _).mpr (always_compile fun second => ?_)
    cases second with
    | error failure => exact herror failure
    | ok => exact always_linkShaders hok herror

theorem always_collect {ask : Nat → Request Variable} {count i : Nat}
    {post : List Variable → Machine → Prop}
    (hask : ∀ i v, (Call.ofAnswer? (ask i) v).all Call.idle = true)
    (hpost : ∀ declared, post declared m) :
    (collect ask count i).Always (watch deed links) post m := by
  induction count generalizing i post with
  | zero => exact hpost []
  | succ count ih =>
    simp only [collect, Dialogue.bind_eq, Script.always_bind]
    exact always_idle (hask i) fun _ _ => ih fun _ => hpost _

theorem always_reported {post : List Variable → Machine → Prop}
    (hpost : ∀ declared, post declared m) : p.reported.Always (watch deed links) post m := by
  simp only [reported, Dialogue.bind_eq, Script.always_bind]
  refine always_idle (fun _ => rfl) fun _ _ => always_collect (fun _ _ => rfl) ?_
  intro _
  exact always_idle (fun _ => rfl) fun _ _ => always_collect (fun _ _ => rfl) fun _ => hpost _

/-- What work on a program leaves behind: the device holds nothing else for other objects,
and for the program what the program knows. -/
structure KeptAs (p : Program) (s : Store) (p' : Program) (s' : Store) : Prop where
  steady : s.Steady p.handle s'
  handle : p'.handle = p.handle
  agrees : p'.Agrees s'

theorem always_setShaders {vertex fragment : String} (hp : p.Agrees m.toStore) :
    (p.setShaders vertex fragment).Always (watch deed links)
      (fun r m' => p.KeptAs m.toStore r.2 m'.toStore) m := by
  simp only [setShaders, Dialogue.bind_eq, Script.always_bind]
  refine always_idle (fun _ => rfl) fun _ _ => always_idle (fun _ => rfl) ?_
  intro _ _
  refine always_build ?_ fun failure => ?_
  · refine always_idle (fun _ => rfl) fun _ _ => always_idle (fun _ => rfl) ?_
    intro _ _
    simp only [Script.always_bind]
    refine always_reported fun declared => always_watch_note _ ⟨?_, rfl, ?_, ?_⟩
    · exact .update_uniforms _
    · exact LinkCache.coherent_fresh declared
    · simp only [reset, Function.update_self]
      exact LinkCache.explains_none
  · refine always_idle (fun _ => rfl) fun _ _ => always_idle (fun _ => rfl) ?_
    intro _ _
    exact ⟨.refl _ _, rfl, hp.coherent, hp.explains⟩

/-! ## Looking up and setting -/

/-- Marking names as set changes nothing that the device holds. -/
theorem Agrees.markSet {s : Store} (h : p.Agrees s) (name : String) (count : Nat) :
    Agrees { p with cache := p.cache.markSet name count } s :=
  ⟨h.coherent.of_eq rfl rfl, h.explains⟩

/-- A location that has been found is remembered. -/
theorem always_lookup {kind : VariableKind} {name : String}
    {post : Lookup × Program → Machine → Prop} (hp : p.Agrees m.toStore)
    (hpost : ∀ found p', p'.handle = p.handle → p'.Agrees m.toStore →
      (∀ location, found = .found location → p'.cache.locations.lookup name = some location) →
        post (found, p') m) :
    (p.lookup kind name).Always (watch deed links) post m := by
  unfold lookup
  split
  · next location hknown =>
    refine hpost _ _ rfl hp ?_
    intro _ h
    cases h
    exact hknown
  · next hunknown =>
    split
    · exact hpost _ _ rfl hp fun _ h => by cases h
    · simp only [Dialogue.bind_eq, Script.always_bind]
      refine always_idle (by cases kind <;> exact fun _ => rfl) ?_
      intro location _
      split
      · refine hpost _ _ rfl ⟨?_, hp.explains⟩ fun _ h => by cases h
        exact hp.coherent.of_eq rfl rfl
      · -- The name had no location, so nothing that is explained is hidden by the new one.
        refine hpost _ _ rfl ⟨?_, hp.explains.cons_location hunknown⟩ fun _ h => ?_
        · exact hp.coherent.of_eq rfl rfl
        · cases h
          exact List.lookup_cons_self

theorem always_uniformLocation {name : String} {post : Option Int × Program → Machine → Prop}
    (hp : p.Agrees m.toStore)
    (hpost : ∀ location? p', p'.handle = p.handle → p'.Agrees m.toStore →
      (∀ location, location? = some location →
        p'.cache.locations.lookup name = some location) → post (location?, p') m) :
    (p.uniformLocation name).Always (watch deed links) post m := by
  simp only [uniformLocation, Dialogue.bind_eq, Script.always_bind]
  refine always_lookup hp ?_
  intro found p' hhandle hagrees hfound
  cases found with
  | found location =>
    refine hpost _ _ hhandle hagrees ?_
    intro _ h
    cases h
    exact hfound location rfl
  | knownInvalid => exact hpost _ _ hhandle hagrees fun _ h => by cases h
  | newlyInvalid =>
    refine (Script.always_bind _ _).mpr (always_watch_note _ ?_)
    exact hpost _ _ hhandle hagrees fun _ h => by cases h

/-- An upload sets at most the uniform at its location, and that of the current program. -/
theorem always_upload {work : Bench.Work} {location : Int} {type : UniformType}
    {value : UniformValue} {post : Unit → Machine → Prop} (hwork : work.SetsUniform)
    (hcurrent : m.current = p.handle) (hnone : post () m)
    (hset : ∀ value', post () (m.setUniform (some ⟨.program p, work⟩) location value')) :
    (upload location type value).Always (watch (some ⟨.program p, work⟩) links) post m := by
  have hfits : ∃ q work', (some ⟨.program p, work⟩ : Option Deed) = some ⟨.program q, work'⟩ ∧
      work'.SetsUniform ∧ m.current = q.handle := ⟨p, work, rfl, hwork, hcurrent⟩
  unfold upload
  split
  · exact always_call rfl ⟨hfits, trivial, trivial, trivial⟩ (hset _)
  · exact always_call rfl ⟨hfits, trivial, trivial, trivial⟩ (hset _)
  · exact always_call rfl ⟨hfits, trivial, trivial, trivial⟩ (hset _)
  · exact always_call rfl ⟨hfits, trivial, trivial, trivial⟩ (hset _)
  · exact always_watch_note _ hnone
  · exact always_watch_note _ hnone

/-- Setting a uniform that the cache explains. -/
theorem keptAs_setUniform {p' : Program} {location : Int} {value : UniformValue}
    (hcurrent : m.current = p.handle) (hhandle : p'.handle = p.handle)
    (hcoherent : p'.cache.Coherent)
    (hexplains : p'.cache.Explains
      (Function.update (m.uniforms p.handle) location (some ⟨value, deed⟩))) :
    p.KeptAs m.toStore p' (m.setUniform deed location value).toStore := by
  refine ⟨?_, hhandle, hcoherent, ?_⟩
  · rw [← hcurrent]
    exact .update_uniforms _
  · rw [hhandle]
    simp only [Machine.setUniform, hcurrent, Function.update_self]
    exact hexplains

theorem always_setUniform {name : String} {type : UniformType} {value : UniformValue}
    (hp : p.Agrees m.toStore) :
    (p.setUniform name type value).Always
      (watch (some ⟨.program p, .setUniform name type value⟩) links)
      (fun r m' => p.KeptAs m.toStore r.2 m'.toStore) m := by
  unfold setUniform
  split
  · exact ⟨.refl _ _, rfl, hp⟩
  simp only [Dialogue.bind_eq, Script.always_bind]
  refine always_uniformLocation hp ?_
  intro location? p' hhandle hagrees _
  cases location? with
  | none => exact ⟨.refl _ _, hhandle, hagrees⟩
  | some location =>
    dsimp only
    split
    · exact ⟨.refl _ _, hhandle, hagrees⟩
    · simp only [Script.always_bind]
      refine always_activate (always_upload trivial hhandle ?_ fun value' => ?_)
      · exact ⟨.refl _ _, hhandle, hagrees.markSet _ _⟩
      · have hmarked := hagrees.markSet name (value.length / type.components)
        refine keptAs_setUniform (m := { m with current := p'.handle }) hhandle hhandle
          hmarked.coherent ?_
        refine LinkCache.Explains.update (hhandle ▸ hmarked.explains) ?_
        intro _ _ _ _ h
        cases h

/-- The source of an attribute is only remembered. -/
theorem always_setAttribute {name : String} {type : AttributeType} {source : AttributeSource}
    (hp : p.Agrees m.toStore) :
    (p.setAttribute name type source).Always (watch deed links)
      (fun r m' => p.KeptAs m.toStore r.2 m'.toStore) m := by
  unfold setAttribute
  split
  · exact ⟨.refl _ _, rfl, hp⟩
  simp only [Dialogue.bind_eq, Script.always_bind]
  refine always_lookup hp ?_
  intro found p' hhandle hagrees _
  cases found with
  | knownInvalid => exact ⟨.refl _ _, hhandle, hagrees⟩
  | newlyInvalid =>
    refine (Script.always_bind _ _).mpr (always_watch_note _ ?_)
    exact ⟨.refl _ _, hhandle, hagrees⟩
  | found location =>
    dsimp only
    split
    · exact ⟨.refl _ _, hhandle, hagrees⟩
    · have hmarked := hagrees.markSet name 0
      refine ⟨.refl _ _, hhandle, hmarked.coherent.record, ?_⟩
      exact LinkCache.Explains.record hmarked.explains

/-- Attaching a texture to a sampler uploads the unit at which it will be bound. -/
theorem always_bindSampler {name : String} {target : Nat} {texture : Handle}
    (hp : p.Agrees m.toStore) :
    (p.bindSampler name target texture).Always
      (watch (some ⟨.program p, .bindSampler name target texture⟩) links)
      (fun r m' => p.KeptAs m.toStore r.2 m'.toStore) m := by
  unfold bindSampler
  split
  · exact ⟨.refl _ _, rfl, hp⟩
  simp only [Dialogue.bind_eq, Script.always_bind]
  refine always_uniformLocation hp ?_
  intro location? p' hhandle hagrees hfound
  cases location? with
  | none => exact ⟨.refl _ _, hhandle, hagrees⟩
  | some location =>
    have hmarked := hagrees.markSet name 0
    simp only [Script.always_bind]
    refine always_activate (always_call rfl ?_ ?_)
    · exact ⟨⟨p, _, rfl, trivial, hhandle⟩, trivial, trivial, trivial⟩
    · -- What is uploaded is the unit that attaching has given the sampler.
      refine keptAs_setUniform (m := { m with current := p'.handle }) hhandle hhandle
        hmarked.coherent.attach ?_
      rw [LinkCache.unit?_attach]
      exact LinkCache.Explains.attach (hhandle ▸ hmarked.explains) (hfound location rfl)

/-! ## Drawing -/

/-- Has the device validate the program, and asks what has come of it. -/
def verdict (p : Program) : Script (Outcome Unit) := do
  Script.request (.validateProgram p.handle)
  if ← Script.request (.validateStatus p.handle) then return .ok ()
  return .error (.programValidation (← Script.request (.programLog p.handle)))

theorem validate_eq (p : Program) :
    p.validate =
      if !p.cache.unset.isEmpty then
        Dialogue.bind (Script.note (.unsetVariables (sortNames p.cache.unset))) fun _ => p.verdict
      else p.verdict := rfl

theorem always_verdict {post : Outcome Unit → Machine → Prop}
    (hpost : ∀ outcome, post outcome m) : p.verdict.Always (watch deed links) post m := by
  simp only [verdict, Dialogue.bind_eq, Script.always_bind]
  refine always_idle (fun _ => rfl) fun _ _ => always_idle (fun _ => rfl) ?_
  intro valid _
  cases valid with
  | true => exact hpost _
  | false => exact (Script.always_bind _ _).mpr (always_idle (fun _ => rfl) fun _ _ => hpost _)

theorem always_validate {post : Outcome Unit → Machine → Prop}
    (hpost : ∀ outcome, post outcome m) : p.validate.Always (watch deed links) post m := by
  rw [validate_eq]
  split
  · exact (Script.always_bind _ _).mpr (always_watch_note _ (always_verdict hpost))
  · exact always_verdict hpost

theorem always_validateOnce {post : Outcome Unit × Program → Machine → Prop}
    (hp : p.Agrees m.toStore)
    (hpost : ∀ outcome p', p'.handle = p.handle → p'.Agrees m.toStore → post (outcome, p') m) :
    p.validateOnce.Always (watch deed links) post m := by
  unfold validateOnce
  split
  · exact hpost _ _ rfl hp
  · refine (Script.always_bind _ _).mpr (always_validate fun outcome => ?_)
    refine hpost _ _ rfl ⟨?_, hp.explains⟩
    exact hp.coherent.of_eq rfl rfl

/-- The draw call with the numbers of a selection. -/
def exactCall : Selection → DrawCall
  | .elements buffer type count => .elements buffer type count
  | .range first count => .range first count

theorem eq_of_drawCall {selection : Selection} {call : DrawCall}
    (h : drawCall selection = .ok call) : call = exactCall selection := by
  obtain ⟨count, hcount, h⟩ := ok_of_bind h
  cases eq_of_quantity hcount
  cases selection with
  | elements buffer type n =>
    cases h
    rfl
  | range first n =>
    obtain ⟨k, hfirst, h⟩ := ok_of_bind h
    cases eq_of_quantity hfirst
    cases h
    rfl

/-- A draw call of a program that is ready is as is demanded. -/
theorem always_issue {mode : DrawMode} {selection : Selection} {call : DrawCall}
    {post : Unit → Machine → Prop} (hcall : drawCall selection = .ok call) (hready : m.Ready p)
    (hpost : ∀ m', m'.toStore = m.toStore → post () m') :
    (call.issue mode).Always (watch (some ⟨.program p, .draw mode selection⟩) links) post m := by
  cases eq_of_drawCall hcall
  cases selection with
  | elements buffer type count =>
    simp only [DrawCall.issue, Dialogue.bind_eq]
    refine always_plain rfl rfl ?_
    refine always_call rfl ⟨trivial, ?_, trivial, trivial⟩ ?_
    · refine ⟨p, mode, buffer, type, count, rfl, rfl, rfl, rfl, ?_, m.buffers_bindBuffer _ _⟩
      exact ⟨hready.current, hready.samplers, hready.attributes⟩
    · exact always_plain rfl rfl (hpost _ rfl)
  | range first count =>
    refine always_call rfl ⟨trivial, ?_, trivial, trivial⟩ (hpost _ rfl)
    exact ⟨p, mode, first, count, rfl, rfl, rfl, rfl, hready⟩

/-- **A draw makes its call when all is ready.** -/
theorem always_draw {mode : DrawMode} {selection : Selection} (hp : p.Agrees m.toStore) :
    (p.draw mode selection).Always (watch (some ⟨.program p, .draw mode selection⟩) links)
      (fun r m' => p.KeptAs m.toStore r.2 m'.toStore) m := by
  unfold draw
  split
  · exact ⟨.refl _ _, rfl, hp⟩
  split
  · exact ⟨.refl _ _, rfl, hp⟩
  split
  · exact ⟨.refl _ _, rfl, hp⟩
  next call hcall =>
  refine (Script.always_bind _ _).mpr (always_watch_checkErrors fun checked => ?_)
  cases checked with
  | error failure => exact ⟨.refl _ _, rfl, hp⟩
  | ok =>
    simp only [Dialogue.bind_eq, Script.always_bind]
    refine always_bindAll fun order => ?_
    have hstore : (m.bindAll order).toStore = m.toStore := bindAll_toStore order
    -- Validating asks much but binds nothing, so the machine is still as `bindAll` left it
    -- when the draw call comes.
    refine always_validateOnce (hstore ▸ hp) fun outcome p' hhandle hagrees => ?_
    cases outcome with
    | error failure => exact ⟨.of_eq hstore, hhandle, hagrees⟩
    | ok =>
      simp only [Script.always_bind]
      refine always_issue hcall (ready_bindAll hp order) ?_
      intro m' hm'
      refine always_watch_checkErrors fun outcome => ⟨.of_eq (hm'.trans hstore), hhandle, ?_⟩
      exact hm' ▸ hagrees

end DrawStream.Program
