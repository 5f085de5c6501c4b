import DrawStream.Proofs.Executions

/-! # Everything on a bench stays in step with the device

The objects of the context and one's own form one pool (`Bench.at?`), and a bench is in
step with a machine if this pool is sound (`Bench.InStep`).  Every action leads from one
bench in step to another, by calls that are as demanded (`Bench.leads_act`).  By induction
the same holds of whole runs, and so of those that start from a bench without objects
(`Bench.follows_fresh`). -/
namespace DrawStream
open Machine
open Command (Id)

/-! ## New objects -/

/-- An object that has just been created by a call.  Its handle is beyond all that the
recorder `r` had given out, and the recorder afterwards, `r'`, answers as before. -/
structure Object.New (r : Recorder) (o : Object) (call : Call) (r' : Recorder) : Prop where
  failLink : r'.failLink = r.failLink
  last : r'.lastHandle = o.handle
  beyond : r.lastHandle < o.handle
  fits : ∀ (m : Machine) deed links, m.Fits ⟨call, deed, links⟩
  steady : ∀ (m : Machine) deed links,
    m.toStore.Steady o.handle (m.obey ⟨call, deed, links⟩).toStore
  agrees : ∀ (m : Machine) deed links, o.Agrees (m.obey ⟨call, deed, links⟩).toStore

/-- The device holds nothing yet for what is created. -/
theorem Object.run_create (usage : BufferUsage) (kind : ObjectKind) (r : Recorder) :
    ∃ o call r', (Object.create usage kind).run r = ⟨o, r', [.call call]⟩ ∧
      Object.New r o call r' := by
  cases kind with
  | vertexBuffer | indexBuffer =>
    refine ⟨_, .createBuffer (r.lastHandle + 1), _, rfl, rfl, rfl, Nat.lt_succ_self _, ?_, ?_, ?_⟩
    · intro m deed links
      exact fits_of_not_demanding rfl
    · intro m deed links
      exact .update_sizes 0
    · intro m deed links
      exact ⟨Function.update_self .., Nat.zero_le _⟩
  | texture =>
    refine ⟨_, .createTexture (r.lastHandle + 1), _, rfl, rfl, rfl, Nat.lt_succ_self _, ?_, ?_, ?_⟩
    · intro m deed links
      exact fits_of_not_demanding rfl
    · intro m deed links
      exact .update_images none
    · intro m deed links
      exact Function.update_self ..
  | program =>
    refine ⟨.program { handle := r.lastHandle + 1 }, .createProgram (r.lastHandle + 1), _, rfl,
      rfl, rfl, Nat.lt_succ_self _, ?_, ?_, ?_⟩
    · intro m deed links
      exact fits_of_not_demanding rfl
    · intro m deed links
      exact .update_uniforms _
    · intro m deed links
      refine ⟨⟨List.nodup_nil, rfl, List.nodup_nil⟩, ?_⟩
      simp only [obey, Function.update_self]
      exact LinkCache.explains_none

/-! ## Benches in step -/

/-- The pool with one's own objects beside those of the context. -/
theorem Moved.inl {f f' : Id → Option Object} {g : String → Option Object} {s s' : Store}
    (h : Moved f s f' s') : Moved (Sum.elim f g) s (Sum.elim f' g) s' := by
  cases h with
  | same => exact .same
  | @work k o after _ found kept =>
    rw [← Sum.update_elim_inl]
    exact .work (k := Sum.inl k) found kept

namespace Bench

/-- An object of the context, by its number, or one's own, by its name. -/
def at? (b : Bench) : Id ⊕ String → Option Object := Sum.elim b.context.object? b.named?

/-- All objects on the bench agree with what the device holds. -/
def InStep (b : Bench) (m : Machine) : Prop := Sound b.at? b.recorder.lastHandle m.toStore

/-- Episodes lead to a bench: their calls are those that are demanded, and the bench is in
step when they are over. -/
structure Leads (m : Machine) (episodes : List Episode) (b : Bench) : Prop where
  fits : Throughout Fits m (episodes.flatMap Episode.entries)
  inStep : b.InStep (m.run (episodes.flatMap Episode.entries))

variable {b b' : Bench} {m : Machine}

namespace Leads

/-- Nothing has come about. -/
theorem nil (h : b.InStep m) : Leads m [] b := ⟨trivial, h⟩

theorem single {e : Episode} (hfits : Throughout Fits m e.entries)
    (h : b.InStep (m.run e.entries)) : Leads m [e] b := by
  constructor <;> rwa [List.flatMap_singleton]

theorem append {xs ys : List Episode} (h : Leads m xs b)
    (h' : Leads (m.run (xs.flatMap Episode.entries)) ys b') : Leads m (xs ++ ys) b' := by
  constructor
  · rw [List.flatMap_append]
    exact throughout_append.mpr ⟨h.fits, h'.fits⟩
  · rw [List.flatMap_append, run_append]
    exact h'.inStep

end Leads

/-! ## The context -/

/-- A new object joins those of the context, unless its number is taken. -/
theorem leads_create (h : b.InStep m) (id : Id) (kind : ObjectKind) :
    Leads m [b.context.episode b.recorder (.create id kind)]
      (b.execute (.create id kind)).2 := by
  cases hfree : b.context.object? id with
  | some old =>
    have hrun : (b.context.execute (.create id kind)).run b.recorder =
        ⟨(.error (.duplicateObject id), b.context), b.recorder,
          [.note (.executing (.create id kind))]⟩ := by
      simp [Context.execute, Context.carryOut, Context.create, hfree, Context.refuse,
        Script.run_bind]
    unfold execute Context.episode
    rw [hrun]
    exact .single trivial h
  | none =>
    obtain ⟨o, call, r, hcreate, hnew⟩ := Object.run_create b.context.usage kind b.recorder
    have hrun : (b.context.execute (.create id kind)).run b.recorder =
        ⟨(.ok (), b.context.put id o), r,
          [.note (.executing (.create id kind)), .call call,
            .note (.created kind id o.handle)]⟩ := by
      simp [Context.execute, Context.carryOut, Context.create, hfree, hcreate, Script.run_bind]
    unfold execute Context.episode
    rw [hrun]
    refine .single ⟨hnew.fits _ _ _, trivial⟩ ?_
    have hsound := Sound.insert h (hnew.steady _ _ _)
      (hnew.agrees m (b.context.deed? (.create id kind)) (!b.recorder.failLink)) hnew.beyond
      (Sum.inl id)
    rw [at?, Sum.update_elim_inl, ← Context.object?_put, ← hnew.last] at hsound
    exact hsound

theorem leads_execute (h : b.InStep m) (command : Command) :
    Leads m [b.context.episode b.recorder command] (b.execute command).2 := by
  by_cases hcreate : ∃ id kind, command = .create id kind
  · obtain ⟨id, kind, rfl⟩ := hcreate
    exact leads_create h id kind
  · have hold : ∀ id kind, command ≠ .create id kind := fun id kind heq => hcreate ⟨id, kind, heq⟩
    obtain ⟨hfits, hmoved, hlast⟩ :=
      (Context.always_execute (fun id o ho => h.agrees (.inl id) o ho) h.alignment hold).episode
        b.recorder
    exact .single hfits (h.moved hmoved.inl hlast)

theorem leads_submit (h : b.InStep m) (command : Command) :
    Leads m (b.submitEpisodes command) (b.submit command).2 := by
  unfold submitEpisodes submit Context.submit
  cases b.context.deferred with
  | true => exact .nil h
  | false => exact leads_execute h command

theorem leads_submitEach (h : b.InStep m) (commands : List Command) :
    Leads m (b.submitEachEpisodes commands) (b.submitEach commands).2 := by
  induction commands generalizing b m with
  | nil => exact .nil h
  | cons command rest ih =>
    have hfirst := leads_submit h command
    exact hfirst.append (ih hfirst.inStep)

/-- The context and the device after executing commands that wait. -/
theorem leads_executeAll (h : b.InStep m) (count : Nat) (commands : List Command) :
    Leads m (b.context.episodes b.recorder commands)
      { b with
        context := ((b.context.executeAll count commands).run b.recorder).value.2
        recorder := ((b.context.executeAll count commands).run b.recorder).device } := by
  induction commands generalizing b m count with
  | nil => exact .nil h
  | cons command waiting ih =>
    -- The command runs while the others wait; that is nothing to the objects.
    have hfirst := leads_execute (b := { b with context := { b.context with queue := waiting } })
      h command
    simp only [execute, after] at hfirst
    simp only [Context.episodes, Context.executeAll, Dialogue.bind_eq, Script.run_bind]
    rcases hran : (Context.execute { b.context with queue := waiting } command).run b.recorder with
      ⟨⟨outcome, context⟩, device, events⟩
    rw [hran] at hfirst
    cases outcome with
    | error failure => exact hfirst
    | ok => exact hfirst.append (ih hfirst.inStep (count + 1))

theorem leads_executePending (h : b.InStep m) :
    Leads m (b.context.episodes b.recorder b.context.queue) b.executePending.2 := by
  have hall := leads_executeAll h 0 b.context.queue
  simp only [executePending, Context.executePending, Dialogue.bind_eq, Script.run_bind, after]
  rcases hran : (b.context.executeAll 0 b.context.queue).run b.recorder with
    ⟨⟨outcome, context⟩, device, events⟩
  rw [hran] at hall
  cases outcome with
  | error failure => exact hall
  | ok count => by_cases hcount : 0 < count <;> simpa [hcount, Script.run_bind] using hall

/-! ## Work on objects -/

/-- Work on an object of the bench. -/
theorem workEpisode_keptAs (h : b.InStep m) {k : Id ⊕ String} {object : Object} {work : Work}
    (hfound : b.at? k = some object) (hsized : work.Sized) :
    let ran := (workOn b.named? object work).run b.recorder
    let entries := (b.workEpisode object work).entries
    Throughout Fits m entries ∧
      object.KeptAs m.toStore ran.value.2 (m.run entries).toStore ∧
      b.recorder.lastHandle ≤ ran.device.lastHandle :=
  (always_workOn (h.agrees k object hfound) h.alignment hsized).episode b.recorder

/-- The object of the context is replaced, or it is gone. -/
theorem use_of_found {id : Id} {object : Object} (hfound : b.context.object? id = some object)
    (work : Work) :
    let ran := (workOn b.named? object work).run b.recorder
    (b.use id work).2.recorder = ran.device ∧
      (b.use id work).2.at? = Function.update b.at? (.inl id) ran.value.2 := by
  simp only [use, hfound, at?]
  rcases (workOn b.named? object work).run b.recorder with ⟨⟨answer, after⟩, device, events⟩
  refine ⟨rfl, ?_⟩
  rw [Sum.update_elim_inl]
  cases after with
  | none => exact congrArg (Sum.elim · b.named?) (Context.object?_remove ..)
  | some x => exact congrArg (Sum.elim · b.named?) (Context.object?_put ..)

/-- One's own object is replaced, or it is gone. -/
theorem work_of_found {name : String} {object : Object} (hfound : b.named? name = some object)
    (work : Work) :
    let ran := (workOn b.named? object work).run b.recorder
    (b.work name work).2.recorder = ran.device ∧
      (b.work name work).2.at? = Function.update b.at? (.inr name) ran.value.2 := by
  simp only [Bench.work, hfound, at?]
  rcases (workOn b.named? object work).run b.recorder with ⟨⟨answer, after⟩, device, events⟩
  refine ⟨rfl, ?_⟩
  rw [Sum.update_elim_inr]
  refine congrArg (Sum.elim b.context.object?) ?_
  cases after with
  | none => exact lookup_without b.named name
  | some x =>
    refine (lookup_replace b.named name x).trans ?_
    rw [show b.named.lookup name = some object from hfound]
    rfl

theorem leads_use (h : b.InStep m) (id : Id) {work : Work} (hsized : work.Sized) :
    Leads m (b.episodes (.use id work hsized)) (b.use id work).2 := by
  cases hfound : b.context.object? id with
  | none =>
    simp only [episodes, use, hfound]
    exact .nil h
  | some object =>
    obtain ⟨hfits, hkept, hlast⟩ := workEpisode_keptAs (k := Sum.inl id) h hfound hsized
    obtain ⟨hrecorder, hat⟩ := use_of_found hfound work
    simp only [episodes, hfound]
    refine .single hfits ?_
    unfold InStep
    rw [hrecorder, hat]
    exact h.moved (.work (k := Sum.inl id) hfound hkept) hlast

theorem leads_work (h : b.InStep m) (name : String) {work : Work} (hsized : work.Sized) :
    Leads m (b.stepEpisodes (.work name work)) (b.work name work).2 := by
  cases hfound : b.named? name with
  | none =>
    simp only [stepEpisodes, Bench.work, hfound]
    exact .nil h
  | some object =>
    obtain ⟨hfits, hkept, hlast⟩ := workEpisode_keptAs (k := Sum.inr name) h hfound hsized
    obtain ⟨hrecorder, hat⟩ := work_of_found hfound work
    simp only [stepEpisodes, hfound]
    refine .single hfits ?_
    unfold InStep
    rw [hrecorder, hat]
    exact h.moved (.work (k := Sum.inr name) hfound hkept) hlast

/-- The place of a name after an object of that name has been created. -/
theorem at?_concat (name : String) (x : Object) (r : Recorder) :
    at? { b with named := b.without name ++ [(name, x)], recorder := r } =
      Function.update b.at? (.inr name) (some x) := by
  unfold at?
  rw [Sum.update_elim_inr]
  refine congrArg (Sum.elim b.context.object?) ?_
  have hwithout := lookup_without b.named name
  have hnone : (b.without name).lookup name = none :=
    (congrFun hwithout name).trans (Function.update_self ..)
  refine (lookup_concat x hnone).trans ?_
  refine (congrArg (Function.update · name (some x)) hwithout).trans ?_
  exact Function.update_idem ..

theorem leads_createNamed (h : b.InStep m) (name : String) (kind : ObjectKind)
    (usage : Option BufferUsage) :
    Leads m (b.stepEpisodes (.create name kind usage)) (b.create name kind usage).2 := by
  obtain ⟨x, call, r, hcreate, hnew⟩ :=
    Object.run_create (usage.getD .dynamicDraw) kind b.recorder
  simp only [stepEpisodes, perform, create, after, Dialogue.bind_eq, Script.run_bind, hcreate]
  cases hold : b.named? name with
  | none =>
    refine .single ⟨hnew.fits _ _ _, trivial⟩ ?_
    have hsound := Sound.insert h (hnew.steady _ _ _)
      (hnew.agrees m none (!b.recorder.failLink)) hnew.beyond (Sum.inr name)
    rw [← b.at?_concat name x r, ← hnew.last] at hsound
    exact hsound
  | some old =>
    -- The older object is deleted after the new one has come, when the machine holds both.
    have hdelete : old.delete.Always (watch none (!r.failLink)) _
        (m.obey ⟨call, none, !r.failLink⟩) := Object.always_delete
    obtain ⟨hfits, hgone, hlast⟩ := hdelete.episode r
    have hsound := (Sound.replace h (hnew.steady m none (!r.failLink)) (hnew.agrees _ _ _)
      hnew.beyond (k := Sum.inr name) hold hgone).moved .same (hnew.last ▸ hlast)
    rw [hnew.failLink] at hfits hsound
    rw [← b.at?_concat name x (old.delete.run r).device] at hsound
    simp only [Script.run_bind, Dialogue.pure_eq_done, Script.run_done, List.append_nil]
    exact .single ⟨hnew.fits _ _ _, hfits⟩ hsound

/-! ## Steps, actions and runs -/

/-- A script that leaves the objects alone, and the machine too. -/
theorem leads_consult {α : Type} {x : Script α} (answer : α → Answer) (h : b.InStep m)
    (hx : ∀ links, x.Always (watch none links) (fun _ m' => m' = m) m) :
    Leads m [⟨none, !b.recorder.failLink, (b.consult x answer).1.events⟩]
      (b.consult x answer).2 := by
  obtain ⟨hfits, hsame, hlast⟩ := (hx _).episode b.recorder
  have hsound := h.moved .same hlast
  rw [← hsame] at hsound
  exact .single hfits hsound

theorem leads_step (h : b.InStep m) {step : Step} (hsized : step.Sized) :
    Leads m (b.stepEpisodes step) (b.perform step).2 := by
  cases step with
  | commands text =>
    simp only [stepEpisodes, perform]
    cases Command.readAll text with
    | error fault => exact .nil h
    | ok commands => exact leads_submitEach h commands
  | setDeferred deferred => exact .single trivial h
  | executePending => exact leads_executePending h
  | object id => exact .single trivial h
  | program id =>
    have hperform : (b.perform (.program id)).1.events = [] ∧ (b.perform (.program id)).2 = b := by
      simp only [perform]
      split
      · exact ⟨rfl, rfl⟩
      · split <;> exact ⟨rfl, rfl⟩
    simp only [stepEpisodes]
    rw [hperform.1, hperform.2]
    exact .single trivial h
  | script change =>
    have hlast : (change.apply b.recorder).lastHandle = b.recorder.lastHandle := by
      cases change <;> rfl
    refine .single trivial ?_
    change Sound b.at? (change.apply b.recorder).lastHandle m.toStore
    rw [hlast]
    exact h
  | takeError => exact leads_consult _ h fun _ => always_idle (fun _ => rfl) fun _ _ => rfl
  | uniformLocation name =>
    exact leads_consult _ h fun _ => always_idle (fun _ => rfl) fun _ _ => rfl
  | attributeLocation name =>
    exact leads_consult _ h fun _ => always_idle (fun _ => rfl) fun _ _ => rfl
  | checkErrors checkpoint => exact leads_consult _ h fun _ => always_watch_checkErrors fun _ => rfl
  | create name kind usage => exact leads_createNamed h name kind usage
  | work name work => exact leads_work h name hsized

/-- **Every action is followed by the machine.** -/
theorem leads_act (h : b.InStep m) (action : Action) :
    Leads m (b.episodes action) (b.act action) := by
  cases action with
  | submit command => exact leads_submit h command
  | execute command => exact leads_execute h command
  | use id work hsized => exact leads_use h id hsized
  | step step hsized => exact leads_step h hsized

/-- Whole runs are followed by the machine. -/
theorem follows (h : b.InStep m) (actions : List Action) :
    Throughout Fits m (b.history actions) ∧
      (b.actAll actions).InStep (m.run (b.history actions)) := by
  induction actions generalizing b m with
  | nil => exact ⟨trivial, h⟩
  | cons action rest ih =>
    -- The rest starts from the bench and the machine that the first action leaves.
    have hfirst := leads_act h action
    obtain ⟨hfits, hend⟩ := ih hfirst.inStep
    simp only [history, actAll, throughout_append, run_append]
    exact ⟨⟨hfirst.fits, hfits⟩, hend⟩

/-- A new bench is in step with a device that has only been set up. -/
theorem inStep_fresh (deferred : Bool) (usage : BufferUsage) (recorder : Recorder) :
    (fresh deferred usage recorder).InStep {} := by
  have hat : (fresh deferred usage recorder).at? = fun _ => none := by
    funext k
    cases k <;> rfl
  unfold InStep
  rw [hat]
  exact .empty rfl

/-- **Whatever is done on a new bench, every call is as demanded, and in the end the objects
agree with what the device holds.** -/
theorem follows_fresh (deferred : Bool) (usage : BufferUsage) (recorder : Recorder)
    (actions : List Action) :
    Throughout Fits {} ((fresh deferred usage recorder).history actions) ∧
      ((fresh deferred usage recorder).actAll actions).InStep
        (run {} ((fresh deferred usage recorder).history actions)) :=
  follows (inStep_fresh deferred usage recorder) actions

end Bench
end DrawStream
