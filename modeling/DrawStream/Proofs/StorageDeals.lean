import DrawStream.Proofs.Handles
import DrawStream.Proofs.Refusals
import DrawStream.Proofs.StorageRequests

/-! # Who is asked for storage

Whatever is done on a bench, each deal is one of two things (`Bench.Deal.affects`).  It may be a
request for storage to one object; then only the place of this object is another one afterwards,
as it was settled.  Otherwise it spares the buffers and textures: one may have been deleted, and
one may have been created, without storage and under a new handle, but all others are as they
were.  Work on objects is looked at kind by kind (`Bench.treated_workOn`), and commands one by
one (`Context.spares_execute`, `Context.affects_size`). -/
namespace DrawStream
open Machine
open Command (Id)

/-! ## Who is asked -/

/-- What becomes of an object when a deed is done: the answer, the calls, and the object
afterwards.  What a buffer or a texture is changes only if storage is asked for. -/
inductive Object.Treated (o : Object) (deed : Deed) :
    Bench.Answer → List Call → Option Object → Prop
  | unasked {answer : Bench.Answer} {calls : List Call} {after : Option Object}
      (quiet : deed.asked? = none) (same : ∀ x, after = some x → x = o ∨ x.holder? = none) :
      Treated o deed answer calls after
  | asked {holder : Holder} {a : Allocation} {answer : Bench.Answer} {calls : List Call}
      {o' : Object} (holds : o.holder? = some holder) (asked : deed.asked? = some (holder, a))
      (settles : o.Settles a answer calls o') : Treated o deed answer calls (some o')

/-- Work other than a request for storage. -/
def Bench.Work.Unasking : Bench.Work → Prop
  | .bufferSetSize _ | .textureSetSize _ => False
  | _ => True

theorem Bench.Work.Unasking.quiet {object : Object} {work : Bench.Work} (h : work.Unasking) :
    Deed.asked? ⟨object, work⟩ = none := by
  cases work with
  | bufferSetSize | textureSetSize => exact h.elim
  | _ => cases object <;> rfl

namespace Bench
variable {σ : Type} [Device σ] {find : String → Option Object} {object : Object} {deed : Deed}
  {work : Work} {d : σ}

theorem Work.Unasking.resolve (h : work.Unasking) : (work.resolve find).Unasking := by
  cases work with
  | setTexture name texture =>
    simp only [Work.resolve]
    split <;> trivial
  | _ => exact h

theorem treated_simply (quiet : deed.asked? = none) (x : Script Unit) :
    object.Treated deed ((simply object x).run d).value.1
      (Event.calls ((simply object x).run d).events) ((simply object x).run d).value.2 := by
  refine .unasked quiet fun y hy => .inl ?_
  simpa [simply, Script.run_bind] using hy.symm

theorem treated_checked (quiet : deed.asked? = none) (x : Script (Outcome Unit)) :
    object.Treated deed ((checked object x).run d).value.1
      (Event.calls ((checked object x).run d).events) ((checked object x).run d).value.2 := by
  refine .unasked quiet fun y hy => .inl ?_
  simpa [checked, Script.run_bind] using hy.symm

theorem treated_onProgram (quiet : deed.asked? = none) (x : Script (Outcome Unit × Program)) :
    object.Treated deed ((onProgram x).run d).value.1
      (Event.calls ((onProgram x).run d).events) ((onProgram x).run d).value.2 := by
  refine .unasked quiet fun y hy => .inr ?_
  have hprogram : Object.program (x.run d).value.2 = y := by
    simpa [onProgram, Script.run_bind] using hy
  rw [← hprogram]
  rfl

theorem treated_unsuited (quiet : deed.asked? = none) :
    object.Treated deed ((unsuited object).run d).value.1
      (Event.calls ((unsuited object).run d).events) ((unsuited object).run d).value.2 := by
  refine .unasked quiet fun y hy => .inl ?_
  cases hy
  rfl

theorem treated_workOnBuffer {wrap : Buffer → Object} (h : Object.Wraps wrap) {b : Buffer} :
    (wrap b).Treated ⟨wrap b, work.resolve find⟩
      ((workOnBuffer (wrap b) b wrap work).run d).value.1
      (Event.calls ((workOnBuffer (wrap b) b wrap work).run d).events)
      ((workOnBuffer (wrap b) b wrap work).run d).value.2 := by
  have hquiet : work.Unasking → Deed.asked? ⟨wrap b, work.resolve find⟩ = none :=
    fun h => h.resolve.quiet
  cases work with
  | bufferSetSize n =>
    simpa [workOnBuffer, Script.run_bind] using .asked (h.holder b) (h.asked b n) (h.settles b n d)
  | bufferSetData => exact treated_checked (hquiet trivial) _
  | textureSetSize s => exact treated_unsuited (h.unasked b s)
  | _ => exact treated_unsuited (hquiet trivial)

theorem treated_workOnTexture {t : Texture} :
    (Object.texture t).Treated ⟨.texture t, work.resolve find⟩
      ((workOnTexture t work).run d).value.1 (Event.calls ((workOnTexture t work).run d).events)
      ((workOnTexture t work).run d).value.2 := by
  have hquiet : work.Unasking → Deed.asked? ⟨.texture t, work.resolve find⟩ = none :=
    fun h => h.resolve.quiet
  cases work with
  | textureSetSize s =>
    have hsettles := Object.settles_setStorage t s d
    simpa [workOnTexture, Script.run_bind] using .asked rfl rfl hsettles
  | textureSetData => exact treated_checked (hquiet trivial) _
  | textureSetWrapping | textureSetInterpolation =>
    exact treated_simply (hquiet trivial) _
  | bufferSetSize => exact treated_unsuited rfl
  | _ => exact treated_unsuited (hquiet trivial)

theorem treated_workOnProgram {p : Program} :
    (Object.program p).Treated ⟨.program p, work.resolve find⟩
      ((workOnProgram find p work).run d).value.1
      (Event.calls ((workOnProgram find p work).run d).events)
      ((workOnProgram find p work).run d).value.2 := by
  have hquiet : Deed.asked? ⟨.program p, work.resolve find⟩ = none := by
    generalize work.resolve find = resolved
    cases resolved <;> rfl
  cases work with
  | activation =>
    refine .unasked hquiet fun y hy => .inl ?_
    simpa [workOnProgram, Script.run_bind] using hy.symm
  | setTexture name texture =>
    unfold workOnProgram
    dsimp only
    split
    · exact treated_onProgram hquiet _
    · exact treated_unsuited hquiet
  | setShaders | setUniform | setAttribute | bindSampler | draw =>
    exact treated_onProgram hquiet _
  | _ => exact treated_unsuited hquiet

/-- **Work on an object settles what is asked of it, and otherwise spares it.** -/
theorem treated_workOn :
    object.Treated ⟨object, work.resolve find⟩ ((workOn find object work).run d).value.1
      (Event.calls ((workOn find object work).run d).events)
      ((workOn find object work).run d).value.2 := by
  have hquiet : work.Unasking → Deed.asked? ⟨object, work.resolve find⟩ = none :=
    fun h => h.resolve.quiet
  cases work with
  | activate | deactivate => exact treated_simply (hquiet trivial) _
  | delete =>
    refine .unasked (hquiet trivial) fun y hy => ?_
    simp [workOn, Script.run_bind] at hy
  | _ =>
    cases object with
    | vertexBuffer b => exact treated_workOnBuffer Object.wraps_vertexBuffer
    | indexBuffer b => exact treated_workOnBuffer Object.wraps_indexBuffer
    | texture t => exact treated_workOnTexture
    | program p => exact treated_workOnProgram

end Bench

/-! ## Pools -/

namespace Answered
variable {κ : Type} {pool pool' : κ → Option Object} {last : Handle} {reply : Answered}

/-- The buffers and textures of a pool are what they were, but for new ones. -/
def Spares (last : Handle) (pool pool' : κ → Option Object) : Prop :=
  ∀ k x holder, pool' k = some x → x.holder? = some holder →
    pool k = some x ∨ x.allocation = .nothing ∧ last < holder.handle

/-- **What a reply is to a pool**: an object has been asked for storage, or no buffer and no
texture has changed. -/
inductive Affects [DecidableEq κ] (reply : Answered) (last : Handle)
    (pool pool' : κ → Option Object) : Prop
  | unasked (quiet : reply.asked? = none) (spares : Spares last pool pool')
  | asked {k : κ} {o : Object} {holder : Holder} {a : Allocation} {o' : Object}
      (found : pool k = some o) (holds : o.holder? = some holder)
      (asked : reply.asked? = some (holder, a))
      (settles : o.Settles a reply.answer (Event.calls reply.episode.events) o')
      (after : pool' = Function.update pool k (some o'))

theorem Spares.refl (last : Handle) (pool : κ → Option Object) : Spares last pool pool :=
  fun _ _ _ hx _ => .inl hx

theorem Spares.update [DecidableEq κ] {k : κ} {after : Option Object}
    (h : ∀ x holder, after = some x → x.holder? = some holder →
      pool k = some x ∨ x.allocation = .nothing ∧ last < holder.handle) :
    Spares last pool (Function.update pool k after) := by
  intro j x holder hx hholder
  by_cases hj : j = k
  · subst hj
    rw [Function.update_self] at hx
    exact h x holder hx hholder
  · rw [Function.update_of_ne hj] at hx
    exact .inl hx

/-- What has been treated is one object of the pool. -/
theorem affects_of_treated [DecidableEq κ] {k : κ} {o : Object} (found : pool k = some o)
    {deed : Deed} (hdeed : reply.episode.deed = some deed) {after : Option Object}
    (h : o.Treated deed reply.answer (Event.calls reply.episode.events) after) :
    reply.Affects last pool (Function.update pool k after) := by
  have hasked : reply.asked? = deed.asked? := by
    unfold asked?
    rw [hdeed]
    rfl
  cases h with
  | unasked quiet same =>
    refine .unasked (hasked.trans quiet) (.update fun x holder hx hholder => .inl ?_)
    rcases same x hx with rfl | hnone
    · exact found
    · cases hnone.symm.trans hholder
  | asked holds asked settles => exact .asked found holds (hasked.trans asked) settles rfl

/-- What holds of the objects of a context holds with one's own beside them. -/
theorem Affects.inl {f f' : Id → Option Object} {g : String → Option Object}
    (h : reply.Affects last f f') : reply.Affects last (Sum.elim f g) (Sum.elim f' g) := by
  cases h with
  | unasked quiet spares =>
    refine .unasked quiet fun k x holder hx hholder => ?_
    cases k with
    | inl id => exact spares id x holder hx hholder
    | inr name => exact .inl hx
  | @asked id _ _ _ _ found holds asked settles after =>
    exact .asked (k := Sum.inl id) found holds asked settles (after ▸ Sum.update_elim_inl.symm)

end Answered

/-! ### Commands -/

/-- There is no storage for what has just been created, and its handle is new. -/
theorem Object.value_create (usage : BufferUsage) (kind : ObjectKind) (r : Recorder) :
    ((create usage kind).run r).value.allocation = .nothing ∧
      r.lastHandle < ((create usage kind).run r).value.handle := by
  cases kind <;> exact ⟨rfl, Nat.lt_succ_self _⟩

namespace Context
open Answered
variable {c : Context} {id : Id} {r : Recorder} {command : Command}

theorem spares_onProgram (act : Program → Script (Outcome Unit × Program)) :
    Spares r.lastHandle c.object? ((c.onProgram id act).run r).value.2.object? := by
  rcases run_onProgram (σ := Recorder) c id act with ⟨failure, -, hrun⟩ | ⟨p, -, hrun⟩
  · rw [hrun]
    exact .refl _ _
  · rw [hrun, object?_put]
    refine .update fun x holder hx hholder => ?_
    cases hx
    cases hholder

theorem spares_onTexture (act : Texture → Script Unit) :
    Spares r.lastHandle c.object? ((c.onTexture id act).run r).value.2.object? := by
  unfold onTexture
  split
  · exact .refl _ _
  · simpa [Script.run_bind] using Spares.refl r.lastHandle c.object?

theorem spares_create {kind : ObjectKind} :
    Spares r.lastHandle c.object? ((c.create id kind).run r).value.2.object? := by
  unfold create
  split
  · exact .refl _ _
  · obtain ⟨hnothing, hnew⟩ := Object.value_create c.usage kind r
    simp only [Dialogue.bind_eq, Script.run_bind, Dialogue.pure_eq_done, Script.run_done]
    rw [object?_put]
    refine .update fun x holder hx hholder => .inr ?_
    cases hx
    exact ⟨hnothing, Object.handle_of_holder? hholder ▸ hnew⟩

theorem spares_delete :
    Spares r.lastHandle c.object? ((c.delete id).run r).value.2.object? := by
  unfold delete
  split
  · exact .refl _ _
  · simp only [Dialogue.bind_eq, Script.run_bind, Dialogue.pure_eq_done, Script.run_done]
    rw [object?_remove]
    exact .update fun _ _ hx _ => by cases hx

theorem value_setBufferData {b : Buffer} {offset : Command.Offset} {data : Elements} :
    ((c.setBufferData id b offset data).run r).value.2 = c := by
  unfold setBufferData
  split
  · rfl
  · simp [Script.run_bind]

theorem value_setTextureData {t : Texture} {offset : Command.Offset}
    {shape : Option (Command.Count × Command.Count)} {data : Elements} :
    ((c.setTextureData id t offset shape data).run r).value.2 = c := by
  unfold setTextureData
  split
  · rfl
  · split
    · rfl
    · simp [Script.run_bind]

theorem spares_setData {offset : Command.Offset}
    {shape : Option (Command.Count × Command.Count)} {data : Elements} :
    Spares r.lastHandle c.object? ((c.setData id offset shape data).run r).value.2.object? := by
  have hsame : ((c.setData id offset shape data).run r).value.2 = c := by
    unfold setData
    split
    · rfl
    · exact value_setBufferData
    · exact value_setBufferData
    · exact value_setTextureData
    · rfl
  rw [hsame]
  exact .refl _ _

/-- Only a command that asks for storage changes what buffers and textures are. -/
theorem spares_execute (hsize : ∀ id storage, command ≠ .size id storage) :
    Spares r.lastHandle c.object? ((c.execute command).run r).value.2.object? := by
  rw [run_execute]
  cases command with
  | create id kind => exact spares_create
  | delete id => exact spares_delete
  | shaders => exact spares_onProgram _
  | size id storage => exact absurd rfl (hsize id storage)
  | data => exact spares_setData
  | «attribute» id name type value =>
    dsimp only [carryOut]
    split
    · exact .refl _ _
    · exact spares_onProgram _
  | uniform => exact spares_onProgram _
  | texture id name image =>
    dsimp only [carryOut]
    split
    · exact .refl _ _
    · exact spares_onProgram _
  | interpolation | wrapping => exact spares_onTexture _
  | draw id mode selection =>
    dsimp only [carryOut]
    split
    · exact .refl _ _
    · exact spares_onProgram _

theorem unasking_workOf {o : Object} {work : Bench.Work}
    (hsize : ∀ id storage, command ≠ .size id storage) (h : c.workOf o command = some work) :
    work.Unasking := by
  cases command with
  | size id storage => exact absurd rfl (hsize id storage)
  | create => cases h
  | delete | shaders | uniform | interpolation | wrapping =>
    cases h
    trivial
  | data id offset shape data =>
    simp only [workOf, uploadOf] at h
    split at h
    · cases h
      trivial
    · cases h
      trivial
    · obtain ⟨place, -, h⟩ := Option.bind_eq_some_iff.mp h
      obtain ⟨extent, -, h⟩ := Option.bind_eq_some_iff.mp h
      cases h
      trivial
    · cases h
  | «attribute» | texture | draw =>
    obtain ⟨found, -, rfl⟩ := Option.map_eq_some_iff.mp h
    trivial

/-- A command that is no request for storage asks for none. -/
theorem quiet_reply (hsize : ∀ id storage, command ≠ .size id storage) :
    (c.reply r command).asked? = none := by
  simp only [asked?, reply, episode, deed?]
  cases c.object? (Bench.addressee command) with
  | none => rfl
  | some o =>
    cases hwork : c.workOf o command with
    | none => simp [hwork]
    | some work => simpa [hwork] using (unasking_workOf hsize hwork).quiet

/-- A command for storage that an object suits. -/
theorem affects_of_settles {storage : Command.Storage} {o o' : Object} {holder : Holder}
    {a : Allocation} {outcome : Outcome Unit} {left : Recorder} {events : List Event}
    (found : c.object? id = some o) (holds : o.holder? = some holder)
    (asked : (c.deed? (.size id storage)).bind Deed.asked? = some (holder, a))
    (hrun : (c.setSize id storage).run r = ⟨(outcome, c.put id o'), left, events⟩)
    (settles : o.Settles a (.ofOutcome outcome) (Event.calls events) o') :
    (c.reply r (.size id storage)).Affects r.lastHandle c.object?
      ((c.execute (.size id storage)).run r).value.2.object? := by
  have hexecute : (c.execute (.size id storage)).run r =
      ⟨(outcome, c.put id o'), left, .note (.executing (.size id storage)) :: events⟩ := by
    simp only [run_execute, carryOut, hrun]
  unfold reply episode
  rw [hexecute]
  exact .asked found holds asked settles (object?_put ..)

/-- A command for storage that cannot be done. -/
theorem affects_of_refused {storage : Command.Storage} (failure : Failure)
    (quiet : (c.deed? (.size id storage)).bind Deed.asked? = none)
    (hrefused : c.setSize id storage = c.refuse failure) :
    (c.reply r (.size id storage)).Affects r.lastHandle c.object?
      ((c.execute (.size id storage)).run r).value.2.object? := by
  have hvalue : ((c.execute (.size id storage)).run r).value.2 = c := by
    simp only [run_execute, carryOut, hrefused]
    rfl
  rw [hvalue]
  exact .unasked quiet (.refl _ _)

theorem affects_bytes {wrap : Buffer → Object} (h : Object.Wraps wrap) {b : Buffer}
    {n : Command.Count} (found : c.object? id = some (wrap b))
    (hbody : c.setSize id (.bytes n) =
      (b.setSize n.toNat).bind fun b => .done (.ok (), c.put id (wrap b))) :
    (c.reply r (.size id (.bytes n))).Affects r.lastHandle c.object?
      ((c.execute (.size id (.bytes n))).run r).value.2.object? := by
  have hrun : (c.setSize id (.bytes n)).run r =
      ⟨(.ok (), c.put id (wrap ((b.setSize n.toNat).run r).value)),
        ((b.setSize n.toNat).run r).device, ((b.setSize n.toNat).run r).events⟩ := by
    simp [hbody, Script.run_bind]
  have hasked : (c.deed? (.size id (.bytes n))).bind Deed.asked? =
      some (.buffer b.handle, .bytes n.toNat) := by
    rw [deed?_of_found (.size id (.bytes n)) found rfl]
    exact h.asked b n.toNat
  exact affects_of_settles found (h.holder b) hasked hrun (h.settles b n.toNat r)

/-- A command for storage is a request to the buffer or the texture that it addresses. -/
theorem affects_size {storage : Command.Storage} :
    (c.reply r (.size id storage)).Affects r.lastHandle c.object?
      ((c.execute (.size id storage)).run r).value.2.object? := by
  cases hfound : c.object? id with
  | none =>
    have hobject : c.object id = .error (.unknownObject id) := by simp [object, hfound]
    have hquiet : (c.deed? (.size id storage)).bind Deed.asked? = none := by
      simp [deed?, Bench.addressee, hfound]
    exact affects_of_refused (.unknownObject id) hquiet (by simp only [setSize, hobject])
  | some o =>
    have hobject : c.object id = .ok o := by simp [object, hfound]
    have hdeed : ∀ work, c.workOf o (.size id storage) = some work →
        (c.deed? (.size id storage)).bind Deed.asked? = Deed.asked? ⟨o, work⟩ := by
      intro work hwork
      rw [deed?_of_found (.size id storage) hfound hwork]
      rfl
    have hunsuited : ∀ work, c.workOf o (.size id storage) = some work →
        Deed.asked? ⟨o, work⟩ = none →
        c.setSize id storage = c.refuse (.invalidCommand (.storage storage o.kind id)) →
        (c.reply r (.size id storage)).Affects r.lastHandle c.object?
          ((c.execute (.size id storage)).run r).value.2.object? :=
      fun work hwork hquiet hrefused =>
        affects_of_refused _ ((hdeed work hwork).trans hquiet) hrefused
    cases storage with
    | bytes n =>
      cases o with
      | vertexBuffer b =>
        exact affects_bytes Object.wraps_vertexBuffer hfound (by simp [setSize, hobject])
      | indexBuffer b =>
        exact affects_bytes Object.wraps_indexBuffer hfound (by simp [setSize, hobject])
      | texture | program =>
        exact hunsuited _ rfl rfl (by simp only [setSize, hobject])
    | texture shape format =>
      obtain ⟨height, width⟩ := shape
      cases o with
      | texture t =>
        let s : TextureStorage := ⟨height.toNat, width.toNat, format⟩
        have hrun : (c.setSize id (.texture (height, width) format)).run r =
            ⟨(((t.setStorage s).run r).value.1,
                c.put id (.texture ((t.setStorage s).run r).value.2)),
              ((t.setStorage s).run r).device, ((t.setStorage s).run r).events⟩ := by
          simp [setSize, hobject, Script.run_bind, s]
        exact affects_of_settles hfound rfl (hdeed _ rfl) hrun
          (Object.settles_setStorage t s r)
      | vertexBuffer | indexBuffer | program =>
        exact hunsuited _ rfl rfl (by simp only [setSize, hobject])

end Context

/-! ### Deals -/

theorem Recorder.lastHandle_le_run {α : Type} (x : Script α) (r : Recorder) :
    r.lastHandle ≤ (x.run r).device.lastHandle :=
  (numbered_run x r).last ▸ Nat.le_add_right _ _

namespace Bench
open Answered
variable {b b' : Bench} {reply : Answered}

theorem spares_createNamed (name : String) (kind : ObjectKind) (usage : Option BufferUsage) :
    Spares b.recorder.lastHandle b.at? (b.create name kind usage).2.at? := by
  obtain ⟨hnothing, hnew⟩ := Object.value_create (usage.getD .dynamicDraw) kind b.recorder
  have hat : (b.create name kind usage).2.at? = Function.update b.at? (.inr name)
      (some ((Object.create (usage.getD .dynamicDraw) kind).run b.recorder).value) := by
    rw [← b.at?_concat name _ (b.create name kind usage).2.recorder]
    simp only [create, after, Dialogue.bind_eq, Script.run_bind]
    cases b.named? name with
    | none => rfl
    | some old =>
      simp only [Script.run_bind]
      rfl
  rw [hat]
  refine .update fun x holder hx hholder => .inr ?_
  cases hx
  exact ⟨hnothing, Object.handle_of_holder? hholder ▸ hnew⟩

theorem spares_step {step : Step} (deedless : step.Deedless) :
    Spares b.recorder.lastHandle b.at? (b.perform step).2.at? := by
  cases step with
  | commands | executePending | work => exact deedless.elim
  | create name kind usage => exact spares_createNamed name kind usage
  | program id =>
    have hsame : (b.perform (.program id)).2 = b := by
      simp only [perform]
      split
      · rfl
      · split <;> rfl
    rw [hsame]
    exact .refl _ _
  | _ => exact .refl _ _

/-- **Every deal is either a request for storage or spares all buffers and textures.** -/
theorem Deal.affects (h : Deal b reply b') :
    reply.Affects b.recorder.lastHandle b.at? b'.at? := by
  cases h with
  | execute command =>
    refine Affects.inl (g := b.named?) ?_
    by_cases hsize : ∃ id storage, command = .size id storage
    · obtain ⟨id, storage, rfl⟩ := hsize
      exact Context.affects_size
    · have hother : ∀ id storage, command ≠ .size id storage :=
        fun id storage heq => hsize ⟨id, storage, heq⟩
      exact .unasked (Context.quiet_reply hother) (Context.spares_execute hother)
  | work found sized recorder pool =>
    rw [pool]
    exact affects_of_treated found rfl treated_workOn
  | step deedless => exact .unasked rfl (spares_step deedless)

theorem Deal.lastHandle_le (h : Deal b reply b') :
    b.recorder.lastHandle ≤ b'.recorder.lastHandle := by
  cases h with
  | execute command => exact Recorder.lastHandle_le_run _ _
  | work found sized recorder pool =>
    rw [recorder]
    exact Recorder.lastHandle_le_run _ _
  | @step step deedless =>
    cases step with
    | commands | executePending | work => exact deedless.elim
    | program id =>
      simp only [perform]
      split
      · exact Nat.le_refl _
      · split <;> exact Nat.le_refl _
    | script change => cases change <;> exact Nat.le_refl _
    | setDeferred | object => exact Nat.le_refl _
    | _ => exact Recorder.lastHandle_le_run _ _

end Bench

end DrawStream
