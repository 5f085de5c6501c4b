import DrawStream.Context.Queue

/-! # The queue has no part in an execution

Executing a command neither reads the queue or the mode nor changes them.  As an equation
of scripts: a context with another queue and mode does what it would have done without,
and the other queue and mode are still there afterwards (`execute_withQueue`).  The
equation is shown operation by operation; `keeping` is what it says of each. -/
namespace DrawStream.Context
open Command (Id)

/-- The context with another queue and mode. -/
def withQueue (c : Context) (queue : List Command) (deferred : Bool) : Context :=
  { c with queue, deferred }

/-- Gives the context that comes out of a script another queue and mode. -/
def keeping {α : Type} (queue : List Command) (deferred : Bool) (x : Script (α × Context)) :
    Script (α × Context) :=
  Dialogue.bind x fun r => .done (r.1, r.2.withQueue queue deferred)

variable (c : Context) (queue : List Command) (deferred : Bool)

section WithQueue

@[simp] theorem withQueue_self : c.withQueue c.queue c.deferred = c := rfl

variable (id : Id)

@[simp] theorem withQueue_object? : (c.withQueue queue deferred).object? id = c.object? id := rfl

@[simp] theorem withQueue_object : (c.withQueue queue deferred).object id = c.object id := rfl

@[simp] theorem withQueue_program : (c.withQueue queue deferred).program id = c.program id := rfl

@[simp] theorem withQueue_texture : (c.withQueue queue deferred).texture id = c.texture id := rfl

@[simp] theorem withQueue_usage : (c.withQueue queue deferred).usage = c.usage := rfl

@[simp] theorem withQueue_source (value : Command.Source) :
    (c.withQueue queue deferred).source value = c.source value := by cases value <;> rfl

@[simp] theorem withQueue_selection (value : Command.Selection) :
    (c.withQueue queue deferred).selection value = c.selection value := by cases value <;> rfl

@[simp] theorem withQueue_put (object : Object) :
    (c.withQueue queue deferred).put id object = (c.put id object).withQueue queue deferred := by
  by_cases h : (c.object? id).isSome <;> simp [put, h] <;> rfl

@[simp] theorem withQueue_remove :
    (c.withQueue queue deferred).remove id = (c.remove id).withQueue queue deferred := rfl

end WithQueue

section Keeping
variable {α γ : Type}

@[simp] theorem keeping_done (a : α) :
    keeping queue deferred (.done (a, c)) = .done (a, c.withQueue queue deferred) := rfl

@[simp] theorem keeping_refuse (failure : Failure) :
    keeping queue deferred (c.refuse failure) =
      (c.withQueue queue deferred).refuse failure := rfl

@[simp] theorem keeping_bind (x : Script γ) (f : γ → Script (α × Context)) :
    keeping queue deferred (Dialogue.bind x f) =
      Dialogue.bind x fun b => keeping queue deferred (f b) :=
  Dialogue.bind_assoc _ _ _

theorem run_keeping {σ : Type} [Device σ] (x : Script (α × Context)) (d : σ) :
    (keeping queue deferred x).run d =
      ⟨((x.run d).value.1, (x.run d).value.2.withQueue queue deferred), (x.run d).device,
        (x.run d).events⟩ := by
  rw [keeping, Script.run_bind]
  simp

end Keeping

/-! ## Operation by operation -/

theorem onProgram_withQueue (id : Id) (act : Program → Script (Outcome Unit × Program)) :
    (c.withQueue queue deferred).onProgram id act =
      keeping queue deferred (c.onProgram id act) := by
  simp only [onProgram, withQueue_program]
  cases c.program id with
  | error failure => rfl
  | ok p => simp

theorem onTexture_withQueue (id : Id) (act : Texture → Script Unit) :
    (c.withQueue queue deferred).onTexture id act =
      keeping queue deferred (c.onTexture id act) := by
  simp only [onTexture, withQueue_texture]
  cases c.texture id with
  | error failure => rfl
  | ok t => simp

theorem create_withQueue (id : Id) (kind : ObjectKind) :
    (c.withQueue queue deferred).create id kind = keeping queue deferred (c.create id kind) := by
  simp only [create, withQueue_object?]
  cases c.object? id with
  | some object => rfl
  | none => simp

theorem delete_withQueue (id : Id) :
    (c.withQueue queue deferred).delete id = keeping queue deferred (c.delete id) := by
  simp only [delete, withQueue_object]
  cases c.object id with
  | error failure => rfl
  | ok object => simp

theorem setSize_withQueue (id : Id) (storage : Command.Storage) :
    (c.withQueue queue deferred).setSize id storage =
      keeping queue deferred (c.setSize id storage) := by
  simp only [setSize, withQueue_object]
  cases c.object id with
  | error failure => rfl
  | ok object => cases object <;> cases storage <;> simp

theorem setData_withQueue (id : Id) (offset : Command.Offset)
    (shape : Option (Command.Count × Command.Count)) (data : Elements) :
    (c.withQueue queue deferred).setData id offset shape data =
      keeping queue deferred (c.setData id offset shape data) := by
  simp only [setData, withQueue_object]
  cases c.object id with
  | error failure => rfl
  | ok object =>
    cases object with
    | vertexBuffer b | indexBuffer b => cases offset <;> simp [setBufferData]
    | texture t =>
      simp only [setTextureData]
      cases texelOffset? offset with
      | none => rfl
      | some place =>
        dsimp only
        split <;> simp
    | program p => rfl

/-- **The queue and the mode have no part in an execution.** -/
theorem execute_withQueue (command : Command) :
    (c.withQueue queue deferred).execute command =
      keeping queue deferred (c.execute command) := by
  simp only [execute, Dialogue.bind_eq, keeping_bind]
  -- The announcement comes first either way.
  refine congrArg _ (funext fun _ => ?_)
  cases command with
  | create => exact create_withQueue ..
  | delete => exact delete_withQueue ..
  | shaders => exact onProgram_withQueue ..
  | size => exact setSize_withQueue ..
  | data => exact setData_withQueue ..
  | «attribute» id name type value =>
    simp only [carryOut, withQueue_source]
    cases c.source value with
    | error failure => rfl
    | ok source => exact onProgram_withQueue ..
  | uniform => exact onProgram_withQueue ..
  | texture id name image =>
    simp only [carryOut, withQueue_texture]
    cases c.texture image with
    | error failure => rfl
    | ok t => exact onProgram_withQueue ..
  | interpolation => exact onTexture_withQueue ..
  | wrapping id wrap => exact onTexture_withQueue ..
  | draw id mode selection =>
    simp only [carryOut, withQueue_selection]
    cases c.selection selection with
    | error failure => rfl
    | ok selection => exact onProgram_withQueue ..

/-- An execution leaves the queue and the mode as they are. -/
theorem run_execute_queue {σ : Type} [Device σ] (command : Command) (d : σ) :
    ((c.execute command).run d).value.2.queue = c.queue ∧
      ((c.execute command).run d).value.2.deferred = c.deferred := by
  have h := congrArg (fun x => (x.run d).value.2) (execute_withQueue c c.queue c.deferred command)
  simp only [withQueue_self, run_keeping] at h
  rw [h]
  exact ⟨rfl, rfl⟩

end DrawStream.Context
