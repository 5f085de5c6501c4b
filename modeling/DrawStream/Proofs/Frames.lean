import DrawStream.Proofs.Refusals
import DrawStream.Proofs.Session

/-! # What a command leaves alone

However a command ends, it changes no object but the one that it addresses, and neither the
queue nor the settings of the context.  A command whose failure says that it does not suit the
objects that are there (`Failure.Misdirected`) is turned away before anything is done, so the
context and the device are the very ones there were (`Context.Dealt`).  Such commands might as
well not have been sent: without them the others come to the same (`executeEach_thinned`). -/
namespace DrawStream
open Command (Id)

/-- The command does not suit the objects that are there. -/
def Failure.Misdirected : Failure → Prop
  | unknownObject _ | duplicateObject _ | wrongObjectKind .. | invalidCommand _ => True
  | shaderCompile .. | programLink _ | programValidation _ | programNotLinked | device ..
  | uniformValue .. | attributeValue .. | bufferOverflow .. | textureNotAllocated
  | textureDataSize .. | textureRegion .. | outOfRange .. => False

/-- Nothing was wrong with the choice of objects. -/
def Outcome.Suited {α : Type} (outcome : Outcome α) : Prop :=
  ∀ failure, outcome = .error failure → ¬ failure.Misdirected

theorem Outcome.suited_ok {α : Type} (a : α) : Outcome.Suited (.ok a) := by
  intro failure h
  cases h

theorem Outcome.suited_error {α : Type} {failure : Failure} (h : ¬ failure.Misdirected) :
    Outcome.Suited (.error failure : Outcome α) := by
  intro failure' heq
  cases heq
  exact h

/-! ## Programs and textures

Whoever works on an object that has been found does not complain about the choice. -/

theorem suited_quantity (what : Quantity) (value : Nat) : (quantity what value).Suited := by
  unfold quantity
  split
  · exact Outcome.suited_ok _
  · exact Outcome.suited_error id

theorem Texture.suited_setStorage {σ : Type} [Device σ] (t : Texture) (storage : TextureStorage)
    (d : σ) : ((t.setStorage storage).run d).value.1.Suited := by
  have hshape : (deviceShape storage).Suited := by
    intro failure h
    rcases Outcome.of_bind_error h with hwidth | ⟨width, h⟩
    · exact suited_quantity _ _ failure hwidth
    rcases Outcome.of_bind_error h with hheight | ⟨height, h⟩
    · exact suited_quantity _ _ failure hheight
    cases h
  unfold setStorage
  split
  · exact Outcome.suited_ok ()
  · split
    · next failure hfailure => exact Outcome.suited_error (hshape failure hfailure)
    · simpa [Script.run_bind] using Outcome.suited_ok ()

namespace Program
variable {σ : Type} [Device σ] (p : Program) (d : σ)

theorem suited_setShaders (vertex fragment : String) :
    ((p.setShaders vertex fragment).run d).value.1.Suited := by
  intro failure h
  obtain ⟨hbuilt, -, -⟩ := run_setShaders_of_error h
  cases failure <;> first | exact id | cases hbuilt

theorem Assignment.suited_refusal {a : Assignment} {failure : Failure}
    (h : a.refusal? = some failure) : ¬ failure.Misdirected := by
  cases a with
  | uniform name type value =>
    obtain ⟨refusal, -, rfl⟩ := Option.map_eq_some_iff.mp h
    exact id
  | «attribute» name type source =>
    simp only [refusal?, sourceFailure?] at h
    split at h
    · split at h <;> cases h
      exact id
    · cases h
  | sampler name target texture => cases h

theorem suited_assign (a : Assignment) : ((p.assign a).run d).value.1.Suited := by
  intro failure h
  rcases run_assign_of_error h with ⟨rfl, -⟩ | ⟨hrefusal, -⟩ | ⟨hrefusal, -⟩
  · exact id
  · exact Assignment.suited_refusal hrefusal
  · exact Assignment.suited_refusal hrefusal

theorem suited_draw (mode : DrawMode) (selection : Selection) :
    ((p.draw mode selection).run d).value.1.Suited := by
  have hdrawn := p.drawn mode selection d
  generalize (p.draw mode selection).run d = ran at hdrawn ⊢
  cases hdrawn with
  | unlinked | outOfRange | erroneous | invalid => exact Outcome.suited_error id
  | empty => exact Outcome.suited_ok ()
  | drawn =>
    dsimp only
    split
    · exact Outcome.suited_ok ()
    · exact Outcome.suited_error id

end Program

/-! ## Commands -/

namespace Context
variable {σ : Type}

/-- At most the object with the number is another one now. -/
def Alters (c : Context) (id : Id) (c' : Context) : Prop :=
  ∃ after, c.Becomes (Function.update c.object? id after) c'

/-- How a command that addresses the object with a number comes to its end: it is turned away
with nothing done, or it has done something with that object at most. -/
inductive Dealt (c : Context) (id : Id) (d : σ) : Ran σ Result → Prop
  | turnedAway (failure : Failure) : Dealt c id d ⟨(.error failure, c), d, []⟩
  | worked {r : Ran σ Result} (suited : r.value.1.Suited) (alters : c.Alters id r.value.2) :
      Dealt c id d r

section Dealt
variable [Device σ] {c : Context} {id : Id} {d : σ}

theorem alters_self : c.Alters id c :=
  ⟨c.object? id, (Function.update_eq_self id c.object?).symm ▸ becomes_self⟩

theorem alters_put (o : Object) : c.Alters id (c.put id o) := ⟨some o, becomes_put id o⟩

theorem alters_remove : c.Alters id (c.remove id) := ⟨none, object?_remove c id, rfl, rfl, rfl⟩

theorem dealt_refuse (failure : Failure) : Dealt c id d ((c.refuse failure).run d) :=
  .turnedAway failure

theorem dealt_onProgram {act : Program → Script (Outcome Unit × Program)}
    (hact : ∀ p, ((act p).run d).value.1.Suited) :
    Dealt c id d ((c.onProgram id act).run d) := by
  rcases run_onProgram (σ := σ) c id act with ⟨failure, -, hrun⟩ | ⟨p, -, hrun⟩
  · rw [hrun]
    exact .turnedAway failure
  · rw [hrun]
    exact .worked (hact p) (alters_put _)

theorem dealt_onTexture (act : Texture → Script Unit) :
    Dealt c id d ((c.onTexture id act).run d) := by
  unfold onTexture
  split
  · exact dealt_refuse _
  · rw [Dialogue.bind_eq, Script.run_bind]
    exact .worked (Outcome.suited_ok ()) alters_self

theorem dealt_create (kind : ObjectKind) : Dealt c id d ((c.create id kind).run d) := by
  unfold create
  split
  · exact dealt_refuse _
  · simp only [Dialogue.bind_eq, Script.run_bind]
    exact .worked (Outcome.suited_ok ()) (alters_put _)

theorem dealt_delete : Dealt c id d ((c.delete id).run d) := by
  unfold delete
  split
  · exact dealt_refuse _
  · simp only [Dialogue.bind_eq, Script.run_bind]
    exact .worked (Outcome.suited_ok ()) alters_remove

theorem dealt_setSize (storage : Command.Storage) :
    Dealt c id d ((c.setSize id storage).run d) := by
  unfold setSize
  split
  · exact dealt_refuse _
  next o ho =>
  split
  · rw [Dialogue.bind_eq, Script.run_bind]
    exact .worked (Outcome.suited_ok ()) (alters_put _)
  · rw [Dialogue.bind_eq, Script.run_bind]
    exact .worked (Outcome.suited_ok ()) (alters_put _)
  · next t height width format =>
    rw [Dialogue.bind_eq, Script.run_bind]
    exact .worked (t.suited_setStorage _ d) (alters_put _)
  · exact dealt_refuse _

/-- Data that does not fit is refused for its own sake, and nothing has been done either. -/
theorem dealt_setBufferData (b : Buffer) (offset : Command.Offset) (data : Elements) :
    Dealt c id d ((c.setBufferData id b offset data).run d) := by
  unfold setBufferData
  split
  · exact dealt_refuse _
  · next n =>
    rw [Dialogue.bind_eq, Script.run_bind]
    cases houtcome : ((b.setData n.toNat data).run d).value with
    | ok => exact .worked (Outcome.suited_ok ()) alters_self
    | error failure =>
      rw [(Buffer.run_setData_of_error houtcome).2]
      exact .turnedAway failure

theorem dealt_setTextureData (t : Texture) (offset : Command.Offset)
    (shape : Option (Command.Count × Command.Count)) (data : Elements) :
    Dealt c id d ((c.setTextureData id t offset shape data).run d) := by
  unfold setTextureData
  split
  · exact dealt_refuse _
  · next place hplace =>
    split
    · exact dealt_refuse _
    · next extent hextent =>
      rw [Dialogue.bind_eq, Script.run_bind]
      cases houtcome : ((t.setData place extent data).run d).value with
      | ok => exact .worked (Outcome.suited_ok ()) alters_self
      | error failure =>
        rw [(Texture.run_setData_of_error houtcome).2]
        exact .turnedAway failure

theorem dealt_setData (offset : Command.Offset) (shape : Option (Command.Count × Command.Count))
    (data : Elements) : Dealt c id d ((c.setData id offset shape data).run d) := by
  unfold setData
  split
  · exact dealt_refuse _
  · exact dealt_setBufferData _ offset data
  · exact dealt_setBufferData _ offset data
  · exact dealt_setTextureData _ offset shape data
  · exact dealt_refuse _

variable (c d)

/-- **A command is turned away with nothing done, or has done something with the object that it
addresses at most.** -/
theorem dealt_carryOut (command : Command) :
    Dealt c (Bench.addressee command) d ((c.carryOut command).run d) := by
  have hassign (id : Id) (a : Program.Assignment) :
      Dealt c id d ((c.onProgram id fun p => a.perform p).run d) := by
    refine dealt_onProgram fun p => ?_
    rw [Program.perform_eq_assign]
    exact p.suited_assign d a
  cases command with
  | create id kind => exact dealt_create kind
  | delete id => exact dealt_delete
  | shaders id vertex fragment =>
    exact dealt_onProgram fun p => p.suited_setShaders d vertex fragment
  | size id storage => exact dealt_setSize storage
  | data id offset shape data => exact dealt_setData offset shape data
  | «attribute» id name type value =>
    dsimp only [carryOut]
    split
    · exact dealt_refuse _
    · exact hassign id (.attribute name type _)
  | uniform id name type value => exact hassign id (.uniform name type (.floats value))
  | texture id name image =>
    dsimp only [carryOut]
    split
    · exact dealt_refuse _
    · exact hassign id (.sampler name Texture.target _)
  | interpolation id min mag => exact dealt_onTexture _
  | wrapping id wrap => exact dealt_onTexture _
  | draw id mode selection =>
    dsimp only [carryOut]
    split
    · exact dealt_refuse _
    · exact dealt_onProgram fun p => p.suited_draw d mode _

theorem alters_execute (command : Command) :
    c.Alters (Bench.addressee command) ((c.execute command).run d).value.2 := by
  have hdealt := dealt_carryOut c d command
  rw [run_execute]
  generalize (c.carryOut command).run d = r at hdealt ⊢
  cases hdealt with
  | turnedAway failure => exact alters_self
  | worked suited alters => exact alters

/-- A misdirected command has done nothing but announce itself. -/
theorem run_execute_of_misdirected {command : Command} {failure : Failure}
    (herror : ((c.execute command).run d).value.1 = .error failure)
    (hmisdirected : failure.Misdirected) :
    (c.execute command).run d = ⟨(.error failure, c), d, [.note (.executing command)]⟩ := by
  have hdealt := dealt_carryOut c d command
  rw [run_execute] at herror ⊢
  generalize (c.carryOut command).run d = r at hdealt herror ⊢
  cases hdealt with
  | turnedAway first =>
    cases herror
    rfl
  | worked suited alters => exact absurd hmisdirected (suited failure herror)

end Dealt
end Context

/-! ## Leaving commands out -/

/-- Commands with their outcomes, without some of those that were misdirected. -/
inductive Thinned : List (Command × Outcome Unit) → List (Command × Outcome Unit) → Prop
  | nil : Thinned [] []
  | keep {all kept : List (Command × Outcome Unit)} (entry : Command × Outcome Unit)
      (rest : Thinned all kept) : Thinned (entry :: all) (entry :: kept)
  | leaveOut {all kept : List (Command × Outcome Unit)} (command : Command) {failure : Failure}
      (misdirected : failure.Misdirected) (rest : Thinned all kept) :
      Thinned ((command, .error failure) :: all) kept

namespace Context
variable {σ : Type} [Device σ]

/-- The commands that are kept come to what they came to among all others.  The induction is on
the commands: one that is left out has left the context and the device as they were. -/
theorem executeEach_thinned (c : Context) (d : σ) (commands : List Command)
    {kept : List (Command × Outcome Unit)}
    (h : Thinned (commands.zip ((c.executeEach commands).run d).value.1) kept) :
    let all := (c.executeEach commands).run d
    let fewer := (c.executeEach (kept.map Prod.fst)).run d
    fewer.value = (kept.map Prod.snd, all.value.2) ∧ fewer.device = all.device ∧
      Event.calls fewer.events = Event.calls all.events := by
  induction commands generalizing c d kept with
  | nil =>
    cases h
    exact ⟨rfl, rfl, rfl⟩
  | cons command rest ih =>
    rw [run_executeEach_cons] at h ⊢
    generalize hfirst : (c.execute command).run d = first at h ⊢
    obtain ⟨⟨outcome, after⟩, device, events⟩ := first
    cases h with
    | keep entry hrest =>
      obtain ⟨hvalue, hdevice, hcalls⟩ := ih after device hrest
      simp only [List.map_cons, run_executeEach_cons, hfirst, Event.calls_append, hcalls, hvalue,
        hdevice, and_self]
    | leaveOut _ hmisdirected hrest =>
      have hrun := run_execute_of_misdirected c d (congrArg (·.value.1) hfirst) hmisdirected
      rw [hfirst] at hrun
      cases hrun
      exact ih c d hrest

/-- **Commands stay within their frame**: however a command ends, all objects but the one it
addresses, the queue and the settings are as they were, and a sequence of commands comes to the
same without any of those that turn out to be misdirected. -/
theorem commands_stay_in_frame (c : Context) (d : σ) :
    (∀ command, let after := ((c.execute command).run d).value.2
      (∀ id, id ≠ Bench.addressee command → after.object? id = c.object? id) ∧
        after.queue = c.queue ∧ after.deferred = c.deferred ∧ after.usage = c.usage) ∧
    ∀ commands kept, Thinned (commands.zip ((c.executeEach commands).run d).value.1) kept →
      let all := (c.executeEach commands).run d
      let fewer := (c.executeEach (kept.map Prod.fst)).run d
      fewer.value = (kept.map Prod.snd, all.value.2) ∧ fewer.device = all.device ∧
        Event.calls fewer.events = Event.calls all.events := by
  refine ⟨fun command => ?_, fun commands kept h => c.executeEach_thinned d commands h⟩
  obtain ⟨now, hobjects, hqueue, hdeferred, husage⟩ := c.alters_execute d command
  refine ⟨fun id hid => ?_, hqueue, hdeferred, husage⟩
  rw [hobjects, Function.update_of_ne hid]

/-- Two commands that are turned away, with a draw between them that goes wrong. -/
def turnedAwayTwice : List Command :=
  [.create (Bench.addressee drawSeven) .texture, drawSeven,
    .delete ⟨61, by decide, by decide⟩]

theorem turnedAwayTwice_stay_in_frame :
    let all := (withSeven.executeEach turnedAwayTwice).run faultFinder
    let fault : Outcome Unit := .error (.programValidation "error: sampler units conflict")
    Thinned (turnedAwayTwice.zip all.value.1) [(drawSeven, fault)] ∧
      ((withSeven.executeEach [drawSeven]).run faultFinder).value = ([fault], all.value.2) := by
  have hstory : turnedAwayTwice.zip
      ((withSeven.executeEach turnedAwayTwice).run faultFinder).value.1 =
      [(.create (Bench.addressee drawSeven) .texture,
          .error (.duplicateObject (Bench.addressee drawSeven))),
        (drawSeven, .error (.programValidation "error: sampler units conflict")),
        (.delete ⟨61, by decide, by decide⟩,
          .error (.unknownObject ⟨61, by decide, by decide⟩))] := by decide +kernel
  have hthinned : Thinned (turnedAwayTwice.zip
      ((withSeven.executeEach turnedAwayTwice).run faultFinder).value.1)
      [(drawSeven, .error (.programValidation "error: sampler units conflict"))] := by
    rw [hstory]
    exact .leaveOut _ trivial (.keep _ (.leaveOut _ trivial .nil))
  exact ⟨hthinned, ((commands_stay_in_frame withSeven faultFinder).2 _ _ hthinned).1⟩

end Context
end DrawStream
