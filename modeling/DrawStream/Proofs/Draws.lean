import DrawStream.Program.Draw
import DrawStream.Proofs.Programs

/-! # What becomes of a draw

A draw has one of six outcomes (`Drawn`).  It does nothing if the program is not linked, the
selection is empty or its numbers are too great.  It asks for errors and stops if there are
any.  Otherwise it binds all that is recorded, in the order that the device settles
(`Program.drawOrder`), and, if that has not happened since the last link, has the device validate
the program; it stops if the device finds fault with the program, and draws if not.

Which of them it is depends on three answers of the device only: the errors before
(`Device.drain`), the verdict (`Program.valid`), and the errors after. -/
namespace DrawStream

/-- So many questions for errors. -/
def Event.questions (count : Nat) : List Event := List.replicate count (.call .getError)

@[simp] theorem Event.calls_questions (count : Nat) :
    Event.calls (questions count) = List.replicate count .getError := by
  rw [questions, ← List.map_replicate, calls_map_call]

@[simp] theorem Event.notes_questions (count : Nat) : Event.notes (questions count) = [] := by
  rw [questions, ← List.map_replicate, notes_map_call]

theorem Script.run_checkErrors {σ : Type} [Device σ] (checkpoint : String) (d : σ) :
    (checkErrors checkpoint).run d =
      ⟨if (Device.drain d).codes.isEmpty then .ok ()
        else .error (.device checkpoint (Device.drain d).codes),
        (Device.drain d).device, Event.questions (Device.drain d).questions⟩ := by
  simp only [checkErrors, Dialogue.question, Dialogue.bind_eq, Dialogue.ask_bind,
    Dialogue.done_bind, Dialogue.pure_eq_done, run_ask, run_done, List.append_nil]
  rfl

/-- The numbers of a selection are none too great. -/
def Selection.InRange : Selection → Prop
  | elements _ _ count => count ≤ greatestQuantity
  | range first count => count ≤ greatestQuantity ∧ first ≤ greatestQuantity

instance : DecidablePred Selection.InRange := fun selection => by
  cases selection <;> unfold Selection.InRange <;> infer_instance

namespace Program
variable {σ : Type} [Device σ] (p : Program)

/-- The order in which a draw has everything bound.  The device settles it once it has been asked
for errors. -/
def drawOrder (d : σ) : p.BindingOrder := p.bindingOrder (Device.drain d).device

theorem bindingOrder_drain (d : σ) :
    p.bindingOrder (Device.drain d).device = p.drawOrder d := rfl

/-- The call of a draw, and those around it. -/
def DrawCall.calls (mode : DrawMode) : DrawCall → List Call
  | elements buffer type count =>
    [.bindBuffer BufferTarget.elements.number buffer,
      .drawElements mode.number count type.number,
      .bindBuffer BufferTarget.elements.number 0]
  | range first count => [.drawArrays mode.number first count]

/-- The program after the device has validated it. -/
def checked : Program := { p with cache := { p.cache with validated := true } }

/-- The note on variables without a value, if there are any. -/
def warning : List Event :=
  if p.cache.unset.isEmpty then [] else [.note (.unsetVariables (sortNames p.cache.unset))]

/-- The device when it is asked for its verdict: without errors, with all that is recorded
bound, and with the program validated. -/
def verdictDevice (d : σ) : σ :=
  (Device.answer (.validateProgram p.handle) (p.bindAll.run (Device.drain d).device).device).2

/-- The device finds no fault with the program in a draw. -/
def valid (d : σ) : Bool := (Device.answer (.validateStatus p.handle) (p.verdictDevice d)).1

/-- What comes about when the program is validated. -/
def validationEvents : List Event := p.warning ++ [.call (.validateProgram p.handle)]

theorem calls_validationEvents :
    Event.calls p.validationEvents = [.validateProgram p.handle] := by
  unfold validationEvents warning
  split <;> rfl

theorem notes_validationEvents : Event.notes p.validationEvents =
    if p.cache.unset.isEmpty then [] else [.unsetVariables (sortNames p.cache.unset)] := by
  unfold validationEvents warning
  split <;> rfl

/-! ## The parts of a draw -/

theorem drawCall_of_inRange {selection : Selection} (h : selection.InRange) :
    drawCall selection = .ok (exactCall selection) := by
  cases selection with
  | elements buffer type count =>
    have hcount : quantity .drawCount count = .ok (count : Int) := if_pos h
    simp only [drawCall, Selection.count, hcount, exactCall]
    rfl
  | range first count =>
    have hcount : quantity .drawCount count = .ok (count : Int) := if_pos h.1
    have hfirst : quantity .firstVertex first = .ok (first : Int) := if_pos h.2
    simp only [drawCall, Selection.count, hcount, hfirst, exactCall]
    rfl

/-- A selection out of range is refused by the first of its numbers that is too great. -/
theorem drawCall_of_not_inRange {selection : Selection} (h : ¬ selection.InRange) :
    (greatestQuantity < selection.count ∧
      drawCall selection = .error (.outOfRange .drawCount selection.count)) ∨
    ∃ first count, selection = .range first count ∧ count ≤ greatestQuantity ∧
      greatestQuantity < first ∧
      drawCall selection = .error (.outOfRange .firstVertex first) := by
  by_cases hcount : selection.count ≤ greatestQuantity
  · cases selection with
    | elements buffer type count => exact absurd hcount h
    | range first count =>
      have hfirst : ¬ first ≤ greatestQuantity := fun hfirst => h ⟨hcount, hfirst⟩
      refine .inr ⟨first, count, rfl, hcount, Nat.lt_of_not_le hfirst, ?_⟩
      have hok : quantity .drawCount count = .ok (count : Int) := if_pos hcount
      have herror : quantity .firstVertex first = .error (.outOfRange .firstVertex first) :=
        if_neg hfirst
      simp only [drawCall, Selection.count, hok, herror]
      rfl
  · refine .inl ⟨Nat.lt_of_not_le hcount, ?_⟩
    have herror : quantity .drawCount selection.count =
        .error (.outOfRange .drawCount selection.count) := if_neg hcount
    simp only [drawCall, herror]
    rfl

theorem events_issue (mode : DrawMode) (call : DrawCall) (d : σ) :
    ((call.issue mode).run d).events = (call.calls mode).map .call := by
  cases call <;> rfl

theorem checked_of_validated (h : p.cache.validated = true) : p.checked = p := by
  have hcache : { p.cache with validated := true } = p.cache := by rw [← h]
  rw [checked, hcache]

/-- Validating gives a warning and a call, and comes out as the device says. -/
theorem run_validate (d : σ) : ∃ (outcome : Outcome Unit) (left : σ),
    p.validate.run d = ⟨outcome, left, p.validationEvents⟩ ∧
      if (Device.answer (.validateStatus p.handle)
          (Device.answer (.validateProgram p.handle) d).2).1 then outcome = .ok ()
      else ∃ log, outcome = .error (.programValidation log) := by
  have hrun : p.validate.run d =
      let asked := Device.answer (.validateStatus p.handle)
        (Device.answer (.validateProgram p.handle) d).2
      if asked.1 then ⟨.ok (), asked.2, p.validationEvents⟩
      else
        let told := Device.answer (.programLog p.handle) asked.2
        ⟨.error (.programValidation told.1), told.2, p.validationEvents⟩ := by
    unfold validate validationEvents warning
    cases p.cache.unset.isEmpty <;>
    cases hvalid : (Device.answer (.validateStatus p.handle)
      (Device.answer (.validateProgram p.handle) d).2).1 <;>
    simp [Script.run_bind, Script.request, Dialogue.question, Act.perform, Call.ofAnswer?, hvalid]
  rw [hrun]
  dsimp only
  split
  · exact ⟨_, _, rfl, rfl⟩
  · exact ⟨_, _, rfl, _, rfl⟩

/-- The program is validated unless it has been; the device has its say only then. -/
theorem run_validateOnce (d : σ) : ∃ (outcome : Outcome Unit) (left : σ),
    p.validateOnce.run d = ⟨(outcome, p.checked), left,
      if p.cache.validated then [] else p.validationEvents⟩ ∧
      if p.cache.validated || (Device.answer (.validateStatus p.handle)
          (Device.answer (.validateProgram p.handle) d).2).1 then outcome = .ok ()
      else ∃ log, outcome = .error (.programValidation log) := by
  unfold validateOnce
  cases hnew : p.cache.validated with
  | true =>
    rw [checked_of_validated p hnew]
    exact ⟨.ok (), d, rfl, rfl⟩
  | false =>
    obtain ⟨outcome, left, hrun, houtcome⟩ := p.run_validate d
    refine ⟨outcome, left, ?_, houtcome⟩
    simp [Script.run_bind, hrun, checked]

/-! ## All of it -/

/-- **What becomes of a draw**: its outcome, the program afterwards and what came about. -/
inductive Drawn (mode : DrawMode) (selection : Selection) (d : σ) :
    Ran σ (Outcome Unit × Program) → Prop
  | unlinked (hlinked : p.linked = false) :
      Drawn mode selection d ⟨(.error .programNotLinked, p), d, []⟩
  | empty (hlinked : p.linked = true) (hcount : selection.count = 0) :
      Drawn mode selection d ⟨(.ok (), p), d, []⟩
  | outOfRange (hlinked : p.linked = true) (hcount : selection.count ≠ 0)
      (hrange : ¬ selection.InRange) (what : Quantity) (value : Nat) :
      Drawn mode selection d ⟨(.error (.outOfRange what value), p), d, []⟩
  | erroneous (hlinked : p.linked = true) (hcount : selection.count ≠ 0)
      (hrange : selection.InRange) (hcodes : (Device.drain d).codes ≠ []) :
      Drawn mode selection d ⟨(.error (.device "before draw" (Device.drain d).codes), p),
        (Device.drain d).device, Event.questions (Device.drain d).questions⟩
  | invalid (hlinked : p.linked = true) (hcount : selection.count ≠ 0)
      (hrange : selection.InRange) (hcodes : (Device.drain d).codes = [])
      (hnew : p.cache.validated = false) (hvalid : p.valid d = false) (log : String) (left : σ) :
      Drawn mode selection d ⟨(.error (.programValidation log), p.checked), left,
        Event.questions (Device.drain d).questions ++
          ((p.drawOrder d).calls.map .call ++ p.validationEvents)⟩
  | drawn (hlinked : p.linked = true) (hcount : selection.count ≠ 0)
      (hrange : selection.InRange) (hcodes : (Device.drain d).codes = [])
      (hvalid : p.cache.validated = false → p.valid d = true) (after : Drained σ) :
      Drawn mode selection d
        ⟨(if after.codes.isEmpty then .ok () else .error (.device "after draw" after.codes),
          p.checked), after.device,
        Event.questions (Device.drain d).questions ++ ((p.drawOrder d).calls.map .call ++
          ((if p.cache.validated then [] else p.validationEvents) ++
            (((exactCall selection).calls mode).map .call ++ Event.questions after.questions)))⟩

/-- A draw whose preparations have gone well. -/
def finish (mode : DrawMode) (call : DrawCall) : Outcome Unit × Program →
    Script (Outcome Unit × Program)
  | (.error failure, p) => return (.error failure, p)
  | (.ok (), p) => do
    call.issue mode
    return (← Script.checkErrors "after draw", p)

theorem run_finish (mode : DrawMode) (call : DrawCall) (d : σ) : ∃ after : Drained σ,
    (finish mode call (.ok (), p)).run d =
      ⟨(if after.codes.isEmpty then .ok () else .error (.device "after draw" after.codes), p),
        after.device, (call.calls mode).map .call ++ Event.questions after.questions⟩ := by
  refine ⟨Device.drain ((call.issue mode).run d).device, ?_⟩
  simp only [finish, Dialogue.bind_eq, Dialogue.pure_eq_done, Script.run_bind, Script.run_done,
    Script.run_checkErrors, events_issue, List.append_nil]

theorem draw_of_unlinked {mode : DrawMode} {selection : Selection} (hlinked : p.linked = false) :
    p.draw mode selection = .done (.error .programNotLinked, p) := by
  simp [draw, hlinked]

/-- A draw that goes on after the first question for errors. -/
theorem draw_eq {mode : DrawMode} {selection : Selection} (hlinked : p.linked = true)
    (hcount : selection.count ≠ 0) (hrange : selection.InRange) :
    p.draw mode selection =
      Dialogue.bind (Script.checkErrors "before draw") fun outcome =>
        match outcome with
        | .error failure => .done (.error failure, p)
        | .ok () => Dialogue.bind p.bindAll fun _ =>
            Dialogue.bind p.validateOnce (finish mode (exactCall selection)) := by
  simp only [draw, hlinked, Bool.not_true, Bool.false_eq_true, if_false, hcount,
    drawCall_of_inRange hrange, Dialogue.bind_eq]
  refine congrArg (Dialogue.bind _) (funext fun outcome => ?_)
  cases outcome with
  | error failure => rfl
  | ok =>
    refine congrArg (Dialogue.bind _) (funext fun _ => ?_)
    refine congrArg (Dialogue.bind _) (funext fun validated => ?_)
    obtain ⟨outcome, p'⟩ := validated
    cases outcome <;> rfl

theorem drawn (mode : DrawMode) (selection : Selection) (d : σ) :
    p.Drawn mode selection d ((p.draw mode selection).run d) := by
  cases hlinked : p.linked with
  | false =>
    rw [draw_of_unlinked p hlinked]
    exact .unlinked hlinked
  | true =>
    by_cases hcount : selection.count = 0
    · have hdraw : p.draw mode selection = .done (.ok (), p) := by
        simp [draw, hlinked, hcount]
      rw [hdraw]
      exact .empty hlinked hcount
    by_cases hrange : selection.InRange
    · rw [draw_eq p hlinked hcount hrange, Script.run_bind, Script.run_checkErrors]
      by_cases hcodes : (Device.drain d).codes = []
      · obtain ⟨outcome, left, hrun, houtcome⟩ :=
          p.run_validateOnce (p.bindAll.run (Device.drain d).device).device
        simp only [hcodes, List.isEmpty_nil, if_true, Script.run_bind, events_bindAll, hrun,
          bindingOrder_drain]
        split at houtcome
        · next hvalid =>
          obtain ⟨after, hafter⟩ := run_finish (σ := σ) p.checked mode (exactCall selection) left
          subst houtcome
          rw [hafter]
          refine .drawn hlinked hcount hrange hcodes (fun hnew => ?_) after
          rw [hnew] at hvalid
          exact hvalid
        · next hvalid =>
          obtain ⟨log, rfl⟩ := houtcome
          obtain ⟨hnew, hvalid⟩ := Bool.or_eq_false_iff.mp (Bool.not_eq_true _ ▸ hvalid)
          simp only [hnew, Bool.false_eq_true, if_false, finish, Dialogue.pure_eq_done,
            Script.run_done, List.append_nil]
          exact .invalid hlinked hcount hrange hcodes hnew hvalid log left
      · have hsome : (Device.drain d).codes.isEmpty = false := List.isEmpty_eq_false_iff.mpr hcodes
        simp only [hsome, Bool.false_eq_true, if_false, Script.run_done, List.append_nil]
        exact .erroneous hlinked hcount hrange hcodes
    · obtain ⟨what, value, hcall⟩ :
        ∃ what value, drawCall selection = .error (.outOfRange what value) := by
        rcases drawCall_of_not_inRange hrange with ⟨-, hcall⟩ | ⟨first, count, -, -, -, hcall⟩
        · exact ⟨_, _, hcall⟩
        · exact ⟨_, _, hcall⟩
      have hdraw : p.draw mode selection = .done (.error (.outOfRange what value), p) := by
        simp [draw, hlinked, hcount, hcall]
      rw [hdraw]
      exact .outOfRange hlinked hcount hrange what value

end Program
end DrawStream
