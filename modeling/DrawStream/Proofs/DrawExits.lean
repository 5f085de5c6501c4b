import DrawStream.Proofs.Concerns
import DrawStream.Proofs.ErrorQueues

/-! # What a recorder is told in a draw

A recorder heeds few requests.  Whatever is bound or validated, it stays as it is, so the two
checks for errors, the error that a draw call raises and the orders that have been taken are all
that changes it.  That makes it possible to say of every draw, in any state of the program and
of the recorder, which calls are made and what comes of them (`Program.Exit`, with one case for
every way out of a draw). -/
namespace DrawStream

/-- Topics of requests that leave a recorder as it is. -/
def Topic.unheeded : List Topic :=
  [.deletion, .reporting, .status, .upload, .binding, .storage, .validation]

namespace Recorder
variable {α : Type} (r : Recorder)

theorem answer_of_unheeded {β : Type} (q : Request β) (h : q.topic ∈ Topic.unheeded) :
    (Device.answer q r).2 = r := by
  cases q <;> first | rfl | simp [Topic.unheeded] at h

/-- A script that keeps to topics that a recorder does not heed leaves it as it is. -/
theorem device_run_of_unheeded {topics : List Topic} {post : α → Prop} {x : Script α}
    (h : x.Within topics post) (htopics : topics ⊆ Topic.unheeded) : (x.run r).device = r := by
  induction x generalizing r with
  | done a => rfl
  | ask act next ih =>
    have hfirst : (act.perform r).device = r := by
      cases act with
      | request q => exact r.answer_of_unheeded q (htopics (h.1 _ rfl))
      | drain | arrange => exact absurd (htopics (h.1 _ rfl)) (by decide)
      | note n => rfl
    show (Script.run (next (act.perform r).value) (act.perform r).device).device = r
    rw [hfirst]
    exact ih _ r (h.2 _)

/-! ## Checks for errors -/

/-- A recorder is asked once more than it has codes to report. -/
theorem questions_drain : (Device.drain r).questions = (Device.drain r).codes.length + 1 := by
  rw [drain_eq]

/-- A recorder without an error to report is asked once. -/
theorem device_drain (h : (Device.drain r).codes = []) :
    (Device.drain r).device = r.takeError.2 := by
  rw [drain_eq] at h ⊢
  have hnone : r.reported = [] := h
  rw [afterCheck, hnone, takeError]
  split
  · next hempty =>
    rw [hempty]
    exact congrArg (fun errors => { r with errors }) hempty.symm
  · next code rest hsome =>
    rw [hsome]
    rfl

end Recorder

/-- The recorder once all that is recorded for a program has been bound: the orders of two tables
have been taken. -/
def Recorder.afterBindings (r : Recorder) : Recorder :=
  { r with arrangements := r.arrangements.drop 2 }

/-- What a recorder says of any program that it validates. -/
def Recorder.verdict (r : Recorder) : Outcome Unit :=
  if r.failValidation then .error (.programValidation r.programLog) else .ok ()

theorem Recorder.verdict_takeError (r : Recorder) : r.takeError.2.verdict = r.verdict := by
  unfold takeError
  split <;> rfl

theorem Recorder.verdict_afterBindings (r : Recorder) : r.afterBindings.verdict = r.verdict := rfl

namespace Program
variable (p : Program) (r : Recorder)

/-! ## The parts of a draw, on a recorder -/

theorem device_inOrder {α : Type} {act : α → Script Unit}
    (hact : ∀ a, (act a).Within [.binding] fun _ => True) (items : List α) :
    ((inOrder act items).run r).device = r :=
  r.device_run_of_unheeded (within_inOrder hact items) (by decide)

theorem device_bindAll : (p.bindAll.run r).device = r.afterBindings := by
  have hactivate : (p.activate.run r).device = r := rfl
  have hafter : r.arrange.2.arrange.2 = r.afterBindings := by
    simp only [Recorder.arrange, Recorder.afterBindings, ← List.drop_one, List.drop_drop]
  simp only [bindAll, Dialogue.bind_eq, Script.run_bind, hactivate,
    device_inOrder _ within_bind_sampler, device_inOrder _ within_bind_attribute]
  exact hafter

/-- The order of a draw on a recorder is that of its next two tables. -/
theorem drawOrder_recorder :
    (p.drawOrder r).samplers = (r.arrangements.headD []).apply p.cache.samplers ∧
      (p.drawOrder r).attributes = (r.arrangements.tail.headD []).apply p.cache.attributes := by
  simp only [drawOrder, bindingOrder, arrangedSamplers, arrangedAttributes, r.drain_eq,
    device_inOrder _ within_bind_sampler]
  exact ⟨rfl, rfl⟩

theorem run_verdict_recorder :
    p.verdict.run r = ⟨r.verdict, r, [.call (.validateProgram p.handle)]⟩ := by
  unfold verdict Recorder.verdict
  cases hfails : r.failValidation <;>
    simp [Script.request, Dialogue.question, Act.perform, Call.ofAnswer?,
      Device.answer, Recorder.answer, hfails]

/-- A recorder has its say on a program that has not been validated. -/
theorem run_validateOnce_recorder :
    p.validateOnce.run r = ⟨(if p.cache.validated then .ok () else r.verdict, p.checked), r,
      if p.cache.validated then [] else p.validationEvents⟩ := by
  have hvalidate : p.validate.run r = ⟨r.verdict, r, p.validationEvents⟩ := by
    rw [validate_eq, validationEvents, warning]
    cases p.cache.unset.isEmpty with
    | true => exact p.run_verdict_recorder r
    | false =>
      simp [Script.run_bind, run_verdict_recorder]
  unfold validateOnce
  by_cases hvalidated : p.cache.validated = true
  · simp [hvalidated, p.checked_of_validated hvalidated]
  · simp [hvalidated, Script.run_bind, hvalidate, checked]

theorem run_finish_recorder (mode : DrawMode) (call : DrawCall) :
    (finish mode call (.ok (), p)).run r =
      ⟨(if (Device.drain r.raise).codes.isEmpty then .ok ()
          else .error (.device "after draw" (Device.drain r.raise).codes), p),
        (Device.drain r.raise).device,
        (call.calls mode).map .call ++ Event.questions (Device.drain r.raise).questions⟩ := by
  have hissue : ((call.issue mode).run r).device = r.raise := by cases call <;> rfl
  simp only [finish, Dialogue.bind_eq, Dialogue.pure_eq_done, Script.run_bind, Script.run_done,
    Script.run_checkErrors, events_issue, hissue, List.append_nil]

/-! ## The ways out of a draw -/

/-- **The ways out of a draw on a recorder**: the outcome, the program and the recorder
afterwards, and the calls.  Bindings are made in the order that the recorder settles, everything
that is recorded once. -/
inductive Exit (mode : DrawMode) (selection : Selection) :
    Outcome Unit → Program → Recorder → List Call → Prop
  | unlinked (hlinked : p.linked = false) :
      Exit mode selection (.error .programNotLinked) p r []
  | empty (hlinked : p.linked = true) (hcount : selection.count = 0) :
      Exit mode selection (.ok ()) p r []
  | greatCount (hlinked : p.linked = true) (hcount : greatestQuantity < selection.count) :
      Exit mode selection (.error (.outOfRange .drawCount selection.count)) p r []
  | greatFirst (hlinked : p.linked = true) (hcount : selection.count ≠ 0)
      (hsmall : selection.count ≤ greatestQuantity) {first count : Nat}
      (hselection : selection = .range first count) (hfirst : greatestQuantity < first) :
      Exit mode selection (.error (.outOfRange .firstVertex first)) p r []
  /-- The first check finds errors. -/
  | erroneous (hlinked : p.linked = true) (hcount : selection.count ≠ 0)
      (hrange : selection.InRange) (hcodes : (Device.drain r).codes ≠ []) :
      Exit mode selection (.error (.device "before draw" (Device.drain r).codes)) p
        (Device.drain r).device (List.replicate ((Device.drain r).codes.length + 1) .getError)
  /-- The first check finds none, everything is bound, and the recorder finds fault with the
  program. -/
  | invalid (hlinked : p.linked = true) (hcount : selection.count ≠ 0)
      (hrange : selection.InRange) (hcodes : (Device.drain r).codes = [])
      (hnew : p.cache.validated = false) (hfails : r.failValidation = true) :
      Exit mode selection (.error (.programValidation r.programLog)) p.checked
        r.takeError.2.afterBindings
        (.getError :: ((p.drawOrder r).calls ++ [.validateProgram p.handle]))
  /-- The draw call is made, and the second check says how that went. -/
  | drawn (hlinked : p.linked = true) (hcount : selection.count ≠ 0)
      (hrange : selection.InRange) (hcodes : (Device.drain r).codes = [])
      (hvalid : p.cache.validated = false → r.failValidation = false) {after : Drained Recorder}
      (hafter : after = Device.drain r.takeError.2.afterBindings.raise) :
      Exit mode selection
        (if after.codes.isEmpty then .ok () else .error (.device "after draw" after.codes))
        p.checked after.device
        (.getError :: ((p.drawOrder r).calls ++
          ((if p.cache.validated then [] else [.validateProgram p.handle]) ++
            ((exactCall selection).calls mode ++
              List.replicate (after.codes.length + 1) .getError))))

/-- A draw has come to one of the ways out. -/
def Leaves (mode : DrawMode) (selection : Selection) : Prop :=
  p.Exit r mode selection ((p.draw mode selection).run r).value.1
    ((p.draw mode selection).run r).value.2 ((p.draw mode selection).run r).device
    (Event.calls ((p.draw mode selection).run r).events)

section Leaves
variable {p r} {mode : DrawMode} {selection : Selection}

/-- A draw of numbers that are too great is refused. -/
theorem leaves_of_not_inRange (hlinked : p.linked = true) (hcount : selection.count ≠ 0)
    (hrange : ¬ selection.InRange) : p.Leaves r mode selection := by
  have hdraw {failure : Failure} (hcall : drawCall selection = .error failure) :
      p.draw mode selection = .done (.error failure, p) := by
    simp [draw, hlinked, hcount, hcall]
  rcases drawCall_of_not_inRange hrange with
    ⟨hgreat, hcall⟩ | ⟨first, count, rfl, hsmall, hfirst, hcall⟩
  · rw [Leaves, hdraw hcall]
    exact .greatCount hlinked hgreat
  · rw [Leaves, hdraw hcall]
    exact .greatFirst hlinked hcount hsmall rfl hfirst

/-- A draw that finds no errors goes on to bind and to validate, and draws unless the recorder
finds fault with the program. -/
theorem leaves_of_codes_eq_nil (hlinked : p.linked = true) (hcount : selection.count ≠ 0)
    (hrange : selection.InRange) (hcodes : (Device.drain r).codes = []) :
    p.Leaves r mode selection := by
  have hquestions := r.questions_drain
  rw [hcodes] at hquestions
  have horder : p.bindingOrder r.takeError.2 = p.drawOrder r := by
    rw [drawOrder, r.device_drain hcodes]
  rw [Leaves, p.draw_eq hlinked hcount hrange, Script.run_bind, Script.run_checkErrors]
  simp only [hcodes, List.isEmpty_nil, if_true, Script.run_bind, events_bindAll, device_bindAll,
    r.device_drain hcodes, horder, run_validateOnce_recorder, hquestions,
    Recorder.verdict_afterBindings, Recorder.verdict_takeError]
  -- A program that has been validated before is not looked at again, whatever the recorder says.
  by_cases hvalid : p.cache.validated = false → r.failValidation = false
  · have hgoes : (if p.cache.validated = true then .ok () else r.verdict) = .ok () := by
      cases hnew : p.cache.validated with
      | true => rfl
      | false => simp [Recorder.verdict, hvalid hnew]
    have hvalidation : Event.calls (if p.cache.validated = true then [] else p.validationEvents) =
        if p.cache.validated = true then [] else [.validateProgram p.handle] := by
      split
      · rfl
      · exact p.calls_validationEvents
    have hexit : p.Exit r mode selection .. := .drawn hlinked hcount hrange hcodes hvalid rfl
    rw [hgoes, run_finish_recorder]
    simpa [hvalidation, Recorder.questions_drain] using hexit
  · obtain ⟨hnew, hfails⟩ := Classical.not_imp.mp hvalid
    rw [Bool.not_eq_false] at hfails
    have hexit : p.Exit r mode selection .. :=
      .invalid hlinked hcount hrange hcodes hnew hfails
    simpa [hnew, hfails, Recorder.verdict, finish, calls_validationEvents] using hexit

end Leaves

/-- **What a recorder is told in a draw**: whatever the program, the recorder and the selection,
a draw leaves by one of the ways out, with the calls of that way and no others. -/
theorem exit_of_draw (mode : DrawMode) (selection : Selection) :
    p.Exit r mode selection ((p.draw mode selection).run r).value.1
      ((p.draw mode selection).run r).value.2 ((p.draw mode selection).run r).device
      (Event.calls ((p.draw mode selection).run r).events) := by
  by_cases hlinked : p.linked = true
  · by_cases hcount : selection.count = 0
    · have hdraw : p.draw mode selection = .done (.ok (), p) := by simp [draw, hlinked, hcount]
      rw [hdraw]
      exact .empty hlinked hcount
    by_cases hrange : selection.InRange
    · by_cases hcodes : (Device.drain r).codes = []
      · exact leaves_of_codes_eq_nil hlinked hcount hrange hcodes
      · have hsome : (Device.drain r).codes.isEmpty = false := List.isEmpty_eq_false_iff.mpr hcodes
        rw [p.draw_eq hlinked hcount hrange, Script.run_bind, Script.run_checkErrors]
        simp only [hsome, Bool.false_eq_true, if_false, Script.run_done, List.append_nil,
          Event.calls_questions, r.questions_drain]
        exact .erroneous hlinked hcount hrange hcodes
    · exact leaves_of_not_inRange hlinked hcount hrange
  · rw [Bool.not_eq_true] at hlinked
    rw [p.draw_of_unlinked hlinked]
    exact .unlinked hlinked

end Program
end DrawStream
