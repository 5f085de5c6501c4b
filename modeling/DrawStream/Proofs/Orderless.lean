import DrawStream.Context.Queue
import DrawStream.Proofs.DrawExits
import DrawStream.Proofs.Resolution
import DrawStream.Proofs.Rolls

/-! # The orders of tables show in bindings only

Two recorders may go through their tables in different orders and be the same otherwise
(`Recorder.BarOrder`).  A script is `Orderless` if it makes nothing else of the orders: on both
recorders it comes to the same value and leaves the same events, bar the order of bindings, and
afterwards the recorders are still the same bar their orders.  A script that asks for no order is
such a script, and one script after another is if each of them is, so it remains to look at
draws, which bind what is recorded (`Program.orderless_draw`).  So executing a command is
orderless, whatever the command (`Context.orderless_execute`). -/
namespace DrawStream

/-! ## Recorders that differ in orders only -/

/-- The second recorder is the first one but for the orders of tables to come. -/
def Recorder.BarOrder (r r' : Recorder) : Prop := r' = { r with arrangements := r'.arrangements }

/-- The recorder with other orders of tables to come. -/
def Recorder.inOrders (r : Recorder) (arrangements : List Arrangement) : Recorder :=
  { r with arrangements }

namespace Recorder
variable {r r' : Recorder}

theorem BarOrder.exists_eq (h : r.BarOrder r') : ∃ arrangements, r' = r.inOrders arrangements :=
  ⟨r'.arrangements, h⟩

/-- Nothing is asked for whose answer depends on the orders. -/
theorem answer_inOrders {β : Type} (q : Request β) (r : Recorder)
    (arrangements : List Arrangement) :
    Device.answer q (r.inOrders arrangements) =
      ((Device.answer q r).1, (Device.answer q r).2.inOrders arrangements) := by
  have hfind (declared : List Variable) (name : String) :
      (r.inOrders arrangements).find declared name =
        ((r.find declared name).1, (r.find declared name).2.inOrders arrangements) := by
    by_cases hsettled : 0 ≤ Device.locate declared name ∨ ¬ r.permissive
    · rw [find_of_settled hsettled]
      exact find_of_settled (r := r.inOrders arrangements) hsettled
    · cases hassigned : r.assigned.lookup name with
      | some location =>
        rw [find_of_assigned hsettled hassigned]
        exact find_of_assigned (r := r.inOrders arrangements) hsettled hassigned
      | none =>
        rw [find_of_new hsettled hassigned,
          find_of_new (r := r.inOrders arrangements) hsettled hassigned]
        simp only [nextAssigned, inOrders]
  cases q with
  | uniformLocation program name => exact hfind r.uniforms name
  | attributeLocation program name => exact hfind r.attributes name
  | drawArrays | drawElements =>
    change ((), (r.inOrders arrangements).raise) = ((), r.raise.inOrders arrangements)
    cases hraised : r.drawError <;> simp only [raise, inOrders, hraised]
  | takeError =>
    change (r.inOrders arrangements).takeError = _
    change _ = (r.takeError.1, r.takeError.2.inOrders arrangements)
    cases herrors : r.errors <;> simp only [takeError, inOrders, herrors]
  | _ => rfl

theorem drain_inOrders (r : Recorder) (arrangements : List Arrangement) :
    Device.drain (r.inOrders arrangements) =
      ⟨(Device.drain r).codes, (Device.drain r).questions,
        (Device.drain r).device.inOrders arrangements⟩ := by
  rw [drain_eq, drain_eq]
  rfl

end Recorder

/-- The second run has come to what the first one has, bar the order of bindings. -/
structure Ran.BarOrder {α : Type} (x y : Ran Recorder α) : Prop where
  value : y.value = x.value
  device : x.device.BarOrder y.device
  events : DrawStream.BarOrder Event.call x.events y.events

/-! ## Scripts that make nothing of orders -/

/-- On recorders that differ in their orders only, the script comes to the same bar the order of
bindings. -/
def Script.Orderless {α : Type} (x : Script α) : Prop :=
  ∀ r r' : Recorder, r.BarOrder r' → (x.run r).BarOrder (x.run r')

namespace Script
variable {α γ : Type}

theorem orderless_done (a : α) : Script.Orderless (Dialogue.done a) :=
  fun _ _ h => ⟨rfl, h, .nil⟩

theorem Orderless.bind {x : Script α} {f : α → Script γ} (hx : x.Orderless)
    (hf : ∀ a, (f a).Orderless) : Script.Orderless (Dialogue.bind x f) := by
  intro r r' h
  have hfirst := hx r r' h
  have hrest := hf (x.run r).value _ _ hfirst.device
  rw [run_bind, run_bind, hfirst.value]
  exact ⟨hrest.value, hrest.device, hfirst.events.append hrest.events⟩

/-- A script that asks for no order goes the same way whatever the orders to come. -/
theorem Within.run_inOrders {topics : List Topic} {post : α → Prop} {x : Script α}
    (h : x.Within topics post) (htopics : .order ∉ topics) (r : Recorder)
    (arrangements : List Arrangement) :
    x.run (r.inOrders arrangements) =
      ⟨(x.run r).value, (x.run r).device.inOrders arrangements, (x.run r).events⟩ := by
  induction x generalizing r with
  | done a => rfl
  | ask act next ih =>
    have hact : act.perform (r.inOrders arrangements) =
        ⟨(act.perform r).value, (act.perform r).device.inOrders arrangements,
          (act.perform r).events⟩ := by
      cases act with
      | request q => simp only [Act.perform, Recorder.answer_inOrders]
      | drain => simp only [Act.perform, Recorder.drain_inOrders]
      | arrange => exact absurd (h.1 _ rfl) htopics
      | note n => rfl
    simp only [run_ask, hact, ih _ (h.2 _)]

theorem Within.orderless {topics : List Topic} {post : α → Prop} {x : Script α}
    (h : x.Within topics post) (htopics : .order ∉ topics) : x.Orderless := by
  intro r r' hr
  obtain ⟨arrangements, rfl⟩ := hr.exists_eq
  rw [h.run_inOrders htopics]
  exact ⟨rfl, rfl, .refl _⟩

theorem orderless_note (n : Note) : (note n).Orderless := fun _ _ h => ⟨rfl, h, .refl _⟩

theorem orderless_checkErrors (checkpoint : String) : (checkErrors checkpoint).Orderless := by
  have hwithin : (checkErrors checkpoint).Within [.errors] fun _ => True :=
    within_checkErrors List.mem_cons_self fun _ => trivial
  exact hwithin.orderless (by decide)

end Script

/-! ## Draws -/

namespace Program
variable (p : Program)

/-- Whatever the orders, everything that is recorded is bound. -/
theorem orderless_bindAll : p.bindAll.Orderless := by
  intro r r' h
  obtain ⟨arrangements, rfl⟩ := h.exists_eq
  refine ⟨rfl, ?_, ?_⟩
  · rw [device_bindAll, device_bindAll]
    rfl
  · rw [events_bindAll, events_bindAll]
    exact .of_bindings _ _

theorem orderless_draw (mode : DrawMode) (selection : Selection) :
    (p.draw mode selection).Orderless := by
  unfold draw
  split
  · exact Script.orderless_done _
  split
  · exact Script.orderless_done _
  split
  · exact Script.orderless_done _
  refine (Script.orderless_checkErrors _).bind fun checked => ?_
  cases checked with
  | error => exact Script.orderless_done _
  | ok =>
    refine p.orderless_bindAll.bind fun _ => ?_
    refine (p.within_validateOnce.orderless (by decide)).bind fun validated => ?_
    obtain ⟨validated, p⟩ := validated
    cases validated with
    | error => exact Script.orderless_done _
    | ok =>
      refine ((within_issue mode _).orderless (by decide)).bind fun _ => ?_
      exact (Script.orderless_checkErrors _).bind fun _ => Script.orderless_done _

/-- Every order is that of a draw on a recorder. -/
theorem exists_drawOrder (order : p.BindingOrder) (r : Recorder) :
    ∃ arrangements, p.drawOrder (r.inOrders arrangements) = order := by
  obtain ⟨samplers, attributes, hsamplers, hattributes⟩ := order
  obtain ⟨first, hfirst⟩ := Arrangement.exists_apply hsamplers
  obtain ⟨second, hsecond⟩ := Arrangement.exists_apply hattributes
  obtain ⟨hleft, hright⟩ := p.drawOrder_recorder (r.inOrders [first, second])
  refine ⟨[first, second], BindingOrder.ext (hleft.trans hfirst) (hright.trans hsecond)⟩

end Program

/-! ## Commands -/

namespace Context
variable (c : Context)

theorem orderless_carryOut (command : Command) : (c.carryOut command).Orderless := by
  cases command with
  | draw id mode selection =>
    dsimp only [carryOut]
    split
    · exact Script.orderless_done _
    unfold onProgram
    split
    · exact Script.orderless_done _
    · exact (Program.orderless_draw _ mode _).bind fun _ => Script.orderless_done _
  | _ => exact (within_carryOut _).orderless (by simp [Command.topics])

/-- **Executing a command comes to the same whatever the orders of tables**, bar the order of
bindings. -/
theorem orderless_execute (command : Command) : (c.execute command).Orderless :=
  (Script.orderless_note _).bind fun _ => c.orderless_carryOut command

theorem orderless_submit (command : Command) : (c.submit command).Orderless := by
  unfold submit
  split
  · exact Script.orderless_done _
  · exact c.orderless_execute command

theorem orderless_executeAll (count : Nat) (commands : List Command) :
    (c.executeAll count commands).Orderless := by
  induction commands generalizing c count with
  | nil => exact Script.orderless_done _
  | cons command waiting ih =>
    refine (orderless_execute _ command).bind fun executed => ?_
    obtain ⟨outcome, after⟩ := executed
    cases outcome with
    | error => exact Script.orderless_done _
    | ok => exact ih after (count + 1)

theorem orderless_executePending : c.executePending.Orderless := by
  refine (c.orderless_executeAll 0 c.queue).bind fun executed => ?_
  obtain ⟨outcome, after⟩ := executed
  cases outcome with
  | error => exact Script.orderless_done _
  | ok count =>
    dsimp only
    split
    · exact (Script.orderless_note _).bind fun _ => Script.orderless_done _
    · exact Script.orderless_done _

end Context
end DrawStream
