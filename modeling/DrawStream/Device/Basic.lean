import DrawStream.Arrangement
import DrawStream.Device.Call
import DrawStream.Device.Numbers

/-! # Devices

A device answers requests and changes its state as it does.  It reports errors late,
one code per question, so whoever wants to know them has to keep asking.  `drain`
does so until the device has nothing to report or repeats itself: some devices report
their last error for ever. -/
namespace DrawStream

/-- A graphics device with states `σ`, and what else cannot be foreseen: the orders of tables. -/
class Device (σ : Type) where
  /-- The answer to a request, and the state after it. -/
  answer : {β : Type} → Request β → σ → β × σ
  /-- How many error codes the device still has to report, at most. -/
  pending : σ → Nat
  /-- The order in which the next table is gone through, and the state after it. -/
  arrange : σ → Arrangement × σ

/-- What asking for errors has brought to light. -/
structure Drained (σ : Type) where
  /-- The codes, oldest first. -/
  codes : List Nat
  /-- How often the device was asked. -/
  questions : Nat
  /-- The device afterwards. -/
  device : σ

namespace Device
variable {σ : Type} [Device σ]

/-- Asks for errors at most `bound` times, `last` being the code before. -/
def drainFrom : (bound : Nat) → (last : Option Nat) → σ → Drained σ
  | 0, _, d => ⟨[], 0, d⟩
  | bound + 1, last, d =>
    let (code, d) := answer .takeError d
    if code = noError ∨ last = some code then ⟨[], 1, d⟩
    else
      let rest := drainFrom bound (some code) d
      ⟨code :: rest.codes, rest.questions + 1, rest.device⟩

/-- Asking for errors keeps whatever a single question for an error keeps. -/
theorem keeps_drainFrom {Inv : σ → Prop} (h : ∀ d, Inv d → Inv (answer .takeError d).2)
    (bound : Nat) (last : Option Nat) {d : σ} (hd : Inv d) :
    Inv (drainFrom bound last d).device := by
  induction bound generalizing last d with
  | zero => exact hd
  | succ bound ih =>
    have hnext := h d hd
    unfold drainFrom
    dsimp only
    split
    · exact hnext
    · exact ih _ hnext

/-- Asks for errors until there is none or the same one again. -/
def drain (d : σ) : Drained σ := drainFrom (pending d + 1) none d

end Device
end DrawStream
