import Mathlib.Data.List.Chain
import DrawStream.Device.Recorder
import DrawStream.Proofs.Draws

/-! # What a check for errors takes from a queue

A device is asked for errors until it has none to report or repeats the one before, and the
answer that ends the questions is not reported.  `Device.Drains` is this loop as it goes, with
no bound on the questions.  On a recorder it comes to an end whatever waits there
(`Recorder.drains`), and a bound that is not reached makes no difference
(`Device.drainFrom_of_drains`), so a check does what the loop does.

What is reported is a front of the queue: the longest one in which every code is an error and
none repeats the one before (`Recorder.front_iff`).  The code behind it is lost, be it the
repetition or a mark that there is no error, and what lies further behind goes on waiting.
So a single check may leave errors behind, but it leaves less each time, and checks that are
made again and again come to find nothing (`Recorder.checks_end`). -/
namespace DrawStream

namespace Device
variable {σ : Type} [Device σ]

/-- Asking for errors, `last` being the code before, comes to this. -/
inductive Drains : (last : Option Nat) → σ → Drained σ → Prop
  | ends {last : Option Nat} {d : σ}
      (silent : (answer .takeError d).1 = noError ∨ last = some (answer .takeError d).1) :
      Drains last d ⟨[], 1, (answer .takeError d).2⟩
  | goesOn {last : Option Nat} {d : σ} {rest : Drained σ}
      (reports : ¬ ((answer .takeError d).1 = noError ∨ last = some (answer .takeError d).1))
      (later : Drains (some (answer .takeError d).1) (answer .takeError d).2 rest) :
      Drains last d
        ⟨(answer .takeError d).1 :: rest.codes, rest.questions + 1, rest.device⟩

/-- Asking at most so many times is the same, if no more questions are needed. -/
theorem drainFrom_of_drains {last : Option Nat} {d : σ} {drained : Drained σ}
    (h : Drains last d drained) {bound : Nat} (hbound : drained.questions ≤ bound) :
    drainFrom bound last d = drained := by
  induction h generalizing bound with
  | ends silent =>
    obtain ⟨n, rfl⟩ := Nat.exists_eq_add_of_le' hbound
    exact if_pos silent
  | goesOn reports later ih =>
    obtain ⟨n, rfl⟩ := Nat.exists_eq_add_of_le' (Nat.le_trans (Nat.le_add_left 1 _) hbound)
    have hrest := ih (Nat.le_of_succ_le_succ hbound)
    unfold drainFrom
    dsimp only
    rw [if_neg reports, hrest]

end Device

namespace Recorder

/-- The codes at the front of a queue that are reported, `last` being the code before. -/
def reportedAfter (last : Option Nat) : List Nat → List Nat
  | [] => []
  | code :: rest =>
    if code = Device.noError ∨ last = some code then []
    else code :: reportedAfter (some code) rest

/-- A front of a queue in which every code is an error and none repeats the one before. -/
structure Front (queue codes : List Nat) : Prop where
  isFront : codes <+: queue
  errors : Device.noError ∉ codes
  changing : codes.IsChain (· ≠ ·)

/-- The fronts of what is reported are the fronts of the queue without repetitions, of which the
first code does not repeat `last` either. -/
theorem prefix_reportedAfter_iff (last : Option Nat) (queue codes : List Nat) :
    codes <+: reportedAfter last queue ↔
      Front queue codes ∧ ∀ code ∈ codes.head?, last ≠ some code := by
  induction queue generalizing last codes with
  | nil =>
    constructor
    · intro h
      cases List.prefix_nil.mp h
      exact ⟨⟨List.prefix_rfl, List.not_mem_nil, .nil⟩, fun _ hcode => by cases hcode⟩
    · rintro ⟨⟨hfront, -, -⟩, -⟩
      exact hfront
  | cons first rest ih =>
    cases codes with
    | nil =>
      refine iff_of_true List.nil_prefix ⟨⟨List.nil_prefix, List.not_mem_nil, .nil⟩, ?_⟩
      exact fun _ hcode => by cases hcode
    | cons code codes =>
      have hhead : (∀ c ∈ (code :: codes).head?, last ≠ some c) ↔ last ≠ some code := by simp
      rw [hhead, reportedAfter]
      split
      · next hends =>
        refine iff_of_false (fun h => by simp at h) ?_
        rintro ⟨⟨hfront, herrors, -⟩, hlast⟩
        obtain ⟨rfl, -⟩ := List.cons_prefix_cons.mp hfront
        rcases hends with hnone | hsame
        · exact herrors (hnone ▸ List.mem_cons_self)
        · exact hlast hsame
      · next hgoes =>
        rw [List.cons_prefix_cons, ih]
        constructor
        · rintro ⟨rfl, ⟨hfront, herrors, hchain⟩, hnext⟩
          obtain ⟨herror, hlast⟩ := not_or.mp hgoes
          refine ⟨⟨List.cons_prefix_cons.mpr ⟨rfl, hfront⟩, ?_, ?_⟩, hlast⟩
          · exact List.not_mem_cons_of_ne_of_not_mem (Ne.symm herror) herrors
          · exact List.isChain_cons.mpr ⟨fun c hc heq => hnext c hc (congrArg some heq), hchain⟩
        · rintro ⟨⟨hfront, herrors, hchain⟩, -⟩
          obtain ⟨rfl, hrest⟩ := List.cons_prefix_cons.mp hfront
          obtain ⟨hnext, hchain⟩ := List.isChain_cons.mp hchain
          refine ⟨rfl, ⟨hrest, List.not_mem_of_not_mem_cons herrors, hchain⟩, ?_⟩
          exact fun c hc heq => hnext c hc (Option.some.inj heq)

variable (r : Recorder)

/-- The codes that a check for errors reports. -/
def reported : List Nat := reportedAfter none r.errors

/-- **What is reported is the longest front of the queue without repetitions.** -/
theorem front_iff (codes : List Nat) : codes <+: r.reported ↔ Front r.errors codes := by
  rw [reported, prefix_reportedAfter_iff]
  exact and_iff_left fun code _ => Option.some_ne_none code |>.symm

theorem front_reported : Front r.errors r.reported :=
  (r.front_iff r.reported).mp List.prefix_rfl

/-- The recorder after a check: the reported codes are gone, and one more. -/
def afterCheck : Recorder := { r with errors := r.errors.drop (r.reported.length + 1) }

/-- **The questions come to an end, whatever waits in the queue.** -/
theorem drains : Device.Drains none r ⟨r.reported, r.reported.length + 1, r.afterCheck⟩ := by
  -- The queue gets shorter with every question, and the code that was taken becomes the last one.
  suffices h : ∀ (queue : List Nat) (last : Option Nat),
      Device.Drains last { r with errors := queue }
        ⟨reportedAfter last queue, (reportedAfter last queue).length + 1,
          { r with errors := queue.drop ((reportedAfter last queue).length + 1) }⟩ from
    h r.errors none
  intro queue
  induction queue with
  | nil => exact fun last => .ends (.inl rfl)
  | cons code rest ih =>
    intro last
    by_cases hends : code = Device.noError ∨ last = some code
    · rw [reportedAfter, if_pos hends]
      exact .ends hends
    · rw [reportedAfter, if_neg hends]
      exact .goesOn (d := { r with errors := code :: rest }) hends (ih (some code))

theorem drain_eq : Device.drain r = ⟨r.reported, r.reported.length + 1, r.afterCheck⟩ :=
  Device.drainFrom_of_drains r.drains (Nat.succ_le_succ r.front_reported.isFront.length_le)

theorem run_checkErrors (checkpoint : String) :
    (Script.checkErrors checkpoint).run r =
      ⟨if r.reported = [] then .ok () else .error (.device checkpoint r.reported), r.afterCheck,
        Event.questions (r.reported.length + 1)⟩ := by
  rw [Script.run_checkErrors, drain_eq]
  simp only [List.isEmpty_iff]

/-- Nothing is reported if there is nothing, or a mark that there is nothing. -/
theorem reported_eq_nil_iff :
    r.reported = [] ↔ r.errors = [] ∨ r.errors.head? = some Device.noError := by
  unfold reported
  cases r.errors with
  | nil => exact iff_of_true rfl (.inl rfl)
  | cons code rest => simp [reportedAfter]

/-- Among errors alone, only an empty queue has nothing to report. -/
theorem reported_eq_nil_iff_of_errors (h : Device.noError ∉ r.errors) :
    r.reported = [] ↔ r.errors = [] := by
  rw [reported_eq_nil_iff]
  exact or_iff_left fun hhead => h (List.mem_of_head? hhead)

/-- A check that reports something leaves less waiting. -/
theorem length_errors_afterCheck (h : r.reported ≠ []) :
    r.afterCheck.errors.length < r.errors.length := by
  have hreported := List.length_pos_iff.mpr h
  have hfront := r.front_reported.isFront.length_le
  simp only [afterCheck, List.length_drop]
  omega

end Recorder

/-- Checks for errors at places, one after the other, and their outcomes. -/
def Script.checkEach : (places : List String) → Script (List (Outcome Unit))
  | [] => return []
  | place :: rest => do
    let outcome ← checkErrors place
    return outcome :: (← checkEach rest)

namespace Recorder

theorem value_checkEach_cons (r : Recorder) (place : String) (rest : List String) :
    ((Script.checkEach (place :: rest)).run r).value =
      ((Script.checkErrors place).run r).value ::
        ((Script.checkEach rest).run ((Script.checkErrors place).run r).device).value := by
  simp [Script.checkEach, Script.run_bind]

/-- Checks fail until nothing waits any more, and none fails afterwards.  Each that fails takes an
error away, which bounds their number. -/
theorem checks_end (r : Recorder) (h : Device.noError ∉ r.errors) :
    ∃ failing ≤ r.errors.length, ∀ places k, k < places.length →
      (((Script.checkEach places).run r).value[k]? = some (.ok ()) ↔ failing ≤ k) := by
  induction hlength : r.errors.length using Nat.strongRecOn generalizing r with
  | ind length ih =>
    by_cases hnone : r.reported = []
    · -- Nothing waits, and that is so after the check too.
      have hempty := (r.reported_eq_nil_iff_of_errors h).mp hnone
      have hafter : r.afterCheck = r := by
        simp only [afterCheck, hempty, List.drop_nil]
        rw [← hempty]
      refine ⟨0, Nat.zero_le _, fun places => ?_⟩
      induction places with
      | nil => exact fun k hk => absurd hk (Nat.not_lt_zero k)
      | cons place rest ihplaces =>
        intro k hk
        rw [value_checkEach_cons, run_checkErrors, if_pos hnone, hafter]
        cases k with
        | zero => exact iff_of_true rfl (Nat.le_refl 0)
        | succ k =>
          have hlater := ihplaces k (Nat.lt_of_succ_lt_succ hk)
          exact iff_of_true (hlater.mpr (Nat.zero_le k)) (Nat.zero_le _)
    · have hless := r.length_errors_afterCheck hnone
      have hrest : Device.noError ∉ r.afterCheck.errors := fun hmem => h (List.mem_of_mem_drop hmem)
      obtain ⟨failing, hle, hlater⟩ := ih _ (hlength ▸ hless) r.afterCheck hrest rfl
      refine ⟨failing + 1, by omega, fun places k hk => ?_⟩
      cases places with
      | nil => exact absurd hk (Nat.not_lt_zero k)
      | cons place rest =>
        rw [value_checkEach_cons, run_checkErrors, if_neg hnone]
        cases k with
        | zero => exact iff_of_false (fun hok => by cases hok) (Nat.not_succ_le_zero _)
        | succ k =>
          exact (hlater rest k (Nat.lt_of_succ_lt_succ hk)).trans Nat.succ_le_succ_iff.symm

/-- What a check for errors comes to, if `codes` are what it reports. -/
structure CheckSettled (r : Recorder) (checkpoint : String) (codes : List Nat) : Prop where
  /-- The codes are a front of the queue without repetitions. -/
  front : Front r.errors codes
  /-- There is no longer one. -/
  longest : ∀ front, Front r.errors front → front.length ≤ codes.length
  /-- The questions come to an end. -/
  ends : Device.Drains none r
    ⟨codes, codes.length + 1, { r with errors := r.errors.drop (codes.length + 1) }⟩
  /-- The codes and the one behind them are taken, one question each, and the codes are
  reported. -/
  run : (Script.checkErrors checkpoint).run r =
    ⟨if codes = [] then .ok () else .error (.device checkpoint codes),
      { r with errors := r.errors.drop (codes.length + 1) },
      List.replicate (codes.length + 1) (.call .getError)⟩
  /-- There is nothing to report just if nothing waits or the first code is no error. -/
  ok_iff : codes = [] ↔ r.errors = [] ∨ r.errors.head? = some Device.noError

/-- **A check for errors takes the longest front without repetitions and one code more.**  If
only errors wait, it succeeds just if none does, and checks that are made again and again fail
at most as often as there are errors. -/
theorem check_settled (r : Recorder) (checkpoint : String) :
    (∃ codes, r.CheckSettled checkpoint codes) ∧
      (Device.noError ∉ r.errors →
        (((Script.checkErrors checkpoint).run r).value = .ok () ↔ r.errors = []) ∧
        ∃ failing ≤ r.errors.length, ∀ places k, k < places.length →
          (((Script.checkEach places).run r).value[k]? = some (.ok ()) ↔ failing ≤ k)) := by
  refine ⟨⟨r.reported, ?_⟩, fun h => ⟨?_, r.checks_end h⟩⟩
  · exact
      { front := r.front_reported
        longest := fun front hfront => ((r.front_iff front).mpr hfront).length_le
        ends := r.drains
        run := r.run_checkErrors checkpoint
        ok_iff := r.reported_eq_nil_iff }
  · rw [run_checkErrors, ← r.reported_eq_nil_iff_of_errors h]
    split
    · next hnone => exact iff_of_true rfl hnone
    · next hsome => exact iff_of_false (fun hok => by cases hok) hsome

/-- Where an error comes twice in a row, the second one is lost to the check, and the one behind
it waits for the next. -/
theorem check_settled_of_repetition :
    let r : Recorder := { errors := [0x505, 0x505, 0x502] }
    Device.noError ∉ r.errors ∧ ((Script.checkErrors "draw").run r).value ≠ .ok () ∧
      ((Script.checkErrors "draw").run r).value = .error (.device "draw" [0x505]) ∧
      ((Script.checkErrors "draw").run r).device.errors = [0x502] := by
  intro r
  have herrors : Device.noError ∉ r.errors := by decide
  obtain ⟨hok, -⟩ := (r.check_settled "draw").2 herrors
  refine ⟨herrors, fun hvalue => ?_, by decide, by decide⟩
  exact absurd (hok.mp hvalue) (by decide)

end Recorder
end DrawStream
