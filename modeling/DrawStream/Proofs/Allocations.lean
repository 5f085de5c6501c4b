import Mathlib.Data.List.Destutter
import DrawStream.Proofs.StorageDeals

/-! # Which storage is allocated

A buffer or a texture is asked for storage, and the device is told of it unless it is the
storage that there is.  So what the device is told should be what was asked for, without the
repetitions, and that is so over whole runs, whatever else is done in between and whoever asks
(`Bench.allocations`): the sizes of a buffer, as they were asked for, and the storages of a
texture, of which those that are too great for a device are turned down.

The reason is that the object remembers the last storage that was granted, which its replies
tell as well (`Bench.Knows`).  A request is settled by comparing with it, and nothing else
changes it, so every reply adds to the account of one holder at most what it should
(`Accounts.concat`). -/
namespace DrawStream
open Machine
open Command (Id)

/-! ## Requests and answers -/

/-- What is not repeated comes last. -/
theorem destutter'_concat {α : Type} [DecidableEq α] (a b : α) (l : List α) :
    (l ++ [b]).destutter' (· ≠ ·) a =
      l.destutter' (· ≠ ·) a ++ if l.getLastD a = b then [] else [b] := by
  induction l generalizing a with
  | nil => by_cases h : a = b <;> simp [h]
  | cons c rest ih =>
    rw [List.cons_append, List.destutter', List.destutter', List.getLastD_cons]
    by_cases h : a = c
    · simp only [h, ne_eq, not_true_eq_false, if_false]
      exact ih c
    · simp only [ne_eq, h, not_false_eq_true, if_true, List.cons_append]
      rw [ih c]

namespace Holder
variable (holder : Holder)

/-- The request of the holder that a reply answers to. -/
def request? (reply : Answered) : Option (Allocation × Bench.Answer) :=
  match reply.asked? with
  | some (h, a) => if h = holder then some (a, reply.answer) else none
  | none => none

/-- All that was asked for a holder, with the answers. -/
def requests (replies : List Answered) : List (Allocation × Bench.Answer) :=
  replies.filterMap holder.request?

/-- The requests that were granted. -/
def granted (requests : List (Allocation × Bench.Answer)) : List Allocation :=
  (requests.filter fun r => r.2.grants).map Prod.fst

/-- The last storage that was granted. -/
def latest (requests : List (Allocation × Bench.Answer)) : Allocation :=
  (granted requests).getLastD .nothing

/-- Storage as it changes: each is dropped that is equal to the one before it, and before the
first there is nothing. -/
def changes (storages : List Allocation) : List Allocation :=
  ((.nothing :: storages).destutter (· ≠ ·)).tail

variable {holder} {past : List Answered} {requests : List (Allocation × Bench.Answer)}
  {a : Allocation} {answer : Bench.Answer}

theorem requests_concat (past : List Answered) (reply : Answered) :
    holder.requests (past ++ [reply]) =
      holder.requests past ++ (holder.request? reply).toList := by
  rw [Holder.requests, List.filterMap_append]
  rfl

theorem granted_concat : granted (requests ++ [(a, answer)]) =
    granted requests ++ if answer.grants then [a] else [] := by
  cases hgrants : answer.grants <;> simp [granted, hgrants]

theorem latest_concat : latest (requests ++ [(a, answer)]) =
    if answer.grants then a else latest requests := by
  unfold latest
  rw [granted_concat]
  cases answer.grants <;> simp

/-- A buffer is only asked for bytes. -/
theorem bytes_of_mem_requests {handle : Handle} {r : Allocation × Bench.Answer}
    (h : r ∈ (Holder.buffer handle).requests past) : ∃ n, r.1 = .bytes n := by
  obtain ⟨reply, -, hrequest⟩ := List.mem_filterMap.mp h
  unfold request? at hrequest
  split at hrequest
  · next asked a hasked =>
    split at hrequest <;> cases hrequest
    next hholder =>
    obtain ⟨⟨object, work⟩, -, hdeed⟩ := Option.bind_eq_some_iff.mp hasked
    rw [hholder] at hdeed
    cases object <;> cases work <;> cases hdeed <;> exact ⟨_, rfl⟩
  · cases hrequest

theorem changes_concat (storages : List Allocation) (a : Allocation) :
    changes (storages ++ [a]) =
      changes storages ++ if storages.getLastD .nothing = a then [] else [a] := by
  have hne : storages.destutter' (· ≠ ·) Allocation.nothing ≠ [] :=
    fun h => List.destutter'_ne_nil _ _ h
  unfold changes
  rw [List.destutter_cons', destutter'_concat, List.tail_append_of_ne_nil hne,
    ← List.destutter_cons']

/-- Back to a size that there was before is a change. -/
example : changes [.bytes 0, .bytes 8, .bytes 8, .bytes 0] = [.bytes 8, .bytes 0] := by decide

/-- Another request adds a change if it is granted and asks for something else. -/
theorem changes_granted_concat (requests : List (Allocation × Bench.Answer))
    (a : Allocation) (answer : Bench.Answer) :
    changes (granted (requests ++ [(a, answer)])) =
      changes (granted requests) ++
        if answer.grants ∧ a ≠ latest requests then [a] else [] := by
  rw [granted_concat]
  cases hgrants : answer.grants with
  | false => simp
  | true =>
    rw [if_pos rfl, changes_concat]
    by_cases hsame : a = latest requests <;> simp [latest, hsame, eq_comm]

/-- What a reply is to a holder that has `current` storage. -/
inductive Hears (holder : Holder) (m : Machine) (current : Allocation) (reply : Answered) : Prop
  | unasked (request : holder.request? reply = none) (quiet : allotted holder m reply.entries = [])
  | asked {a : Allocation} (asked : reply.asked? = some (holder, a))
      (judged : Judged current a reply.answer) (silent : reply.answer ≠ .done → reply.entries = [])
      (allots : allotted holder m reply.entries =
        if reply.answer.grants ∧ a ≠ current then [a.told] else [])

end Holder

/-- **The account of a holder**: all that was asked for it and all that was allocated. -/
structure Accounts (holder : Holder) (replies : List Answered) : Prop where
  /-- The device is told of what was granted, without the repetitions. -/
  allotted : allotted holder {} (replies.flatMap Answered.entries) =
    (Holder.changes (Holder.granted (holder.requests replies))).map Allocation.told
  /-- Every request is compared with what was granted last before it. -/
  judged : ∀ before a answer after,
    holder.requests replies = before ++ (a, answer) :: after →
    Judged (Holder.latest before) a answer
  /-- A request that is rejected causes no calls. -/
  silent : ∀ reply ∈ replies, ∀ a, reply.asked? = some (holder, a) → reply.answer ≠ .done →
    reply.entries = []

namespace Accounts
variable {holder : Holder} {past : List Answered} {reply : Answered}

theorem nil (holder : Holder) : Accounts holder [] := by
  refine ⟨rfl, fun before a answer after h => ?_, fun _ hreply => by cases hreply⟩
  cases before <;> cases h

/-- One more reply. -/
theorem concat (h : Accounts holder past)
    (hears : holder.Hears (run {} (past.flatMap Answered.entries))
      (Holder.latest (holder.requests past)) reply) : Accounts holder (past ++ [reply]) := by
  have hflat : (past ++ [reply]).flatMap Answered.entries =
      past.flatMap Answered.entries ++ reply.entries := by simp
  cases hears with
  | unasked request quiet =>
    have hrequests : holder.requests (past ++ [reply]) = holder.requests past := by
      rw [Holder.requests_concat, request]
      exact List.append_nil _
    refine ⟨?_, ?_, ?_⟩
    · rw [hflat, allotted_append, quiet, List.append_nil, hrequests]
      exact h.allotted
    · rw [hrequests]
      exact h.judged
    · intro other hother a hasked hne
      rcases List.mem_append.mp hother with hold | hnew
      · exact h.silent other hold a hasked hne
      · cases List.mem_singleton.mp hnew
        simp [Holder.request?, hasked] at request
  | @asked a asked judged silent allots =>
    have hrequests : holder.requests (past ++ [reply]) =
        holder.requests past ++ [(a, reply.answer)] := by
      rw [Holder.requests_concat, Holder.request?, asked]
      simp
    refine ⟨?_, ?_, ?_⟩
    · rw [hflat, allotted_append, h.allotted, allots, hrequests, Holder.changes_granted_concat,
        List.map_append]
      split <;> rfl
    · intro before a' answer after heq
      rw [hrequests] at heq
      rcases List.eq_nil_or_concat after with rfl | ⟨front, last, rfl⟩
      · obtain ⟨rfl, hlast⟩ := List.append_inj' heq rfl
        cases hlast
        exact judged
      · rw [List.concat_eq_append, ← List.cons_append, ← List.append_assoc] at heq
        exact h.judged before a' answer front (List.append_inj' heq rfl).1
    · intro other hother a' hasked hne
      rcases List.mem_append.mp hother with hold | hnew
      · exact h.silent other hold a' hasked hne
      · cases List.mem_singleton.mp hnew
        exact silent hne

/-- Nothing that a buffer is asked for is rejected. -/
theorem granted_buffer {handle : Handle} (h : Accounts (.buffer handle) past) :
    Holder.granted ((Holder.buffer handle).requests past) =
      ((Holder.buffer handle).requests past).map Prod.fst := by
  have hgrants : ∀ r ∈ (Holder.buffer handle).requests past, r.2.grants = true := by
    intro r hr
    obtain ⟨before, after, hsplit⟩ := List.append_of_mem hr
    obtain ⟨n, hn⟩ := Holder.bytes_of_mem_requests hr
    have hdone : r.2 = .done := by
      by_contra hne
      have hgreat := ((h.judged before r.1 r.2 after hsplit).rejected_iff.mp hne).2
      rw [hn] at hgreat
      exact hgreat
    rw [hdone]
    rfl
  rw [Holder.granted, List.filter_eq_self.mpr hgrants]

end Accounts

/-! ## Runs -/

namespace Bench
open Answered
variable {b b' : Bench} {past : List Answered} {reply : Answered} {holder : Holder}

/-- A bench knows what has been asked for up to now. -/
structure Knows (past : List Answered) (b : Bench) : Prop where
  inStep : b.InStep (run {} (past.flatMap Answered.entries))
  /-- Every object remembers what was granted last. -/
  remembered : ∀ k o holder, b.at? k = some o → o.holder? = some holder →
    o.allocation = Holder.latest (holder.requests past)
  /-- Nothing has been asked for what is yet to be created. -/
  known : ∀ holder : Holder, holder.requests past ≠ [] → holder.handle ≤ b.recorder.lastHandle
  accounts : ∀ holder, Accounts holder past

namespace Knows

theorem of_same (h : Knows past b) (pool : b'.at? = b.at?) (recorder : b'.recorder = b.recorder) :
    Knows past b' := by
  refine ⟨?_, pool ▸ h.remembered, recorder ▸ h.known, h.accounts⟩
  unfold InStep
  rw [pool, recorder]
  exact h.inStep

theorem latest_of_new (h : Knows past b) (hnew : b.recorder.lastHandle < holder.handle) :
    Holder.latest (holder.requests past) = .nothing := by
  have hnone : holder.requests past = [] := by
    by_contra hsome
    exact absurd (h.known holder hsome) (Nat.not_le.mpr hnew)
  rw [hnone]
  rfl

/-- The handle tells objects apart, so at most one of them is the holder. -/
theorem ne_of_place (h : Knows past b) {j k : Id ⊕ String} {o x : Object} {holder' : Holder}
    (hj : j ≠ k) (hx : b.at? j = some x) (hholder' : x.holder? = some holder')
    (ho : b.at? k = some o) (hholder : o.holder? = some holder) : holder ≠ holder' := by
  rintro rfl
  refine hj (h.inStep.distinct j k x o hx ho ?_)
  rw [Object.handle_of_holder? hholder', Object.handle_of_holder? hholder]

/-- A reply to something else than a request for storage. -/
theorem unasked (h : Knows past b)
    (hfits : Throughout Fits (run {} (past.flatMap Answered.entries)) reply.entries)
    (hinStep : b'.InStep (run {} ((past ++ [reply]).flatMap Answered.entries)))
    (hlast : b.recorder.lastHandle ≤ b'.recorder.lastHandle) (quiet : reply.asked? = none)
    (spares : Spares b.recorder.lastHandle b.at? b'.at?) : Knows (past ++ [reply]) b' := by
  have hrequest : ∀ holder : Holder, holder.request? reply = none := by
    intro holder
    rw [Holder.request?, quiet]
  have hrequests : ∀ holder : Holder,
      holder.requests (past ++ [reply]) = holder.requests past := by
    intro holder
    rw [Holder.requests_concat, hrequest]
    exact List.append_nil _
  have hquiet : ∀ e ∈ reply.entries, e.deed.bind Deed.asked? = none := by
    intro e he
    obtain ⟨call, -, rfl⟩ := List.mem_map.mp he
    exact quiet
  refine ⟨hinStep, fun k x holder hx hholder => ?_, fun holder hsome => ?_, fun holder => ?_⟩
  · rw [hrequests]
    rcases spares k x holder hx hholder with hold | ⟨hnothing, hnew⟩
    · exact h.remembered k x holder hold hholder
    · rw [hnothing, h.latest_of_new hnew]
  · rw [hrequests] at hsome
    exact Nat.le_trans (h.known holder hsome) hlast
  · have hallots := allotted_eq_nil holder hfits hquiet
    exact (h.accounts holder).concat (.unasked (hrequest holder) hallots)

/-- A reply to a request for storage. -/
theorem asked (h : Knows past b)
    (hinStep : b'.InStep (run {} ((past ++ [reply]).flatMap Answered.entries)))
    (hlast : b.recorder.lastHandle ≤ b'.recorder.lastHandle) {k : Id ⊕ String} {o o' : Object}
    {a : Allocation} (found : b.at? k = some o) (holds : o.holder? = some holder)
    (asked : reply.asked? = some (holder, a))
    (settles : o.Settles a reply.answer (Event.calls reply.episode.events) o')
    (after : b'.at? = Function.update b.at? k (some o')) : Knows (past ++ [reply]) b' := by
  have hrequest : ∀ holder' : Holder, holder'.request? reply =
      if holder = holder' then some (a, reply.answer) else none := by
    intro holder'
    rw [Holder.request?, asked]
  have hrequests : ∀ holder' : Holder, holder'.requests (past ++ [reply]) =
      holder'.requests past ++ if holder = holder' then [(a, reply.answer)] else [] := by
    intro holder'
    rw [Holder.requests_concat, hrequest]
    split <;> rfl
  have hcurrent : o.allocation = Holder.latest (holder.requests past) :=
    h.remembered k o holder found holds
  obtain ⟨hsame, hnow⟩ := settles.after
  refine ⟨hinStep, fun j x holder' hx hholder => ?_, fun holder' hsome => ?_, fun holder' => ?_⟩
  · rw [hrequests]
    rw [after] at hx
    by_cases hj : j = k
    -- What was granted is what the object remembers now; others are not the holder.
    · subst hj
      rw [Function.update_self] at hx
      cases hx
      cases holds.symm.trans (hsame.symm.trans hholder)
      rw [if_pos rfl, Holder.latest_concat, hnow, hcurrent]
    · rw [Function.update_of_ne hj] at hx
      rw [if_neg (h.ne_of_place hj hx hholder found holds), List.append_nil]
      exact h.remembered j x holder' hx hholder
  · rw [hrequests] at hsome
    refine Nat.le_trans ?_ hlast
    by_cases heq : holder = holder'
    · subst heq
      rw [← Object.handle_of_holder? holds]
      exact h.inStep.known k o found
    · rw [if_neg heq, List.append_nil] at hsome
      exact h.known holder' hsome
  · refine (h.accounts holder').concat ?_
    have hallots := settles.allots holds (run {} (past.flatMap Answered.entries))
      reply.episode.deed reply.episode.links holder'
    by_cases heq : holder = holder'
    · subst heq
      rw [hcurrent] at hallots
      have hsilent : reply.answer ≠ .done → reply.entries = [] := by
        intro hne
        unfold Answered.entries Episode.entries
        rw [settles.silent hne]
        rfl
      exact .asked asked (hcurrent ▸ settles.judged) hsilent
        (hallots.trans (if_congr (by simp) rfl rfl))
    · have hnone : holder'.request? reply = none := by rw [hrequest, if_neg heq]
      exact .unasked hnone (hallots.trans (if_neg fun hand => heq hand.1))

/-- **Every deal keeps the accounts**, of the holder that is asked and of all others. -/
theorem deal (h : Knows past b) (deal : Deal b reply b') : Knows (past ++ [reply]) b' := by
  have hleads := deal.leads h.inStep
  have hfits : Throughout Fits (run {} (past.flatMap Answered.entries)) reply.entries := by
    have hfits := hleads.fits
    rwa [List.flatMap_singleton] at hfits
  have hinStep : b'.InStep (run {} ((past ++ [reply]).flatMap Answered.entries)) := by
    rw [List.flatMap_append, run_append]
    exact hleads.inStep
  cases deal.affects with
  | unasked quiet spares => exact h.unasked hfits hinStep deal.lastHandle_le quiet spares
  | asked found holds asked settles after =>
    exact h.asked hinStep deal.lastHandle_le found holds asked settles after

theorem course {replies : List Answered} (h : Knows past b) (course : Course b replies b') :
    Knows (past ++ replies) b' := by
  induction course generalizing past with
  | nil pool recorder =>
    rw [List.append_nil]
    exact h.of_same pool recorder
  | cons pool recorder deal _ ih =>
    rw [List.append_cons]
    exact ih ((h.of_same pool recorder).deal deal)

theorem fresh (deferred : Bool) (usage : BufferUsage) (recorder : Recorder) :
    Knows [] (fresh deferred usage recorder) := by
  refine ⟨inStep_fresh deferred usage recorder, fun k o holder ho => ?_,
    fun _ hne => absurd rfl hne, Accounts.nil⟩
  cases k <;> cases ho

end Knows

/-- **What is allocated is what was asked for, without the repetitions**, for every holder and
whatever is done on a new bench.  Buffers are granted all that they are asked for. -/
theorem allocations (deferred : Bool) (usage : BufferUsage) (recorder : Recorder)
    (actions : List Action) :
    let b := Bench.fresh deferred usage recorder
    let replies := b.allReplies actions
    replies.flatMap Answered.entries = b.history actions ∧
      (∀ holder, Accounts holder replies) ∧
      ∀ handle, Holder.granted ((Holder.buffer handle).requests replies) =
        ((Holder.buffer handle).requests replies).map Prod.fst := by
  intro b replies
  have hknows := (Knows.fresh deferred usage recorder).course (b.course_actAll actions)
  exact ⟨b.entries_allReplies actions, hknows.accounts, fun handle =>
    (hknows.accounts (.buffer handle)).granted_buffer⟩

end Bench
end DrawStream
