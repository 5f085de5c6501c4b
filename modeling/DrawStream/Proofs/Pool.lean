import Mathlib.Data.Sum.Basic
import DrawStream.Context.Basic
import DrawStream.Proofs.Agreement

/-! # Pools of objects that agree with a device

A pool is a way to find objects: by their numbers in a context, by their names on a bench.
A pool is sound (`Sound`) if all its objects agree with what the device holds and no two
share a handle.  Work on one object keeps a pool sound, since it leaves alone what is held
for the others (`Sound.moved`), and so does a new object, since its handle is new
(`Sound.insert`).  Both are cases of a change at one place of the pool (`Sound.update`). -/
namespace DrawStream
open Command (Id)

/-! ## Finding by numbers and names -/

/-- In a list without repeated keys everything can be found. -/
theorem lookup_eq_some_iff_mem {κ α : Type} [BEq κ] [LawfulBEq κ] {l : List (κ × α)} {k : κ}
    {a : α} (h : (l.map Prod.fst).Nodup) :
    l.lookup k = some a ↔ (k, a) ∈ l := by
  rw [List.lookup_eq_some_iff]
  constructor
  · rintro ⟨front, back, rfl, -⟩
    exact List.mem_append_right front List.mem_cons_self
  · intro hmem
    obtain ⟨front, back, rfl⟩ := List.append_of_mem hmem
    refine ⟨front, back, rfl, fun e he => ?_⟩
    rw [List.map_append, List.nodup_append] at h
    have hne := h.2.2 e.1 (List.mem_map_of_mem he) k List.mem_cons_self
    exact bne_iff_ne.mpr hne.symm

section Lookup
variable {κ α : Type} [BEq κ] [LawfulBEq κ] [DecidableEq κ] (l : List (κ × α)) (k : κ) (a : α)

/-- What a list without one of its keys still has. -/
theorem lookup_without :
    (fun j => (l.filter fun e => e.1 ≠ k).lookup j) =
      Function.update (fun j => l.lookup j) k none := by
  funext j
  induction l with
  | nil => by_cases hj : j = k <;> simp [Function.update, hj]
  | cons e rest ih =>
    obtain ⟨i, c⟩ := e
    by_cases hi : i = k
    · subst hi
      by_cases hj : j = i
      · simpa [hj] using ih
      · simpa [List.lookup_cons, beq_false_of_ne hj, Function.update, hj] using ih
    · have hkeep : ((i, c) :: rest).filter (fun e => e.1 ≠ k) =
          (i, c) :: rest.filter fun e => e.1 ≠ k := List.filter_cons_of_pos (by simpa using hi)
      rw [hkeep, List.lookup_cons, ih]
      by_cases hj : j = k
      · subst hj
        simp [beq_false_of_ne (Ne.symm hi)]
      · rw [Function.update_of_ne hj, Function.update_of_ne hj, List.lookup_cons]

/-- What a list has when the value of one of its keys is replaced. -/
theorem lookup_replace :
    (fun j => (l.map fun e => if e.1 = k then (k, a) else e).lookup j) =
      Function.update (fun j => l.lookup j) k ((l.lookup k).map fun _ => a) := by
  funext j
  induction l with
  | nil => by_cases hj : j = k <;> simp [Function.update, hj]
  | cons e rest ih =>
    obtain ⟨i, c⟩ := e
    by_cases hi : i = k
    · subst hi
      by_cases hj : j = i
      · simp [hj]
      · simpa [List.lookup_cons, beq_false_of_ne hj, Function.update, hj] using ih
    · rw [List.map_cons, if_neg hi, List.lookup_cons, ih]
      by_cases hj : j = k
      · subst hj
        simp [List.lookup_cons, beq_false_of_ne (Ne.symm hi)]
      · rw [Function.update_of_ne hj, Function.update_of_ne hj, List.lookup_cons]

variable {l k}

/-- A value that is not there is added. -/
theorem lookup_concat (h : l.lookup k = none) :
    (fun j => (l ++ [(k, a)]).lookup j) = Function.update (fun j => l.lookup j) k (some a) := by
  funext j
  rw [List.lookup_append]
  by_cases hj : j = k
  · subst hj
    simp [h]
  · rw [Function.update_of_ne hj, List.lookup_cons, beq_false_of_ne hj]
    exact Option.or_none

end Lookup

namespace Context
variable (c : Context) (id : Id)

theorem object?_put (object : Object) :
    (c.put id object).object? = Function.update c.object? id (some object) := by
  unfold put
  split
  · next h =>
    obtain ⟨old, hold⟩ := Option.isSome_iff_exists.mp h
    refine (lookup_replace c.objects id object).trans ?_
    rw [show c.objects.lookup id = some old from hold]
    rfl
  · next h => exact lookup_concat object (Option.not_isSome_iff_eq_none.mp h)

theorem object?_remove : (c.remove id).object? = Function.update c.object? id none :=
  lookup_without c.objects id

end Context

/-! ## Sound pools -/

/-- What work on an object leaves behind: the device holds nothing else for other objects,
and for the object, unless it is gone, what is known of it. -/
structure Object.KeptAs (o : Object) (s : Store) (after : Option Object) (s' : Store) :
    Prop where
  steady : s.Steady o.handle s'
  handle : ∀ x, after = some x → x.handle = o.handle
  agrees : ∀ x, after = some x → x.Agrees s'

/-- All objects agree with what the device holds, and no two have the same handle.  The
device has given out no handle beyond `last`. -/
structure Sound {κ : Type} (pool : κ → Option Object) (last : Handle) (s : Store) : Prop where
  agrees : ∀ k o, pool k = some o → o.Agrees s
  known : ∀ k o, pool k = some o → o.handle ≤ last
  distinct : ∀ j k o o', pool j = some o → pool k = some o' → o.handle = o'.handle → j = k
  alignment : s.alignment = Texture.defaultAlignment

/-- A pool without objects. -/
theorem Sound.empty {κ : Type} {last : Handle} {s : Store}
    (hs : s.alignment = Texture.defaultAlignment) :
    Sound (fun _ : κ => none) last s := by
  refine ⟨fun _ _ h => ?_, fun _ _ h => ?_, fun _ _ _ _ h => ?_, hs⟩ <;> cases h

/-- At most one object of a pool has been worked on. -/
inductive Moved {κ : Type} [DecidableEq κ] (pool : κ → Option Object) (s : Store) :
    (κ → Option Object) → Store → Prop
  | same : Moved pool s pool s
  | work {k : κ} {o : Object} {after : Option Object} {s' : Store} (found : pool k = some o)
      (kept : o.KeptAs s after s') : Moved pool s (Function.update pool k after) s'

namespace Sound
variable {κ : Type} [DecidableEq κ] {pool pool' : κ → Option Object} {last last' : Handle}
  {s s' : Store}

/-- A change at one place of the pool, and of what is held for one handle. -/
theorem update (h : Sound pool last s) {handle : Handle} (hs : s.Steady handle s') {k : κ}
    {after : Option Object} (hothers : ∀ j o, j ≠ k → pool j = some o → o.handle ≠ handle)
    (hlast : last ≤ last')
    (hafter : ∀ x, after = some x → x.Agrees s' ∧ x.handle ≤ last' ∧
      ∀ j o, j ≠ k → pool j = some o → o.handle ≠ x.handle) :
    Sound (Function.update pool k after) last' s' := by
  -- An object of the changed pool is the one at the place of the change or an old one.
  have hcases : ∀ j o, Function.update pool k after j = some o →
      j = k ∧ after = some o ∨ j ≠ k ∧ pool j = some o := by
    intro j o ho
    by_cases hj : j = k
    · rw [hj, Function.update_self] at ho
      exact .inl ⟨hj, ho⟩
    · rw [Function.update_of_ne hj] at ho
      exact .inr ⟨hj, ho⟩
  refine ⟨fun j o ho => ?_, fun j o ho => ?_, fun i j o o' ho ho' heq => ?_, ?_⟩
  · rcases hcases j o ho with ⟨-, hx⟩ | ⟨hj, hold⟩
    · exact (hafter o hx).1
    · exact (h.agrees j o hold).steady hs (hothers j o hj hold)
  · rcases hcases j o ho with ⟨-, hx⟩ | ⟨-, hold⟩
    · exact (hafter o hx).2.1
    · exact Nat.le_trans (h.known j o hold) hlast
  · rcases hcases i o ho with ⟨hi, hx⟩ | ⟨hi, hold⟩ <;>
      rcases hcases j o' ho' with ⟨hj, hx'⟩ | ⟨hj, hold'⟩
    · exact hi.trans hj.symm
    · exact absurd heq.symm ((hafter o hx).2.2 j o' hj hold')
    · exact absurd heq ((hafter o' hx').2.2 i o hi hold)
    · exact h.distinct i j o o' hold hold' heq
  · exact hs.alignment.trans h.alignment

/-- Work on one object. -/
theorem moved (h : Sound pool last s) (hmoved : Moved pool s pool' s') (hlast : last ≤ last') :
    Sound pool' last' s' := by
  cases hmoved with
  | same =>
    exact ⟨h.agrees, fun k o ho => Nat.le_trans (h.known k o ho) hlast, h.distinct, h.alignment⟩
  | @work k o after _ found kept =>
    have hothers : ∀ j o', j ≠ k → pool j = some o' → o'.handle ≠ o.handle :=
      fun j o' hj ho' heq => hj (h.distinct j k o' o ho' found heq)
    refine h.update kept.steady hothers hlast fun x hx => ⟨kept.agrees x hx, ?_, ?_⟩
    · rw [kept.handle x hx]
      exact Nat.le_trans (h.known k o found) hlast
    · rw [kept.handle x hx]
      exact hothers

/-- A new object, whose handle has just been given out. -/
theorem insert (h : Sound pool last s) {x : Object} (hs : s.Steady x.handle s')
    (hx : x.Agrees s') (hnew : last < x.handle) (k : κ) :
    Sound (Function.update pool k (some x)) x.handle s' := by
  have hothers : ∀ j o, j ≠ k → pool j = some o → o.handle ≠ x.handle :=
    fun j o _ ho => Nat.ne_of_lt (Nat.lt_of_le_of_lt (h.known j o ho) hnew)
  refine h.update hs hothers (Nat.le_of_lt hnew) ?_
  intro y hy
  cases hy
  exact ⟨hx, Nat.le_refl _, hothers⟩

/-- A new object in the place of an older one, which is worked on once more. -/
theorem replace (h : Sound pool last s) {x old : Object} (hs : s.Steady x.handle s')
    (hx : x.Agrees s') (hnew : last < x.handle) {k : κ} (hold : pool k = some old) {s'' : Store}
    (hs' : s'.Steady old.handle s'') :
    Sound (Function.update pool k (some x)) x.handle s'' := by
  have hinserted := h.insert hs hx hnew k
  have hplaces : ∀ j o, j ≠ k → Function.update pool k (some x) j = some o → pool j = some o :=
    fun j o hj ho => by rwa [Function.update_of_ne hj] at ho
  have hne : x.handle ≠ old.handle :=
    Nat.ne_of_gt (Nat.lt_of_le_of_lt (h.known k old hold) hnew)
  have hsame : Function.update (Function.update pool k (some x)) k (some x) =
      Function.update pool k (some x) := Function.update_idem ..
  rw [← hsame]
  refine hinserted.update hs' (fun j o hj ho heq => ?_) (Nat.le_refl _) fun y hy => ?_
  · exact hj (h.distinct j k o old (hplaces j o hj ho) hold heq)
  · cases hy
    refine ⟨hx.steady hs' hne, Nat.le_refl _, fun j o hj ho => ?_⟩
    exact Nat.ne_of_lt (Nat.lt_of_le_of_lt (h.known j o (hplaces j o hj ho)) hnew)

end Sound
end DrawStream
