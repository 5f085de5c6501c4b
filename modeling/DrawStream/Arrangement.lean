/-! # The order in which a table is gone through

A table holds entries under names and keeps them in no order of its own: whoever goes through it
gets them one after the other in some order, which may be another one for another table with the
same entries, and another one the next time.  An `Arrangement` tells of such an order which place
each entry takes among those behind it.  So it makes sense for tables of any size, no entry is
lost (`Arrangement.apply_perm`), and every order is that of an arrangement
(`Arrangement.exists_apply`). -/
namespace DrawStream

/-- An order, as the place that each entry of a table takes among those that have come into the
table after it. -/
abbrev Arrangement := List Nat

namespace Arrangement
variable {α : Type}

/-- The entries of a table in the order of an arrangement.  Where the arrangement ends, entries
stay in the order in which they have come. -/
def apply : Arrangement → List α → List α
  | [], entries => entries
  | _ :: _, [] => []
  | place :: places, entry :: entries =>
    let others := apply places entries
    others.take place ++ entry :: others.drop place

/-- No entry is lost or repeated. -/
theorem apply_perm (arrangement : Arrangement) (entries : List α) :
    (arrangement.apply entries).Perm entries := by
  induction arrangement generalizing entries with
  | nil => exact .refl _
  | cons place places ih =>
    cases entries with
    | nil => exact .refl _
    | cons entry entries =>
      refine List.perm_middle.trans (.cons entry ?_)
      rw [List.take_append_drop]
      exact ih entries

/-- Every order comes about. -/
theorem exists_apply {entries order : List α} (h : order.Perm entries) :
    ∃ arrangement : Arrangement, arrangement.apply entries = order := by
  induction entries generalizing order with
  | nil => exact ⟨[], h.eq_nil.symm⟩
  | cons entry entries ih =>
    -- The first entry stands somewhere in the order, and the others are in order without it.
    obtain ⟨front, back, rfl⟩ := List.append_of_mem (h.mem_iff.mpr List.mem_cons_self)
    obtain ⟨places, hplaces⟩ := ih (List.perm_middle.symm.trans h).cons_inv
    refine ⟨front.length :: places, ?_⟩
    rw [apply, hplaces, List.take_left, List.drop_left]

end Arrangement
end DrawStream
