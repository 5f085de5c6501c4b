import Mathlib.Data.String.Basic
import DrawStream.Program.Draw
import DrawStream.Text.Utf8

/-! # The order of names

Names are sorted by their characters, and characters by their code points.  In UTF-8 that is
the order of the bytes too.  The encodings of two characters differ at some byte, and at the
first such byte the lesser character has the lesser one (`Earlier`); so nothing that follows
can change the order. -/
namespace DrawStream.Text.Utf8

/-- At the first byte at which the two differ, the former has the lesser one. -/
def Earlier : List UInt8 → List UInt8 → Prop
  | x :: xs, y :: ys => x < y ∨ x = y ∧ Earlier xs ys
  | _, _ => False

/-- What follows the first difference has no part in the order. -/
theorem Earlier.append_lt {xs ys : List UInt8} (h : Earlier xs ys) (front back : List UInt8) :
    xs ++ front < ys ++ back := by
  induction xs generalizing ys with
  | nil => cases ys <;> cases h
  | cons x xs ih =>
    cases ys with
    | nil => cases h
    | cons y ys =>
      rw [List.cons_append, List.cons_append, List.cons_lt_cons_iff]
      rcases h with hlt | ⟨rfl, h⟩
      · exact .inl hlt
      · exact .inr ⟨rfl, ih h⟩

/-- A lesser code point has the earlier encoding, whatever the lengths of the two. -/
theorem earlier_utf8EncodeChar {c d : Char} (h : c < d) :
    Earlier (String.utf8EncodeChar c) (String.utf8EncodeChar d) := by
  have hlt : c.val.toNat < d.val.toNat := h
  have hvalid : d.val.toNat < 0x110000 := by
    have := d.valid
    simp only [UInt32.isValidChar, Nat.isValidChar] at this
    omega
  generalize hv : c.val.toNat = v at hlt
  generalize hw : d.val.toNat = w at hlt hvalid
  -- The digits of a code point to the base 64 are those of its greater parts.
  have hdigits : ∀ n : Nat, n / 64 / 64 = n / 4096 ∧ n / 4096 / 64 = n / 262144 := by omega
  have hvdigits := hdigits v
  have hwdigits := hdigits w
  simp only [String.utf8EncodeChar, hv, hw]
  split <;> [skip; split <;> [skip; split]] <;>
    (split <;> [skip; split <;> [skip; split]]) <;>
    simp only [Earlier, UInt8.lt_iff_toNat_lt, ← UInt8.toNat_inj, UInt8.toNat_ofNat'] <;>
    simp (disch := omega) only [Nat.mod_eq_of_lt] <;> omega

theorem flatMap_utf8EncodeChar_lt {cs ds : List Char} (h : cs < ds) :
    cs.flatMap String.utf8EncodeChar < ds.flatMap String.utf8EncodeChar := by
  induction cs generalizing ds with
  | nil =>
    cases ds with
    | nil => exact absurd h (List.lt_irrefl _)
    | cons d ds =>
      rw [List.flatMap_cons]
      obtain ⟨b, rest, hbytes⟩ := List.exists_cons_of_ne_nil (String.utf8EncodeChar_ne_nil (c := d))
      rw [hbytes]
      exact List.nil_lt_cons _ _
  | cons c cs ih =>
    cases ds with
    | nil => cases h
    | cons d ds =>
      rw [List.flatMap_cons, List.flatMap_cons]
      rcases List.cons_lt_cons_iff.mp h with hlt | ⟨rfl, hrest⟩
      · exact (earlier_utf8EncodeChar hlt).append_lt _ _
      · exact List.append_left_lt (ih hrest)

/-- Texts are in the order of their bytes. -/
theorem encode_lt_of_lt {s t : String} (h : s < t) : encode s < encode t :=
  flatMap_utf8EncodeChar_lt (String.lt_iff_toList_lt.mp h)

end DrawStream.Text.Utf8

namespace DrawStream.Program

/-- **Sorted names are in the order of their bytes**, if none of them is there twice. -/
theorem sortNames_pairwise {names : List String} (h : names.Nodup) :
    (sortNames names).Pairwise fun a b => Text.Utf8.encode a < Text.Utf8.encode b := by
  have hsorted : (sortNames names).Pairwise (· ≤ ·) := by
    refine (List.pairwise_mergeSort (fun a b c hab hbc => ?_) (fun a b => ?_) names).imp ?_
    · exact decide_eq_true (String.le_trans (of_decide_eq_true hab) (of_decide_eq_true hbc))
    · simpa using String.le_total a b
    · exact of_decide_eq_true
  have hnodup : (sortNames names).Nodup := (List.mergeSort_perm names _).nodup_iff.mpr h
  refine (hsorted.and hnodup).imp ?_
  rintro a b ⟨hle, hne⟩
  exact Text.Utf8.encode_lt_of_lt (lt_of_le_of_ne hle hne)

theorem mem_sortNames {names : List String} {name : String} :
    name ∈ sortNames names ↔ name ∈ names :=
  (List.mergeSort_perm names _).mem_iff

end DrawStream.Program
