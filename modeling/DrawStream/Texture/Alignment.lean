/-! # The alignment of texel rows

A device reads the rows of uploaded texels at multiples of an alignment, 4 bytes by
default.  An alignment that divides the length of a row leaves no gap between rows. -/
namespace DrawStream.Texture

/-- The alignment that needs no change of the device's state. -/
def defaultAlignment : Nat := 4

/-- The alignments of a device, in the order in which they are tried. -/
def alignments : List Nat := [defaultAlignment, 8, 2, 1]

/-- The first alignment that divides a row of `rowBytes` bytes. -/
def rowAlignment (rowBytes : Nat) : Nat :=
  (alignments.find? fun a => rowBytes % a == 0).getD 1

/-- Rows follow each other without a gap. -/
theorem rowAlignment_dvd (rowBytes : Nat) : rowAlignment rowBytes ∣ rowBytes := by
  unfold rowAlignment
  cases h : alignments.find? fun a => rowBytes % a == 0 with
  | none => exact Nat.one_dvd rowBytes
  | some a => exact Nat.dvd_of_mod_eq_zero (by simpa using List.find?_some h)

theorem rowAlignment_pos (rowBytes : Nat) : 0 < rowAlignment rowBytes := by
  unfold rowAlignment
  cases h : alignments.find? fun a => rowBytes % a == 0 with
  | none => exact Nat.one_pos
  | some a =>
    have hall : ∀ a ∈ alignments, 0 < a := by decide
    exact hall a (List.mem_of_find?_eq_some h)

end DrawStream.Texture
