/-! # Numbers with a sign in a fixed count of bits -/
namespace DrawStream.Binary

/-- The number that the low `bits` bits of `n` stand for in two's complement. -/
def signed (bits : Nat) (n : Int) : Int := n.bmod (Nat.pow 2 bits)

/-- A number in the lower half of the range stands for itself. -/
theorem signed_of_lt {bits n : Nat} (h : 2 * n < Nat.pow 2 bits) : signed bits n = n := by
  unfold signed
  apply Int.bmod_eq_of_le <;> omega

end DrawStream.Binary
