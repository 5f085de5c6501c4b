/-! # Whole numbers of a bounded range, as commands carry them

A `WordKind` names a range, and a `Word` is a number together with the proof that
it lies inside.  `Word.ofInt?` is the only gate: a number outside the range
becomes nothing at all, so no word is ever a wrapped or shortened number. -/
namespace DrawStream

/-- The ranges of whole numbers that the command language knows. -/
inductive WordKind
  | i8 | u8 | i16 | u16 | i32 | u32
  /-- Sizes, offsets and counts: 64 bits, no sign. -/
  | size
  deriving DecidableEq, Repr

namespace WordKind

/-- The least number of the range. -/
def least : WordKind → Int
  | i8 => -128
  | i16 => -32768
  | i32 => -2147483648
  | u8 | u16 | u32 | size => 0

/-- The greatest number of the range. -/
def greatest : WordKind → Int
  | i8 => 127
  | u8 => 255
  | i16 => 32767
  | u16 => 65535
  | i32 => 2147483647
  | u32 => 4294967295
  | size => 18446744073709551615

/-- The name used where a message says which range was wanted. -/
def name : WordKind → String
  | i8 => "i8"
  | u8 => "u8"
  | i16 => "i16"
  | u16 => "u16"
  | i32 => "i32"
  | u32 => "u32"
  | size => "usize"

/-- Bytes that one number of the range takes in memory. -/
def byteSize : WordKind → Nat
  | i8 | u8 => 1
  | i16 | u16 => 2
  | i32 | u32 => 4
  | size => 8

theorem least_le_zero (k : WordKind) : k.least ≤ 0 := by cases k <;> decide

theorem zero_le_greatest (k : WordKind) : 0 ≤ k.greatest := by cases k <;> decide

end WordKind

/-- A whole number of the range `kind`. -/
structure Word (kind : WordKind) where
  val : Int
  least_le : kind.least ≤ val
  le_greatest : val ≤ kind.greatest
  deriving DecidableEq

namespace Word
variable {kind : WordKind}

/-- The number as a word, if it lies in the range. -/
def ofInt? (kind : WordKind) (n : Int) : Option (Word kind) :=
  if h : kind.least ≤ n ∧ n ≤ kind.greatest then some ⟨n, h.1, h.2⟩ else none

/-- Zero lies in every range. -/
def zero (kind : WordKind) : Word kind := ⟨0, kind.least_le_zero, kind.zero_le_greatest⟩

instance : Inhabited (Word kind) := ⟨zero kind⟩

/-- The number without its sign bit in mind; meant for the ranges that start at 0. -/
def toNat (w : Word kind) : Nat := w.val.toNat

/-- Decimal digits, with a minus sign below 0. -/
def text (w : Word kind) : String := toString w.val

/-- The bytes of the number in two's complement, least significant first. -/
def bytes (w : Word kind) : List UInt8 :=
  (List.range kind.byteSize).map fun i => UInt8.ofInt (w.val / Nat.pow 256 i)

@[ext] theorem ext {v w : Word kind} (h : v.val = w.val) : v = w := by
  cases v; cases w; cases h; rfl

theorem ofInt?_eq_some_iff {n : Int} {w : Word kind} : ofInt? kind n = some w ↔ n = w.val := by
  constructor
  · intro h
    unfold ofInt? at h
    split at h
    · exact congrArg val (Option.some.inj h)
    · cases h
  · rintro rfl
    exact dif_pos ⟨w.least_le, w.le_greatest⟩

theorem ofInt?_eq_none_iff {n : Int} :
    ofInt? kind n = none ↔ n < kind.least ∨ kind.greatest < n := by
  unfold ofInt?
  split
  · next h => simp only [reduceCtorEq, false_iff]; omega
  · next h => simp only [true_iff]; omega

@[simp] theorem ofInt?_val (w : Word kind) : ofInt? kind w.val = some w :=
  ofInt?_eq_some_iff.2 rfl

@[simp] theorem length_bytes (w : Word kind) : w.bytes.length = kind.byteSize := by
  simp [bytes]

end Word
end DrawStream
