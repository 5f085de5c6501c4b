import Mathlib.Algebra.Order.Floor.Ring
import Mathlib.Data.Rat.Floor
import DrawStream.Proofs.Outcomes
import DrawStream.Proofs.SingleText
import DrawStream.Proofs.WholeUniforms

/-! # Floating-point numbers for whole ones

Numbers of 32 bits that are given to a uniform of a whole type are made whole one by one.  Each
becomes what is left of its value when it is cut toward zero and kept within 32 bits with a
sign; the infinities become the ends of that range and what is no number becomes zero
(`Single.toInt_eq`).  Nothing of this depends on how the number is written in bits: subnormal
numbers, the two zeros and the numbers about 2³¹ follow the same rule.  Making numbers whole
keeps their order (`Single.Meaning.whole_mono`).  A list keeps its length and its order too, but
a sampler takes only the first number of it (`Program.floats_taken_whole`). -/
namespace DrawStream
open Binary

/-! ## Cutting rational numbers -/

/-- The next whole number toward zero. -/
def towardZero (q : ℚ) : ℤ := if q < 0 then ⌈q⌉ else ⌊q⌋

theorem towardZero_mono {p q : ℚ} (h : p ≤ q) : towardZero p ≤ towardZero q := by
  unfold towardZero
  split
  · next hp =>
    split
    · exact Int.ceil_mono h
    · next hq =>
      calc ⌈p⌉ ≤ 0 := Int.ceil_nonpos.mpr hp.le
        _ ≤ ⌊q⌋ := Int.floor_nonneg.mpr (not_lt.mp hq)
  · next hp =>
    rw [if_neg (not_lt.mpr ((not_lt.mp hp).trans h))]
    exact Int.floor_mono h

theorem towardZero_neg (q : ℚ) : towardZero (-q) = -towardZero q := by
  unfold towardZero
  rcases lt_trichotomy q 0 with hneg | rfl | hpos
  · rw [if_neg (by linarith), if_pos hneg, Int.floor_neg]
  · simp
  · rw [if_pos (by linarith), if_neg (by linarith), Int.ceil_neg]

/-- A quotient of natural numbers is cut by whole division. -/
theorem towardZero_div (n d : Nat) : towardZero (n / d) = (n / d : Nat) := by
  have hnonneg : ¬ (n : ℚ) / d < 0 := not_lt.mpr (by positivity)
  rw [towardZero, if_neg hnonneg, Int.floor_div_natCast, Int.floor_natCast]
  rfl

namespace Single

/-! ## What numbers of 32 bits mean -/

/-- What the bits of a number stand for. -/
inductive Meaning
  | finite (q : ℚ)
  | infinite (negative : Bool)
  /-- Not a number. -/
  | nothing

namespace Meaning

/-- The order of numbers.  What is no number is not compared. -/
inductive Le : Meaning → Meaning → Prop
  | finite {p q : ℚ} (h : p ≤ q) : Le (.finite p) (.finite q)
  | least {m : Meaning} (h : m ≠ .nothing) : Le (.infinite true) m
  | greatest {m : Meaning} (h : m ≠ .nothing) : Le m (.infinite false)

/-- A whole number kept within 32 bits with a sign. -/
def within (n : ℤ) : ℤ := max (-2 ^ 31) (min (2 ^ 31 - 1) n)

/-- The whole number that is made of a number. -/
def whole : Meaning → ℤ
  | finite q => within (towardZero q)
  | infinite true => -2 ^ 31
  | infinite false => 2 ^ 31 - 1
  | nothing => 0

theorem within_mono {m n : ℤ} (h : m ≤ n) : within m ≤ within n :=
  max_le_max le_rfl (min_le_min le_rfl h)

theorem whole_bounds (m : Meaning) : -2 ^ 31 ≤ m.whole ∧ m.whole ≤ 2 ^ 31 - 1 := by
  cases m with
  | finite q =>
    exact ⟨le_max_left _ _, max_le (by decide) (min_le_left _ _)⟩
  | infinite negative => cases negative <;> decide
  | nothing => decide

/-- **Greater numbers do not become lesser ones.** -/
theorem whole_mono {m n : Meaning} (h : m.Le n) : m.whole ≤ n.whole := by
  cases h with
  | finite h => exact within_mono (towardZero_mono h)
  | least => exact n.whole_bounds.1
  | greatest => exact m.whole_bounds.2

end Meaning

/-- The value of a finite number: its sign, its significand, which has a leading one unless the
exponent is the least, and the power of two that it is scaled by. -/
def value (x : Single) : ℚ :=
  (if x.negative then -1 else 1) *
    if x.exponentField = 0 then (x.fraction : ℚ) / 2 ^ 23 * 2 ^ (-126 : ℤ)
    else (1 + (x.fraction : ℚ) / 2 ^ 23) * 2 ^ ((x.exponentField : ℤ) - 127)

/-- What a number means.  The greatest exponent is that of the infinities, and of what is no
number. -/
def meaning (x : Single) : Meaning :=
  if x.exponentField = 255 then
    if x.fraction = 0 then .infinite x.negative else .nothing
  else .finite x.value

/-- The value is the magnitude with the sign. -/
theorem value_of_finite? {x : Single} {m : Scaled} (h : x.finite? = some m) :
    x.value = (if x.negative then -1 else 1) * m.value := by
  unfold finite? at h
  unfold value Scaled.value
  congr 1
  split at h
  · cases h
  · split at h
    · next hzero =>
      cases h
      rw [if_pos hzero]
      norm_num
      ring
    · next hnonzero =>
      cases h
      have hscale : (2 : ℚ) ^ ((x.exponentField : ℤ) - 127) =
          2 ^ ((x.exponentField : ℤ) - 150) * 2 ^ (23 : ℤ) := by
        rw [← zpow_add₀ two_ne_zero]
        congr 1
        ring
      rw [if_neg hnonzero, hscale]
      push_cast
      ring

/-- **A number is made whole by cutting its value toward zero**, within 32 bits. -/
theorem toInt_eq (x : Single) : x.toInt = x.meaning.whole := by
  unfold toInt meaning
  cases hfinite : x.finite? with
  | some m =>
    have hfield : x.exponentField ≠ 255 := by
      intro h
      simp [finite?, h] at hfinite
    have hcut : towardZero m.value = (m.num / m.den : Nat) := by
      rw [← m.value_eq, towardZero_div]
    rw [if_neg hfield, Meaning.whole, value_of_finite? hfinite]
    cases x.negative with
    | true =>
      simp only [if_true, neg_one_mul, towardZero_neg, hcut]
      rfl
    | false =>
      simp only [Bool.false_eq_true, if_false, one_mul, hcut]
      rfl
  | none =>
    have hfield : x.exponentField = 255 := by
      by_contra h
      unfold finite? at hfinite
      rw [if_neg h] at hfinite
      split at hfinite <;> cases hfinite
    rw [if_pos hfield]
    by_cases hfraction : x.fraction = 0
    · cases hnegative : x.negative <;>
        simp [isNaN, hfield, hfraction, Meaning.whole, leastInt, greatestInt]
    · simp [isNaN, hfield, hfraction, Meaning.whole]

end Single

/-! ## Uploads -/

/-- The location and the whole numbers that a call uploads. -/
def Call.wholes? : Call → Option (Int × List Int)
  | .uniformInts location _ data => some (location, data)
  | .uniformInt location n => some (location, [n])
  | _ => none

theorem Call.uploadedTo?_of_wholes? {c : Call} {location : Int} {data : List Int}
    (h : c.wholes? = some (location, data)) : c.uploadedTo? = some location := by
  cases c <;> cases h <;> rfl

namespace UniformType

/-- The numbers of a list that are uploaded: a sampler takes the first one only. -/
def taken {α : Type} (type : UniformType) (data : List α) : List α :=
  if type.upload = .sampler then data.take 1 else data

/-- A type that takes whole numbers uploads them by one request. -/
theorem exists_wholeRequest {type : UniformType} {data : List Single}
    (hwhole : type.isFloating = false) (haccepted : type.refusal? (.floats data) = none)
    (location : Int) : ∃ (q : Request Unit) (c : Call),
      Program.upload location type (.floats data) = Script.request q ∧
      Call.ofAnswer? q () = some c ∧
      c.wholes? = some (location, type.taken (data.map fun x => x.meaning.whole)) := by
  have hdata : data.map Single.toInt = data.map fun x => x.meaning.whole :=
    List.map_congr_left fun x _ => x.toInt_eq
  rw [← hdata]
  cases htype : type.upload with
  | floats | matrix => simp [isFloating, htype] at hwhole
  | ints n =>
    refine ⟨.uniformInts location n (data.map Single.toInt), _, ?_, rfl, ?_⟩
    · simp only [Program.upload, htype]
      rfl
    · simp [Call.wholes?, taken, htype]
  | sampler =>
    cases data with
    | nil => simp [refusal?, UniformValue.length] at haccepted
    | cons x rest =>
      refine ⟨.uniformInt location x.toInt, _, ?_, rfl, ?_⟩
      · simp only [Program.upload, htype]
        rfl
      · simp [Call.wholes?, taken, htype]

end UniformType

namespace Program
variable {σ : Type} [Device σ]

/-- Nothing is uploaded unless the program is linked and has the uniform, and the value is not
refused. -/
theorem uploads_of_not_located {p : Program} {name : String} {type : UniformType}
    {value : UniformValue} {d : σ}
    (h : ¬ (p.linked = true ∧ (∃ location asked, p.Locates name d location asked) ∧
      type.refusal? value = none)) :
    (Event.calls ((p.setUniform name type value).run d).events).filterMap Call.uploadedTo? =
      [] := by
  obtain ⟨result, asked, missing, uploads, hassigned, -, -, -, huploads⟩ :=
    exists_assigned p (.uniform name type value) d
  change _ = uploads at huploads
  have hsettled (hlinked : p.linked = true) (location : Int) (asked : List Call)
      (hlocates : p.Locates name d location asked) :
      (Assignment.uniform name type value).settledUploads location = [] := by
    have hrefused : type.refusal? value ≠ none := fun hnone =>
      h ⟨hlinked, ⟨location, asked, hlocates⟩, hnone⟩
    obtain ⟨refusal, hrefusal⟩ := Option.ne_none_iff_exists'.mp hrefused
    simp [Assignment.settledUploads, Assignment.refusal?, hrefusal]
  refine Eq.trans huploads ?_
  cases hassigned with
  | unlinked | invalid | missing => rfl
  | located hlinked location hfound => exact hsettled hlinked location [] (.known hfound)
  | found hlinked hunknown location hlocation hpos =>
    exact hsettled hlinked location [.uniformLocation name] (.asked hunknown hlocation hpos)

/-- **Floating-point numbers reach a uniform of a whole type cut toward zero**, one by one and in
their order, and whatever else happens no whole numbers are uploaded.  Each number is cut as its
meaning has it, which keeps the order of all numbers. -/
theorem floats_taken_whole :
    (∀ (p : Program) (name : String) (type : UniformType) (data : List Single) (d : σ),
      type.isFloating = false →
      let ran := (p.setUniform name type (.floats data)).run d
      (∀ location asked, p.linked = true → p.Locates name d location asked →
        type.refusal? (.floats data) = none → ran.value.1 = .ok () ∧
        (Event.calls ran.events).filterMap Call.wholes? =
          [(location, type.taken (data.map fun x => x.meaning.whole))]) ∧
      (¬ (p.linked = true ∧ (∃ location asked, p.Locates name d location asked) ∧
        type.refusal? (.floats data) = none) →
        (Event.calls ran.events).filterMap Call.wholes? = [])) ∧
    ∀ x y : Single, x.meaning.Le y.meaning → x.meaning.whole ≤ y.meaning.whole := by
  refine ⟨fun p name type data d hwhole => ⟨fun location asked hlinked hlocates haccepted => ?_,
    fun h => ?_⟩, fun x y h => Single.Meaning.whole_mono h⟩
  · obtain ⟨q, c, hupload, hcall, hnumbers⟩ :=
      UniformType.exists_wholeRequest hwhole haccepted location
    obtain ⟨hok, hcalls⟩ := setUniform_upload hlinked hlocates haccepted hupload hcall
    refine ⟨hok, ?_⟩
    have hasked : asked.filterMap Call.wholes? = [] := by cases hlocates <;> rfl
    rw [hcalls, List.filterMap_append, hasked, List.nil_append, List.filterMap_cons_none rfl,
      List.filterMap_cons_some hnumbers, List.filterMap_nil]
  · have hnone := List.filterMap_eq_nil_iff.mp (uploads_of_not_located h)
    refine List.filterMap_eq_nil_iff.mpr fun c hc => ?_
    cases hnumbers : c.wholes? with
    | none => rfl
    | some numbers =>
      have huploaded := Call.uploadedTo?_of_wholes? hnumbers
      rw [hnone c hc] at huploaded
      cases huploaded

/-- What is no number, minus one and a half, 2³¹, the lesser infinity and the subnormal number
next below zero. -/
def edges : List Single :=
  [⟨0x7FC00000⟩, ⟨0xBFC00000⟩, ⟨0x4F000000⟩, ⟨0xFF800000⟩, ⟨0x80000001⟩]

theorem edges_taken_whole :
    ({ handle := 1, linked := true } : Program).Locates "x" Context.oneWhole 0
      [.uniformLocation "x"] ∧
    UniformType.int.refusal? (.floats edges) = none ∧
    (Event.calls ((({ handle := 1, linked := true } : Program).setUniform "x" .int
      (.floats edges)).run Context.oneWhole).events).filterMap Call.wholes? =
        [(0, [0, -1, 2147483647, -2147483648, 0])] ∧
    (Single.meaning ⟨0xFF800000⟩).whole ≤ (Single.meaning ⟨0x4F000000⟩).whole := by
  have haccepted : UniformType.int.refusal? (.floats edges) = none := by decide
  have hnumbers : (edges.map fun x => x.meaning.whole) =
      [0, -1, 2147483647, -2147483648, 0] := by
    have hcut : edges.map Single.toInt = [0, -1, 2147483647, -2147483648, 0] := by decide
    rw [← hcut]
    exact List.map_congr_left fun x _ => x.toInt_eq.symm
  have hfinite : Single.meaning ⟨0x4F000000⟩ ≠ .nothing := by
    simp [Single.meaning, Single.exponentField]
  have hleast : Single.meaning ⟨0xFF800000⟩ = .infinite true := by
    simp [Single.meaning, Single.exponentField, Single.fraction, Single.negative]
  obtain ⟨huploads, hordered⟩ := floats_taken_whole (σ := Recorder)
  obtain ⟨-, hcalls⟩ := (huploads { handle := 1, linked := true } "x" .int edges Context.oneWhole
    rfl).1 0 _ rfl Context.locates_oneWhole haccepted
  refine ⟨Context.locates_oneWhole, haccepted, ?_, hordered _ _ ?_⟩
  · rw [hcalls, hnumbers]
    rfl
  · rw [hleast]
    exact .least hfinite

end Program
end DrawStream
