import DrawStream.Buffer
import DrawStream.EntryPoint.Lowering

/-! # Sizes and offsets as a graphics library is given them

A buffer counts bytes without a sign; a library takes sizes and offsets of 64 bits with a sign,
and nothing in between looks at them.  So a size in the upper half of the range arrives as a
number below zero, although the buffer remembers it as it was asked for, and from then on lets
writes through whose offsets arrive below zero too.  That is all that can go wrong: as long as
no size of 2⁶³ bytes or more is asked for, the size that guards the writes keeps their offsets
and lengths in the lower half as well, and all numbers arrive as they are
(`Buffer.sizes_told_iff`). -/
namespace DrawStream

/-- The script makes just these calls of entry points, one after the other, and comes to a value.
Nothing can be answered to any of them. -/
inductive Script.Makes {α : Type} : Script α → List (EntryPoint Unit) → α → Prop
  | done (a : α) : Makes (.done a) [] a
  | note {n : Note} {next : Unit → Script α} {calls : List (EntryPoint Unit)} {a : α}
      (rest : Makes (next ()) calls a) : Makes (.ask (.note n) next) calls a
  | call {q : Request Unit} {e : EntryPoint Unit} {next : Unit → Script α}
      {calls : List (EntryPoint Unit)} {a : α} (lowered : q.lower = .question e)
      (rest : Makes (next ()) calls a) : Makes (.ask (.request q) next) (e :: calls) a

namespace Script.Makes
variable {α γ : Type} {x : Script α} {calls : List (EntryPoint Unit)} {a : α}

theorem bind_done (h : x.Makes calls a) (f : α → γ) :
    Script.Makes (Dialogue.bind x fun a => .done (f a)) calls (f a) := by
  induction h with
  | done a => exact .done _
  | note _ ih => exact .note ih
  | call lowered _ ih => exact .call lowered ih

/-- The calls and the value are settled by the script. -/
theorem unique (h : x.Makes calls a) {calls' : List (EntryPoint Unit)} {a' : α}
    (h' : x.Makes calls' a') : calls' = calls ∧ a' = a := by
  induction h generalizing calls' a' with
  | done a =>
    cases h'
    exact ⟨rfl, rfl⟩
  | note _ ih =>
    cases h' with
    | note rest => exact ih rest
  | call lowered _ ih =>
    cases h' with
    | call lowered' rest =>
      obtain ⟨rfl, rfl⟩ := ih rest
      rw [lowered] at lowered'
      cases lowered'
      exact ⟨rfl, rfl⟩

end Script.Makes

namespace Buffer

/-- Something that is done with a buffer and concerns its storage. -/
inductive Use
  | setSize (bytes : Nat)
  | setData (offset : Nat) (data : Elements)

/-- Does it. -/
def Use.perform (b : Buffer) : Use → Script (Outcome Unit × Buffer)
  | setSize bytes => do return (.ok (), ← b.setSize bytes)
  | setData offset data => do return (← b.setData offset data, b)

/-- The call tells the library the numbers of a use, each as `number` has it: the size that was
asked for, or the offset, the length and the bytes of what is written.  A buffer is bound
without any of them. -/
inductive Use.Told (number : Nat → Int) : Use → EntryPoint Unit → Prop
  | bound (u : Use) (target : Nat) (buffer : Handle) : Told number u (.bindBuffer target buffer)
  | storage (bytes target usage : Nat) :
      Told number (.setSize bytes) (.bufferData target (number bytes) none usage)
  | write (offset : Nat) (data : Elements) (target : Nat) :
      Told number (.setData offset data)
        (.bufferPart target (number offset) (number data.byteLength) data.bytes)

/-- A use with what has become of it. -/
structure Used where
  use : Use
  calls : List (EntryPoint Unit)
  outcome : Outcome Unit
  /-- The buffer afterwards. -/
  after : Buffer

/-- Uses of a buffer one after the other. -/
inductive History : Buffer → List Used → Prop
  | nil (b : Buffer) : History b []
  | cons {b : Buffer} {u : Used} {rest : List Used}
      (made : (u.use.perform b).Makes u.calls (u.outcome, u.after))
      (later : History u.after rest) : History b (u :: rest)

/-! ## A single use -/

section Single
variable {b : Buffer} {offset : Nat} {data : Elements}

/-- The calls that allocate. -/
def storageCalls (b : Buffer) (bytes : Nat) : List (EntryPoint Unit) :=
  [.bindBuffer b.target.number b.handle,
    .bufferData b.target.number (Binary.signed 64 bytes) none b.usage.number]

/-- The calls that write. -/
def writeCalls (b : Buffer) (offset : Nat) (data : Elements) : List (EntryPoint Unit) :=
  [.bindBuffer b.target.number b.handle,
    .bufferPart b.target.number (Binary.signed 64 offset) (Binary.signed 64 data.byteLength)
      data.bytes]

/-- Storage is allocated unless there is just as much already. -/
theorem makes_setSize (b : Buffer) (bytes : Nat) :
    (b.setSize bytes).Makes (if bytes = b.size then [] else b.storageCalls bytes)
      { b with size := bytes } := by
  unfold setSize
  split
  · next hsame =>
    subst hsame
    exact .done b
  · exact .call rfl (.call rfl (.note (.done _)))

theorem makes_setData_of_fits (h : rangeFits b.size offset data.byteLength = true) :
    (b.setData offset data).Makes (b.writeCalls offset data) (.ok ()) := by
  rw [setData, h]
  exact .call rfl (.call rfl (.done _))

theorem makes_setData_of_not_fits (h : rangeFits b.size offset data.byteLength = false) :
    (b.setData offset data).Makes [] (.error (.bufferOverflow offset data.byteLength b.size)) := by
  rw [setData, h]
  exact .done _

end Single

/-- **What becomes of a use**: storage is there already or is allocated, and a write goes through
or does not fit. -/
inductive Used.Settled (b : Buffer) : Used → Prop
  | same : Settled b ⟨.setSize b.size, [], .ok (), b⟩
  | allocated {bytes : Nat} (other : bytes ≠ b.size) :
      Settled b ⟨.setSize bytes, b.storageCalls bytes, .ok (), { b with size := bytes }⟩
  | written {offset : Nat} {data : Elements} (fits : offset + data.byteLength ≤ b.size) :
      Settled b ⟨.setData offset data, b.writeCalls offset data, .ok (), b⟩
  | refused (offset : Nat) (data : Elements) (failure : Failure) :
      Settled b ⟨.setData offset data, [], .error failure, b⟩

/-- A use can be made, and is settled in one of these ways. -/
theorem exists_settled (b : Buffer) (u : Use) : ∃ done : Used, done.use = u ∧
    (u.perform b).Makes done.calls (done.outcome, done.after) ∧ done.Settled b := by
  cases u with
  | setSize bytes =>
    have hmade := (makes_setSize b bytes).bind_done fun b' => ((.ok () : Outcome Unit), b')
    by_cases hsame : bytes = b.size
    · subst hsame
      rw [if_pos rfl] at hmade
      exact ⟨⟨.setSize b.size, [], .ok (), b⟩, rfl, hmade, .same⟩
    · rw [if_neg hsame] at hmade
      exact ⟨⟨.setSize bytes, b.storageCalls bytes, .ok (), { b with size := bytes }⟩, rfl, hmade,
        .allocated hsame⟩
  | setData offset data =>
    cases hfits : rangeFits b.size offset data.byteLength with
    | true =>
      have hmade := (makes_setData_of_fits hfits).bind_done fun outcome => (outcome, b)
      exact ⟨⟨.setData offset data, b.writeCalls offset data, .ok (), b⟩, rfl, hmade,
        .written (le_of_rangeFits hfits)⟩
    | false =>
      have hmade := (makes_setData_of_not_fits hfits).bind_done fun outcome => (outcome, b)
      exact ⟨⟨.setData offset data, [], .error _, b⟩, rfl, hmade, .refused offset data _⟩

theorem settled_of_makes {b : Buffer} {u : Used}
    (h : (u.use.perform b).Makes u.calls (u.outcome, u.after)) : u.Settled b := by
  obtain ⟨done, huse, hmade, hsettled⟩ := exists_settled b u.use
  obtain ⟨hcalls, hvalue⟩ := hmade.unique h
  obtain ⟨use, calls, outcome, after⟩ := u
  obtain ⟨use', calls', outcome', after'⟩ := done
  cases huse
  cases hcalls
  cases hvalue
  exact hsettled

/-! ## Numbers with a sign -/

/-- A size arrives as it is just if it lies in the lower half of the range. -/
theorem signed_eq_iff (n : Nat) : Binary.signed 64 n = n ↔ n < 9223372036854775808 := by
  have hpow : Nat.pow 2 64 = 18446744073709551616 := rfl
  unfold Binary.signed
  rw [hpow]
  constructor
  · intro h
    have hupper := Int.bmod_lt (x := (n : Int)) (m := 18446744073709551616) (by decide)
    omega
  · intro h
    apply Int.bmod_eq_of_le <;> omega

/-- In the upper half it arrives below zero. -/
theorem signed_of_ge {n : Nat} (hge : 9223372036854775808 ≤ n) (hlt : n < 18446744073709551616) :
    Binary.signed 64 n = n - 18446744073709551616 := by
  have hpow : Nat.pow 2 64 = 18446744073709551616 := rfl
  unfold Binary.signed
  rw [hpow, ← Int.sub_bmod_right]
  apply Int.bmod_eq_of_le <;> omega

namespace Used.Settled
variable {b : Buffer} {u : Used}

theorem told (h : u.Settled b) {e : EntryPoint Unit} (he : e ∈ u.calls) :
    u.use.Told (fun n => Binary.signed 64 n) e := by
  cases h with
  | same | refused => cases he
  | allocated | written =>
    simp only [storageCalls, writeCalls, List.mem_cons, List.not_mem_nil, or_false] at he
    rcases he with rfl | rfl
    · exact .bound ..
    · constructor

/-- Where no greater size is remembered or asked for, all numbers arrive as they are. -/
theorem told_exactly (h : u.Settled b) (hsize : b.size < 9223372036854775808)
    (hasked : ∀ n, u.use = .setSize n → n < 9223372036854775808) :
    u.after.size < 9223372036854775808 ∧ ∀ e ∈ u.calls, u.use.Told (fun n => n) e := by
  cases h with
  | same | refused => exact ⟨hsize, fun e he => by cases he⟩
  | allocated other =>
    have hbytes := hasked _ rfl
    refine ⟨hbytes, List.forall_mem_cons.mpr ⟨.bound .., List.forall_mem_singleton.mpr ?_⟩⟩
    rw [(signed_eq_iff _).mpr hbytes]
    exact .storage ..
  | @written offset data fits =>
    have hoffset : offset < 9223372036854775808 := by omega
    have hlength : data.byteLength < 9223372036854775808 := by omega
    refine ⟨hsize, List.forall_mem_cons.mpr ⟨.bound .., List.forall_mem_singleton.mpr ?_⟩⟩
    rw [(signed_eq_iff _).mpr hoffset, (signed_eq_iff _).mpr hlength]
    exact .write ..

/-- A greater size is asked for, and arrives as another number. -/
theorem not_told_exactly (h : u.Settled b) (hsize : b.size < 9223372036854775808) {bytes : Nat}
    (hasked : u.use = .setSize bytes) (hgreat : 9223372036854775808 ≤ bytes) :
    ∃ e ∈ u.calls, ¬ u.use.Told (fun n => n) e := by
  cases h with
  | same =>
    cases hasked
    omega
  | allocated =>
    cases hasked
    refine ⟨_, List.mem_cons_of_mem _ (List.mem_singleton_self _), fun htold => ?_⟩
    have hexact : Binary.signed 64 bytes = bytes := by
      generalize Binary.signed 64 bytes = sent at htold
      cases htold
      rfl
    exact absurd ((signed_eq_iff bytes).mp hexact) (Nat.not_lt.mpr hgreat)
  | written | refused => cases hasked

theorem size_after (h : u.Settled b) {bytes : Nat} (hasked : u.use = .setSize bytes) :
    u.after.size = bytes := by
  cases h with
  | same | allocated =>
    cases hasked
    rfl
  | written | refused => cases hasked

end Used.Settled

/-! ## All uses -/

namespace History
variable {b : Buffer} {history : List Used}

theorem exists_of_uses (b : Buffer) (uses : List Use) :
    ∃ history, History b history ∧ history.map Used.use = uses := by
  induction uses generalizing b with
  | nil => exact ⟨[], .nil b, rfl⟩
  | cons u rest ih =>
    obtain ⟨done, rfl, hmade, -⟩ := exists_settled b u
    obtain ⟨history, hlater, rfl⟩ := ih done.after
    exact ⟨done :: history, .cons hmade hlater, rfl⟩

/-- Every use is settled, on the buffer as it is then. -/
theorem settled (h : History b history) : ∀ u ∈ history, ∃ b', u.Settled b' := by
  induction h with
  | nil b => exact fun u hu => by cases hu
  | cons made _ ih => exact List.forall_mem_cons.mpr ⟨⟨_, settled_of_makes made⟩, ih⟩

/-- The invariant is that the size which is remembered lies in the lower half of the range; it
carries up to the first use that asks for more. -/
theorem told_iff (h : History b history) (hsize : b.size < 9223372036854775808) :
    (∀ u ∈ history, ∀ e ∈ u.calls, u.use.Told (fun n => n) e) ↔
      ∀ n, .setSize n ∈ history.map Used.use → n < 9223372036854775808 := by
  induction h with
  | nil b =>
    constructor
    · intro _ n hn
      cases hn
    · intro _ u hu
      cases hu
  | @cons b u rest made _ ih =>
    have hsettled := settled_of_makes made
    by_cases hgreat : ∃ n, u.use = .setSize n ∧ 9223372036854775808 ≤ n
    · obtain ⟨n, hasked, hgreat⟩ := hgreat
      obtain ⟨e, he, hnot⟩ := hsettled.not_told_exactly hsize hasked hgreat
      constructor
      · exact fun htold => absurd (htold u List.mem_cons_self e he) hnot
      · intro hsmall
        have hlt := hsmall n (by rw [List.map_cons, hasked]; exact List.mem_cons_self)
        exact absurd hlt (Nat.not_lt.mpr hgreat)
    · have hsmall : ∀ n, u.use = .setSize n → n < 9223372036854775808 := fun n hasked =>
        Nat.lt_of_not_le fun hge => hgreat ⟨n, hasked, hge⟩
      obtain ⟨hafter, htold⟩ := hsettled.told_exactly hsize hsmall
      rw [List.forall_mem_cons, ih hafter, List.map_cons]
      constructor
      · rintro ⟨-, hrest⟩ n hn
        rcases List.mem_cons.mp hn with heq | hn
        · exact hsmall n heq.symm
        · exact hrest n hn
      · exact fun hall => ⟨htold, fun n hn => hall n (List.mem_cons_of_mem _ hn)⟩

end History

/-- **Which numbers a library is told.**  Whatever storage is asked of a new buffer and whatever is
written to it, each call tells the numbers of its use as numbers of 64 bits with a sign, the
buffer has the size that was asked for last, and all numbers arrive as they are just if no size
of 2⁶³ bytes or more was asked for; such a size arrives below zero. -/
theorem sizes_told_iff (handle : Handle) (target : BufferTarget) (usage : BufferUsage) :
    (∀ uses, ∃ history, History { handle, target, usage } history ∧
      history.map Used.use = uses) ∧
    (∀ n : Nat, n < 18446744073709551616 →
      Binary.signed 64 n =
        if n < 9223372036854775808 then (n : Int) else n - 18446744073709551616) ∧
    ∀ history, History { handle, target, usage } history →
      (∀ u ∈ history, (∀ e ∈ u.calls, u.use.Told (fun n => Binary.signed 64 n) e) ∧
        ∀ n, u.use = .setSize n → u.after.size = n) ∧
      ((∀ u ∈ history, ∀ e ∈ u.calls, u.use.Told (fun n => n) e) ↔
        ∀ n, .setSize n ∈ history.map Used.use → n < 9223372036854775808) := by
  refine ⟨History.exists_of_uses _, fun n hn => ?_, fun history h => ⟨fun u hu => ?_, ?_⟩⟩
  · split
    · next hlow => exact (signed_eq_iff n).mpr hlow
    · next hhigh => exact signed_of_ge (Nat.not_lt.mp hhigh) hn
  · obtain ⟨b, hsettled⟩ := h.settled u hu
    exact ⟨fun e he => hsettled.told he, fun n hasked => hsettled.size_after hasked⟩
  · exact h.told_iff (show 0 < 9223372036854775808 by decide)

/-- Four bytes in the second half of eight. -/
def secondHalf : List Used :=
  [{ use := .setSize 8
     calls := [.bindBuffer 0x8892 1, .bufferData 0x8892 8 none 0x88E8]
     outcome := .ok ()
     after := { handle := 1, target := .array, size := 8 } },
   { use := .setData 4 (.zeroes 4 .u8)
     calls := [.bindBuffer 0x8892 1, .bufferPart 0x8892 4 4 [0, 0, 0, 0]]
     outcome := .ok ()
     after := { handle := 1, target := .array, size := 8 } }]

theorem history_secondHalf : History { handle := 1, target := .array } secondHalf :=
  .cons (.call rfl (.call rfl (.note (.done _)))) (.cons (.call rfl (.call rfl (.done _))) (.nil _))

theorem secondHalf_told : History { handle := 1, target := .array } secondHalf ∧
    ∀ u ∈ secondHalf, ∀ e ∈ u.calls, u.use.Told (fun n => n) e := by
  have htold := ((sizes_told_iff 1 .array .dynamicDraw).2.2 _ history_secondHalf).2
  refine ⟨history_secondHalf, htold.mpr fun n hn => ?_⟩
  simp only [secondHalf, List.map_cons, List.map_nil, List.mem_cons, List.not_mem_nil, or_false,
    Use.setSize.injEq, reduceCtorEq] at hn
  subst hn
  decide

/-- A buffer that is asked for the least size of the upper half. -/
def halfRange : Used :=
  { use := .setSize 9223372036854775808
    calls := [.bindBuffer 0x8892 1, .bufferData 0x8892 (-9223372036854775808) none 0x88E8]
    outcome := .ok ()
    after := { handle := 1, target := .array, size := 9223372036854775808 } }

theorem history_halfRange : History { handle := 1, target := .array } [halfRange] := by
  have hsent : Binary.signed 64 (9223372036854775808 : Nat) = -9223372036854775808 := by decide
  refine .cons (.call rfl (.call ?_ (.note (.done _)))) (.nil _)
  rw [Request.lower, hsent]
  rfl

/-- The size arrives as another number than the one that the buffer remembers. -/
theorem halfRange_not_told : History { handle := 1, target := .array } [halfRange] ∧
    halfRange.use = .setSize 9223372036854775808 ∧ halfRange.after.size = 9223372036854775808 ∧
    ∃ e ∈ halfRange.calls, e = .bufferData 0x8892 (-9223372036854775808) none 0x88E8 ∧
      ¬ halfRange.use.Told (fun n => n) e := by
  refine ⟨history_halfRange, rfl, rfl, _, List.mem_cons_of_mem _ (List.mem_singleton_self _), rfl,
    fun htold => ?_⟩
  cases htold

end Buffer
end DrawStream
