import DrawStream.Proofs.Coverage
import DrawStream.Device.Recorder

/-! # Elements of uniform arrays

An array is set element by element from the first on, and each of its elements has a name of
its own, so two numbers have to agree: how many elements a value marks as set
(`Assignment.elements`) and how many reach the device (`Upload.carried?`).  They do for every
type but samplers, of which the device takes one number whatever the length of the value
(`carried_iff_of_marked`).

An array goes by its bare name or by the name of its first element.  The elements that are
marked are those of the name as it stands, so a value under the first element's name marks
that element alone, and a texture under the bare name marks none
(`Assignment.Overlooks`, `unset_element_iff`). -/
namespace DrawStream

/-- How many elements a call uploads, if it is a call for uploads of this kind. -/
def Upload.carried? : Upload → Call → Option Nat
  | .floats n, .uniformFloats _ m data => if m = n then some (data.length / n) else none
  | .ints n, .uniformInts _ m data => if m = n then some (data.length / n) else none
  | .matrix dim, .uniformMatrix _ m data =>
    if m = dim then some (data.length / (dim * dim)) else none
  | .sampler, .uniformInt .. => some 1
  | _, _ => none

/-- How many elements of a value reach the device: all of them, but one for a sampler. -/
def UniformType.sent (type : UniformType) (value : UniformValue) : Nat :=
  if type.upload = .sampler then 1 else value.length / type.components

namespace Program

/-! ## Names of elements -/

theorem toString_injective {i j : Nat} (h : toString i = toString j) : i = j := by
  have hdigits : Nat.toDigits 10 i = Nat.toDigits 10 j := by
    simpa using congrArg String.toList h
  calc i = Nat.ofDigitChars 10 (Nat.toDigits 10 i) 0 := Nat.ofDigitChars_ten_toDigits.symm
    _ = Nat.ofDigitChars 10 (Nat.toDigits 10 j) 0 := by rw [hdigits]
    _ = j := Nat.ofDigitChars_ten_toDigits

theorem elementName_injective (base : String) : Function.Injective (elementName base) := by
  intro i j h
  have hsubscript : base ++ "[" ++ toString i = base ++ "[" ++ toString j :=
    (String.append_left_inj "]").mp h
  exact toString_injective ((String.append_right_inj (base ++ "[")).mp hsubscript)

/-- The name of an element is longer than that of the array. -/
theorem elementName_ne (base : String) (i : Nat) : elementName base i ≠ base := by
  intro h
  have hlength := congrArg String.length h
  simp only [elementName, String.length_append] at hlength
  have hbracket : "[".length = 1 := rfl
  omega

/-- There is no bracket in a number, so an element of an array is no element of an element. -/
theorem elementName_ne_nested (base : String) (i j : Nat) :
    elementName base i ≠ elementName (elementName base 0) j := by
  intro h
  have hnumber : Nat.toDigits 10 i ++ [']'] =
      '0' :: ']' :: '[' :: (Nat.toDigits 10 j ++ [']']) := by
    simpa [elementName] using congrArg String.toList h
  have hmem : '[' ∈ Nat.toDigits 10 i ++ [']'] := by simp [hnumber]
  have hdigit : '[' ∈ Nat.toDigits 10 i := by simpa using hmem
  exact absurd (Nat.isDigit_of_mem_toDigits (by decide) (Nat.le_refl 10) hdigit) (by decide)

/-! ## What is marked and what is sent -/

variable {σ : Type}

/-- The elements that an operation uploads, call by call. -/
def Done.carried (kind : Upload) (e : Done σ) : List Nat :=
  (Event.calls e.events).filterMap kind.carried?

variable [Device σ]

theorem length_wholeNumbers (value : UniformValue) :
    (wholeNumbers value).length = value.length := by
  cases value <;> simp [wholeNumbers, UniformValue.length]

/-- A value that is not refused is uploaded in one call. -/
theorem calls_upload {type : UniformType} {value : UniformValue}
    (h : type.refusal? value = none) (location : Int) (d : σ) :
    ∃ call, Event.calls ((upload location type value).run d).events = [call] ∧
      type.upload.carried? call = some (type.sent value) := by
  have hfloating : ∀ data, value = .ints data → type.isFloating = false := by
    rintro data rfl
    exact isFloating_of_refusal?_eq_none h
  unfold upload UniformType.sent UniformType.components
  split
  · next htype =>
    rw [htype]
    exact ⟨_, rfl, if_pos rfl⟩
  · next htype =>
    rw [htype]
    exact ⟨_, rfl, if_pos rfl⟩
  · next htype =>
    rw [htype, ← length_wholeNumbers]
    exact ⟨_, rfl, if_pos rfl⟩
  · next htype =>
    rw [htype]
    exact ⟨_, rfl, rfl⟩
  · next htype => simp [UniformType.isFloating, htype] at hfloating
  · next htype => simp [UniformType.isFloating, htype] at hfloating

/-- So a uniform that is sent is uploaded in one call. -/
theorem carried_send_uniform (p : Program) (name : String) {type : UniformType}
    {value : UniformValue} (h : type.refusal? value = none) (location : Int) (d : σ) :
    (Event.calls (((Assignment.uniform name type value).send p location).run d).events).filterMap
      type.upload.carried? = [type.sent value] := by
  obtain ⟨call, hcalls, hcall⟩ :=
    calls_upload h location ((Script.request (.useProgram p.handle)).run d).device
  simp only [Assignment.send, Dialogue.bind_eq, Script.run_bind, Event.calls_append,
    List.filterMap_append, activate]
  have hactivate : type.upload.carried? (.useProgram p.handle) = none := by
    cases htype : type.upload <;> rfl
  rw [hcalls]
  simp [Script.request, Dialogue.question, Act.perform, Call.ofAnswer?, Event.calls, hactivate,
    hcall]

section Marked
variable {p : Program} {a : Assignment} {d : σ} {name : String}

theorem send_of_marked_settle {location : Int} (hbefore : name ∈ p.cache.unset)
    (hafter : name ∉ ((p.settle a location).run d).value.2.cache.unset) :
    name ∈ a.covers ∧ a.refusal? = none ∧ ((p.settle a location).run d).events =
      ((a.send (p.stored a location) location).run d).events := by
  rw [value_settle, settled] at hafter
  cases hrefusal : a.refusal? with
  | some failure =>
    rw [hrefusal] at hafter
    exact absurd hbefore hafter
  | none =>
    rw [hrefusal, mem_unset_stored] at hafter
    refine ⟨by_contra fun hnot => hafter ⟨hbefore, hnot⟩, rfl, ?_⟩
    simp [settle, hrefusal, Script.run_bind]

/-- Looking a name up uploads nothing. -/
theorem carried_locationRequest (p : Program) (kind : Upload) (looked : VariableKind)
    (name : String) :
    (Event.calls ((Script.request (p.locationRequest looked name)).run d).events).filterMap
      kind.carried? = [] := by
  cases looked <;> cases kind <;> rfl

/-- **Only a value that is sent marks names.**  If an assignment takes a name from those
without a value, then the name is among those that it covers, the value is not refused, and
all that is uploaded is this value. -/
theorem send_of_marked (hbefore : name ∈ p.cache.unset)
    (hafter : name ∉ ((Operation.assign a).done p d).after.cache.unset) :
    name ∈ a.covers ∧ a.refusal? = none ∧ ∃ (q : Program) (location : Int) (d' : σ),
      ∀ kind, ((Operation.assign a).done p d).carried kind =
        (Event.calls ((a.send q location).run d').events).filterMap kind.carried? := by
  change name ∉ (((Operation.assign a).perform p).run d).value.2.cache.unset at hafter
  simp only [Done.carried]
  change _ ∧ _ ∧ ∃ q location d', ∀ kind,
    (Event.calls (((Operation.assign a).perform p).run d).events).filterMap _ = _
  rw [show (Operation.assign a).perform p = p.assign a from perform_eq_assign p a] at hafter ⊢
  cases hlinked : p.linked with
  | false =>
    rw [assign_of_unlinked hlinked] at hafter
    exact absurd hbefore hafter
  | true =>
    cases hlookup : p.cache.locations.lookup a.name with
    | some location =>
      rw [assign_of_located hlinked hlookup] at hafter ⊢
      obtain ⟨hcovers, hrefusal, hevents⟩ := send_of_marked_settle hbefore hafter
      exact ⟨hcovers, hrefusal, _, location, d, fun kind => by rw [hevents]⟩
    | none =>
      by_cases hinvalid : a.name ∈ p.cache.invalid
      · rw [assign_of_invalid hlinked hlookup hinvalid] at hafter
        exact absurd hbefore hafter
      · rw [assign_of_unknown hlinked ⟨hlookup, hinvalid⟩, Script.run_bind] at hafter ⊢
        rw [value_request] at hafter ⊢
        generalize (Device.answer (p.locationRequest a.kind a.name) d).1 = location at hafter ⊢
        obtain ⟨locations, invalid, hlearn⟩ := learn_eq p a.name location
        by_cases hneg : location < 0
        · rw [if_pos hneg, Script.run_bind, hlearn] at hafter
          exact absurd hbefore hafter
        · rw [if_neg hneg] at hafter ⊢
          have hbefore' : name ∈ (p.learn a.name location).cache.unset := by rwa [hlearn]
          obtain ⟨hcovers, hrefusal, hevents⟩ := send_of_marked_settle hbefore' hafter
          refine ⟨hcovers, hrefusal, (p.learn a.name location).stored a location, location,
            ((Script.request (p.locationRequest a.kind a.name)).run d).device, fun kind => ?_⟩
          rw [Event.calls_append, List.filterMap_append, carried_locationRequest, hevents]
          rfl

end Marked

/-- **What is marked as set has been uploaded, samplers aside.**  If giving a uniform a value
takes the name of an element from those without a value, then one call has uploaded elements
of the type, and this element is one of them: always the first, and every other one unless
the uniform is a sampler. -/
theorem carried_iff_of_marked (p : Program) (name : String) (type : UniformType)
    (value : UniformValue) (d : σ) (k : Nat) (hbefore : elementName name k ∈ p.cache.unset)
    (hafter : elementName name k ∉
      ((Operation.assign (.uniform name type value)).done p d).after.cache.unset) :
    ∃ count, ((Operation.assign (.uniform name type value)).done p d).carried type.upload =
      [count] ∧ (k < count ↔ (type.upload = .sampler → k = 0)) := by
  obtain ⟨hcovers, hrefusal, q, location, d', hcarried⟩ := send_of_marked hbefore hafter
  have hnone : type.refusal? value = none := Option.map_eq_none_iff.mp hrefusal
  refine ⟨type.sent value, ?_, ?_⟩
  · rw [hcarried, carried_send_uniform q name hnone]
  · have hk : k < value.length / type.components := by
      rcases List.mem_cons.mp hcovers with hself | helement
      · exact absurd hself (elementName_ne name k)
      · obtain ⟨i, hi, hname⟩ := List.mem_map.mp helement
        obtain rfl : i = k := elementName_injective name hname
        exact List.mem_range.mp hi
    by_cases hsampler : type.upload = .sampler
    · simp [UniformType.sent, hsampler]
    · simp [UniformType.sent, hsampler, hk]

/-! ## Two arrays

The uniforms are an array `a` of two numbers and an array `t` of two samplers, which a linker
reports under the names of their first elements. -/

/-- A recorder with the two arrays. -/
def twoArrays : Recorder :=
  { lastHandle := 1, uniforms := [⟨"a[0]", 0x1406, 2⟩, ⟨"t[0]", 0x8b5e, 2⟩] }

/-- A program with the two arrays. -/
def arrayProgram : Program := now { handle := 1 } (course { handle := 1 } twoArrays
  [.setShaders "v" "f"])

/-- The recorder behind the program. -/
def arrayRecorder : Recorder := courseEnd { handle := 1 } twoArrays [.setShaders "v" "f"]

/-- Two numbers. -/
def twoNumbers : UniformValue := .floats [⟨0x3f800000⟩, ⟨0x40000000⟩]

/-- Something is set. -/
def setting (a : Assignment) : Done Recorder := (Operation.assign a).done arrayProgram arrayRecorder

/-- The second number of an array is marked, and uploaded. -/
theorem second_number_uploaded :
    elementName "a" 1 ∈ arrayProgram.cache.unset ∧
      elementName "a" 1 ∉ (setting (.uniform "a" .float twoNumbers)).after.cache.unset ∧
      ∃ count, (setting (.uniform "a" .float twoNumbers)).carried UniformType.float.upload =
        [count] ∧ (1 < count ↔ (UniformType.float.upload = .sampler → 1 = 0)) :=
  ⟨by decide +kernel, by decide +kernel, carried_iff_of_marked arrayProgram "a" .float twoNumbers
    arrayRecorder 1 (by decide +kernel) (by decide +kernel)⟩

/-- The second number of a value for samplers is marked, and not uploaded. -/
theorem second_sampler_not_uploaded :
    let e := setting (.uniform "t" .sampler2D (.ints [0, 1]))
    e.outcome = .ok () ∧ elementName "t" 1 ∈ arrayProgram.cache.unset ∧
      elementName "t" 1 ∉ e.after.cache.unset ∧
      Event.calls e.events = [.uniformLocation "t", .useProgram 1, .uniformInt 16 0] ∧
      ¬ ∃ count ∈ e.carried UniformType.sampler2D.upload, 1 < count := by
  refine ⟨?_, ?_, ?_, ?_, ?_⟩
  all_goals decide +kernel

/-! ## Arrays by either of their names -/

/-- How many elements a value is for: those that it fills, or one if it is a texture. -/
def Assignment.given : Assignment → Nat
  | .uniform _ type value => value.length / type.components
  | .sampler .. => 1
  | .attribute .. => 0

/-- The element of an array that is given a value and is not marked: every element but the
first if the array goes by the name of that one, and the first if the array goes by its bare
name and is given a texture. -/
def Assignment.Overlooks (base : String) (i : Nat) : Assignment → Prop
  | .uniform name _ _ => name ≠ base ∧ i ≠ 0
  | .sampler name _ _ => name = base
  | .attribute .. => False

/-- A value that is uploaded takes what it covers from the names without a value. -/
theorem mem_unset_of_uploads {p : Program} {a : Assignment} {d : σ}
    (hupload : ((Operation.assign a).done p d).uploads ≠ []) (name : String) :
    name ∈ ((Operation.assign a).done p d).after.cache.unset ↔
      name ∈ p.cache.unset ∧ name ∉ a.covers := by
  obtain ⟨result, asked, missing, uploads, hassigned, hresult, -, -, huploads⟩ :=
    exists_assigned p a d
  have hafter : ((Operation.assign a).done p d).after = result.2 := congrArg Prod.snd hresult
  rw [huploads] at hupload
  rw [hafter]
  have hsettled {q : Program} {location : Int} (h : a.settledUploads location ≠ []) :
      name ∈ (q.settled a location).2.cache.unset ↔ name ∈ q.cache.unset ∧ name ∉ a.covers := by
    unfold Assignment.settledUploads at h
    unfold settled
    cases hrefusal : a.refusal? with
    | some failure =>
      rw [hrefusal] at h
      exact absurd rfl h
    | none => exact mem_unset_stored
  cases hassigned with
  | unlinked | invalid | missing => exact absurd rfl hupload
  | located hlinked location h => exact hsettled hupload
  | found hlinked hunknown location =>
    obtain ⟨locations, invalid, hlearn⟩ := learn_eq p a.name location
    rw [hsettled hupload, hlearn]

/-- The elements of an array that a value for it covers. -/
theorem elementName_mem_covers_iff {a : Assignment} {base : String} {i : Nat}
    (hname : a.name = base ∨ a.name = elementName base 0) (hi : i < a.given) :
    elementName base i ∈ a.covers ↔ ¬ a.Overlooks base i := by
  cases a with
  | uniform name type value =>
    have hname : name = base ∨ name = elementName base 0 := hname
    have hcovers : elementName base i ∈ (Assignment.uniform name type value).covers ↔
        elementName base i = name ∨
          ∃ j < value.length / type.components, elementName name j = elementName base i := by
      simp [Assignment.covers, Assignment.name, Assignment.elements]
    rw [hcovers]
    rcases hname with rfl | rfl
    · have hnot : ¬ (Assignment.uniform name type value).Overlooks name i := fun h => h.1 rfl
      exact iff_of_true (.inr ⟨i, hi, rfl⟩) hnot
    · have hfirst : elementName base i = elementName base 0 ↔ i = 0 :=
        (elementName_injective base).eq_iff
      have hnested : ¬ ∃ j < value.length / type.components,
          elementName (elementName base 0) j = elementName base i := by
        rintro ⟨j, -, hj⟩
        exact elementName_ne_nested base i j hj.symm
      rw [or_iff_left hnested, hfirst]
      simp [Assignment.Overlooks, elementName_ne]
  | sampler name target texture =>
    have hname : name = base ∨ name = elementName base 0 := hname
    have hcovers : elementName base i ∈ (Assignment.sampler name target texture).covers ↔
        elementName base i = name := by
      simp [Assignment.covers, Assignment.name, Assignment.elements]
    have hzero : i = 0 := Nat.lt_one_iff.mp hi
    rw [hcovers, hzero]
    rcases hname with rfl | rfl
    · simp [Assignment.Overlooks, elementName_ne]
    · simp [Assignment.Overlooks, elementName_ne]
  | «attribute» => exact absurd hi (Nat.not_lt_zero i)

/-- **An array's element that is given a value has one afterwards, unless it is overlooked.**
An overlooked one is unset afterwards if it was before. -/
theorem unset_element_iff (p : Program) (a : Assignment) (d : σ) (base : String) (i : Nat)
    (hname : a.name = base ∨ a.name = elementName base 0)
    (hupload : ((Operation.assign a).done p d).uploads ≠ []) (hi : i < a.given) :
    elementName base i ∈ ((Operation.assign a).done p d).after.cache.unset ↔
      elementName base i ∈ p.cache.unset ∧ a.Overlooks base i := by
  rw [mem_unset_of_uploads hupload, elementName_mem_covers_iff hname hi, not_not]

/-- The second number of an array is set under the bare name. -/
theorem second_number_set :
    (setting (.uniform "a" .float twoNumbers)).uploads ≠ [] ∧
      1 < (Assignment.uniform "a" .float twoNumbers).given ∧
      (elementName "a" 1 ∈ (setting (.uniform "a" .float twoNumbers)).after.cache.unset ↔
        elementName "a" 1 ∈ arrayProgram.cache.unset ∧
          (Assignment.uniform "a" .float twoNumbers).Overlooks "a" 1) :=
  ⟨by decide +kernel, by decide +kernel, unset_element_iff arrayProgram _ arrayRecorder "a" 1
    (.inl rfl) (by decide +kernel) (by decide +kernel)⟩

/-- Under the name of the first element it stays unset, although it is uploaded.  So does the
first sampler of an array whose bare name is given a texture. -/
theorem elements_left_unset :
    ((setting (.uniform "a[0]" .float twoNumbers)).outcome = .ok () ∧
      (setting (.uniform "a[0]" .float twoNumbers)).carried (.floats 1) = [2] ∧
      elementName "a" 1 ∈ (setting (.uniform "a[0]" .float twoNumbers)).after.cache.unset) ∧
    (setting (.sampler "t" Texture.target 2)).outcome = .ok () ∧
      (setting (.sampler "t" Texture.target 2)).uploads = [16] ∧
      elementName "t" 0 ∈ (setting (.sampler "t" Texture.target 2)).after.cache.unset := by
  refine ⟨⟨?_, ?_, ?_⟩, ?_, ?_, ?_⟩
  all_goals decide +kernel

end Program
end DrawStream
