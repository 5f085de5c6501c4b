import DrawStream.EntryPoint.Lowering
import DrawStream.Proofs.ArrayElements
import DrawStream.Proofs.Sources

/-! # Uploads as a graphics library sees them

An upload hands a library memory without its length: how much is read follows from the width of
the entry point and the count.  So three things have to fit together, the check of a value
(`UniformType.refusal?`), the choice of a request for its type (`Program.upload`), and the
choice of an entry point for the request (`Request.lower`).  They do: a value that is not
refused is sent by one call, through the entry point of the type's own width, and the call reads
the value as a whole and nothing beyond it (`Program.sends_upload`).  The same is true of
attributes with constant values, and there the check and the call lie apart: what was checked
when the attribute was set is sent by the draws to come.  That its length still fits is an
invariant of the program (`Program.Measured`), so whatever is done with a program, no call
reads beyond its memory (`Program.exact_perform`). -/
namespace DrawStream
universe u

/-! ## Questions -/

/-- Whatever the answers, all questions are as wanted. -/
def Dialogue.Asks {Q : Type → Type u} {α : Type} (ok : {β : Type} → Q β → Prop) :
    Dialogue Q α → Prop
  | .done _ => True
  | .ask q next => ok q ∧ ∀ b, Asks ok (next b)

theorem Dialogue.Asks.bind {Q : Type → Type u} {α γ : Type} {ok : {β : Type} → Q β → Prop}
    {x : Dialogue Q α} {f : α → Dialogue Q γ} (h : x.Asks ok) (hf : ∀ a, (f a).Asks ok) :
    (x.bind f).Asks ok := by
  induction x with
  | done a => exact hf a
  | ask q next ih => exact ⟨h.1, fun b => ih b (h.2 b)⟩

theorem Dialogue.asks_question {Q : Type → Type u} {β : Type} {ok : {β : Type} → Q β → Prop}
    {q : Q β} (h : ok q) : (Dialogue.question q).Asks ok := ⟨h, fun _ => trivial⟩

/-- The call reads all the memory that it is given, and no more. -/
def EntryPoint.Exact {β : Type} (e : EntryPoint β) : Prop :=
  ∀ given read, e.memory = some (given, read) → read = given

/-- The calls that a request comes to are exact. -/
def Request.Exact {β : Type} (q : Request β) : Prop := q.lower.Asks EntryPoint.Exact

/-- The calls that an act comes to are exact. -/
def Act.Exact : {β : Type} → Act β → Prop
  | _, .request q => q.Exact
  | _, .drain => Request.Exact .takeError
  | _, .arrange | _, .note _ => True

/-- The act is not the refusal of whole numbers in an upload. -/
def Act.Accepts : {β : Type} → Act β → Prop
  | _, .request _ | _, .drain | _, .arrange => True
  | _, .note n => ∀ location, n ≠ .wholeNumbersRefused location

theorem EntryPoint.exact_of_memory {β : Type} {e : EntryPoint β} (h : e.memory = none) :
    e.Exact := by
  intro given read hmemory
  rw [h] at hmemory
  cases hmemory

namespace Request

theorem exact_of_lower {β : Type} {q : Request β} {e : EntryPoint β} (h : q.lower = .question e)
    (he : e.Exact) : q.Exact := by
  rw [Exact, h]
  exact Dialogue.asks_question he

theorem exact_of_memory {β : Type} {q : Request β} {e : EntryPoint β}
    (h : q.lower = .question e) (hmemory : e.memory = none) : q.Exact :=
  exact_of_lower h (EntryPoint.exact_of_memory hmemory)

/-- Requests that neither upload nor bind hand over no numbers. -/
theorem exact_of_topic {β : Type} (q : Request β) (hupload : q.topic ≠ .upload)
    (hbinding : q.topic ≠ .binding) : q.Exact := by
  have hnone {β : Type} {e : EntryPoint β} (h : e.memory = none) : e.Exact :=
    EntryPoint.exact_of_memory h
  cases q with
  | uniformFloats | uniformInts | uniformMatrix | uniformInt => exact absurd rfl hupload
  | useProgram | enableAttribute | disableAttribute | attributePointer | attributeValue
  | bindBuffer | activeTexture | bindTexture => exact absurd rfl hbinding
  | linkStatus | validateStatus | compileStatus | attributeCount | uniformCount =>
    exact ⟨hnone rfl, fun _ => trivial⟩
  | programLog | shaderLog | activeAttribute | activeUniform =>
    exact ⟨hnone rfl, fun _ => ⟨hnone rfl, fun _ => trivial⟩⟩
  | uniformLocation program name | attributeLocation program name =>
    change (lowerLocation name _).Asks EntryPoint.Exact
    unfold lowerLocation
    split
    · trivial
    · exact Dialogue.asks_question (hnone rfl)
  | _ => exact exact_of_memory rfl rfl

end Request

/-- So do scripts that keep to other topics. -/
theorem Script.Within.exact {α : Type} {topics : List Topic} {post : α → Prop} {x : Script α}
    (h : x.Within topics post) (hupload : .upload ∉ topics) (hbinding : .binding ∉ topics) :
    x.Asks Act.Exact := by
  induction x with
  | done a => trivial
  | ask act next ih =>
    refine ⟨?_, fun b => ih b (h.2 b)⟩
    cases act with
    | request q =>
      have htopic := h.1 _ rfl
      exact q.exact_of_topic (fun heq => hupload (heq ▸ htopic)) fun heq => hbinding (heq ▸ htopic)
    | drain => exact Request.exact_of_memory rfl rfl
    | arrange | note n => trivial

/-- The script is a single call of an entry point. -/
def Script.IsCall (x : Script Unit) (e : EntryPoint Unit) : Prop :=
  ∃ q : Request Unit, x = Script.request q ∧ q.lower = .question e

theorem Script.IsCall.exact {x : Script Unit} {e : EntryPoint Unit} (h : x.IsCall e)
    (he : e.Exact) : x.Asks Act.Exact := by
  obtain ⟨q, rfl, hlower⟩ := h
  exact ⟨Request.exact_of_lower hlower he, fun _ => trivial⟩

/-! ## Values of uniforms -/

/-- The call sends a value as a type: it is the one of the type's own width, and it has as many
elements as the value fills. -/
inductive UniformType.Sends (type : UniformType) (value : UniformValue) (location : Int) :
    EntryPoint Unit → Prop
  | floats {w : Width} {count : Int} {data : List Single} (width : type.upload = .floats w.toNat)
      (given : value = .floats data) (some : 1 ≤ count)
      (whole : count.toNat * type.components = value.length) :
      Sends type value location (.uniformFloats w location count data)
  | ints {w : Width} {count : Int} (width : type.upload = .ints w.toNat) (some : 1 ≤ count)
      (whole : count.toNat * type.components = value.length) :
      Sends type value location (.uniformInts w location count (Program.wholeNumbers value))
  | matrix {w : Width} {count : Int} {data : List Single} (width : type.upload = .matrix w.toNat)
      (given : value = .floats data) (some : 1 ≤ count)
      (whole : count.toNat * type.components = value.length) :
      Sends type value location (.uniformMatrices w location count 0 data)
  /-- Only the first number is read, and there is one. -/
  | sampler {n : Int} (width : type.upload = .sampler)
      (first : (Program.wholeNumbers value).head? = some n) :
      Sends type value location (.uniformInt location n)

section Uniforms
variable {type : UniformType} {value : UniformValue} {location : Int}

/-- What is sent so is read as a whole, with nothing beyond. -/
theorem UniformType.Sends.exact {e : EntryPoint Unit} (h : type.Sends value location e) :
    e.Exact := by
  intro given read hmemory
  cases h with
  | floats width given some whole =>
    cases hmemory
    subst given
    rw [UniformType.components, width] at whole
    exact whole
  | ints width some whole =>
    cases hmemory
    rw [UniformType.components, width] at whole
    rw [Program.length_wholeNumbers]
    exact whole
  | matrix width given some whole =>
    cases hmemory
    subst given
    rw [UniformType.components, width] at whole
    exact whole
  | sampler => cases hmemory

/-- The numbers of a type's elements are those of an entry point. -/
theorem UniformType.upload_cases (type : UniformType) :
    (∃ w : Width, type.upload = .floats w.toNat ∨ type.upload = .ints w.toNat) ∨
      (∃ w : Width, type.upload = .matrix w.toNat ∧ 2 ≤ w.toNat) ∨ type.upload = .sampler := by
  cases type with
  | float => exact .inl ⟨.one, .inl rfl⟩
  | vec2 => exact .inl ⟨.two, .inl rfl⟩
  | vec3 => exact .inl ⟨.three, .inl rfl⟩
  | vec4 => exact .inl ⟨.four, .inl rfl⟩
  | int | bool => exact .inl ⟨.one, .inr rfl⟩
  | ivec2 | bvec2 => exact .inl ⟨.two, .inr rfl⟩
  | ivec3 | bvec3 => exact .inl ⟨.three, .inr rfl⟩
  | ivec4 | bvec4 => exact .inl ⟨.four, .inr rfl⟩
  | mat2 => exact .inr (.inl ⟨.two, rfl, by decide⟩)
  | mat3 => exact .inr (.inl ⟨.three, rfl, by decide⟩)
  | mat4 => exact .inr (.inl ⟨.four, rfl, by decide⟩)
  | sampler1D | sampler2D | sampler3D => exact .inr (.inr rfl)

end Uniforms

theorem Width.ofComponents_toNat (w : Width) : Width.ofComponents w.toNat = w := by
  cases w <;> rfl

/-- There is no entry point for matrices of one column. -/
theorem Width.ofDimension_toNat {w : Width} (h : 2 ≤ w.toNat) : Width.ofDimension w.toNat = w := by
  cases w with
  | one => exact absurd h (by decide)
  | two | three | four => rfl

namespace Request

/-- The count of elements is what the elements come to, if it fits 32 bits. -/
theorem exists_valueCount {length size : Nat} (hpos : 0 < length) (hwhole : length % size = 0)
    (hfew : length / size < 2147483648) :
    ∃ count, valueCount length size = count ∧ 1 ≤ count ∧ count.toNat * size = length := by
  have hsize : size ≠ 0 := by
    rintro rfl
    rw [Nat.mod_zero] at hwhole
    omega
  have hmax : max size 1 = size := by omega
  have hmul : length / size * size = length := Nat.div_mul_cancel (Nat.dvd_of_mod_eq_zero hwhole)
  have hsome : length / size ≠ 0 := by
    intro hzero
    rw [hzero, Nat.zero_mul] at hmul
    omega
  refine ⟨(length / size : Nat), ?_, Int.ofNat_le.mpr (Nat.pos_of_ne_zero hsome), hmul⟩
  rw [valueCount, hmax]
  refine Binary.signed_of_lt ?_
  have hpow : Nat.pow 2 32 = 4294967296 := rfl
  omega

section
variable (w : Width) (location : Int)

theorem lower_uniformFloats (data : List Single) :
    (uniformFloats location w.toNat data).lower =
      .question (.uniformFloats w location (valueCount data.length w.toNat) data) := by
  rw [lower, Width.ofComponents_toNat]

theorem lower_uniformInts (data : List Int) :
    (uniformInts location w.toNat data).lower =
      .question (.uniformInts w location (valueCount data.length w.toNat) data) := by
  rw [lower, Width.ofComponents_toNat]

theorem lower_uniformMatrix (h : 2 ≤ w.toNat) (data : List Single) :
    (uniformMatrix location w.toNat data).lower =
      .question (.uniformMatrices w location (valueCount data.length (w.toNat * w.toNat)) 0
        data) := by
  rw [lower, Width.ofDimension_toNat h]

end
end Request

/-- A value that is not refused is not empty and fills whole elements. -/
theorem UniformType.whole_of_refusal?_eq_none {type : UniformType} {value : UniformValue}
    (h : type.refusal? value = none) : 0 < value.length ∧ value.length % type.components = 0 := by
  unfold refusal? at h
  split at h
  · cases h
  · next hempty =>
    split at h
    · cases h
    · next hwhole => exact ⟨Nat.pos_of_ne_zero hempty, Decidable.not_not.mp hwhole⟩

namespace Program

section Upload
variable {type : UniformType} {value : UniformValue}

/-- Floating-point types get floating-point numbers, if the value is not refused. -/
theorem exists_floats (h : type.refusal? value = none) (hfloating : type.isFloating = true) :
    ∃ data, value = .floats data := by
  cases value with
  | floats data => exact ⟨data, rfl⟩
  | ints data =>
    rw [isFloating_of_refusal?_eq_none h] at hfloating
    cases hfloating

/-- **A value that is not refused is sent by one call**, of the width of its type, and the call
reads all of it. -/
theorem sends_upload (h : type.refusal? value = none)
    (hfew : value.length / type.components < 2147483648) (location : Int) :
    ∃ e, (upload location type value).IsCall e ∧ type.Sends value location e := by
  obtain ⟨hpos, hwhole⟩ := UniformType.whole_of_refusal?_eq_none h
  obtain ⟨count, hcount, hsome, hfull⟩ := Request.exists_valueCount hpos hwhole hfew
  rcases type.upload_cases with ⟨w, htype | htype⟩ | ⟨w, htype, hdim⟩ | htype
  · have hsize : type.components = w.toNat := by
      rw [UniformType.components, htype, Upload.components]
    obtain ⟨data, rfl⟩ := exists_floats h (by rw [UniformType.isFloating, htype])
    refine ⟨.uniformFloats w location count data, ⟨.uniformFloats location w.toNat data, ?_, ?_⟩,
      .floats htype rfl hsome hfull⟩
    · simp only [upload, htype]
    · rw [Request.lower_uniformFloats, ← hcount, hsize, UniformValue.length]
  · have hsize : type.components = w.toNat := by
      rw [UniformType.components, htype, Upload.components]
    refine ⟨.uniformInts w location count (wholeNumbers value),
      ⟨.uniformInts location w.toNat (wholeNumbers value), ?_, ?_⟩, .ints htype hsome hfull⟩
    · simp only [upload, htype]
    · rw [Request.lower_uniformInts, ← hcount, hsize, length_wholeNumbers]
  · have hsize : type.components = w.toNat * w.toNat := by
      rw [UniformType.components, htype, Upload.components]
    obtain ⟨data, rfl⟩ := exists_floats h (by rw [UniformType.isFloating, htype])
    refine ⟨.uniformMatrices w location count 0 data,
      ⟨.uniformMatrix location w.toNat data, ?_, ?_⟩, .matrix htype rfl hsome hfull⟩
    · simp only [upload, htype]
    · rw [Request.lower_uniformMatrix w location hdim, ← hcount, hsize, UniformValue.length]
  · have hnumbers : wholeNumbers value ≠ [] := by
      rw [← List.length_pos_iff, length_wholeNumbers]
      exact hpos
    obtain ⟨n, rest, hn⟩ := List.exists_cons_of_ne_nil hnumbers
    refine ⟨.uniformInt location n, ⟨.uniformInt location n, ?_, rfl⟩, .sampler htype ?_⟩
    · simp only [upload, htype, hn, List.headD_cons]
    · rw [hn, List.head?_cons]

end Upload

/-! ## Constant attributes -/

/-- **A constant that is not refused is sent by the call of its own width.** -/
theorem sends_constant {name : String} {type : AttributeType} {values : List Single}
    (h : sourceFailure? name type (.constant values) = none) (index : Nat) :
    ∃ w : Width, w.toNat = values.length ∧
      (Script.request (.attributeValue index values)).IsCall (.attributeFloats w index values) := by
  obtain ⟨w, hw⟩ : ∃ w : Width, w.toNat = type.components := by
    cases type with
    | float => exact ⟨.one, rfl⟩
    | vec2 => exact ⟨.two, rfl⟩
    | vec3 => exact ⟨.three, rfl⟩
    | vec4 => exact ⟨.four, rfl⟩
  have hlength : w.toNat = values.length := by
    by_contra hlength
    rw [hw] at hlength
    simp [sourceFailure?, Ne.symm hlength] at h
  have hsome : values.isEmpty = false := by
    have hpos : 0 < w.toNat := by cases w <;> decide
    rw [List.isEmpty_eq_false_iff, ← List.length_pos_iff, ← hlength]
    exact hpos
  refine ⟨w, hlength, .attributeValue index values, rfl, ?_⟩
  rw [Request.lower, if_neg (by simp [hsome]), ← hlength, Width.ofComponents_toNat]

/-- Nothing is recorded that would be refused. -/
def Measured (c : LinkCache) : Prop :=
  ∀ a ∈ c.attributes, sourceFailure? a.name a.type a.source = none

theorem exact_bind {a : Attribute} (h : sourceFailure? a.name a.type a.source = none) :
    a.bind.Asks Act.Exact := by
  unfold Attribute.bind
  cases hsource : a.source with
  | buffer handle stride offset =>
    exact ⟨Request.exact_of_memory rfl rfl, fun _ => ⟨Request.exact_of_memory rfl rfl,
      fun _ => ⟨Request.exact_of_memory rfl rfl, fun _ => trivial⟩⟩⟩
  | constant values =>
    rw [hsource] at h
    obtain ⟨w, hw, hcall⟩ := sends_constant h a.location
    refine ⟨Request.exact_of_memory rfl rfl, fun _ => ⟨Request.exact_of_memory rfl rfl,
      fun _ => hcall.exact ?_⟩⟩
    intro given read hmemory
    cases hmemory
    exact hw

theorem asks_inOrder {α : Type} {ok : {β : Type} → Act β → Prop} {act : α → Script Unit}
    {items : List α} (h : ∀ a ∈ items, (act a).Asks ok) : (inOrder act items).Asks ok := by
  induction items with
  | nil => trivial
  | cons a rest ih =>
    obtain ⟨hfirst, hrest⟩ := List.forall_mem_cons.mp h
    exact hfirst.bind fun _ => ih hrest

variable {p : Program}

theorem exact_activate : p.activate.Asks Act.Exact :=
  ⟨Request.exact_of_memory rfl rfl, fun _ => trivial⟩

theorem exact_bindAll (h : Measured p.cache) : p.bindAll.Asks Act.Exact := by
  have hsampler (s : Sampler) : s.bind.Asks Act.Exact :=
    ⟨Request.exact_of_memory rfl rfl, fun _ => ⟨Request.exact_of_memory rfl rfl, fun _ => trivial⟩⟩
  refine exact_activate.bind fun _ => ⟨trivial, fun order => ?_⟩
  refine (asks_inOrder fun s _ => hsampler s).bind fun _ => ⟨trivial, fun order => ?_⟩
  refine asks_inOrder fun a ha => exact_bind (h a ?_)
  exact (order.apply_perm _).mem_iff.mp ha

theorem exact_checkErrors (checkpoint : String) :
    (Script.checkErrors checkpoint).Asks Act.Exact :=
  ⟨Request.exact_of_memory rfl rfl, fun _ => trivial⟩

theorem exact_draw (h : Measured p.cache) (mode : DrawMode) (selection : Selection) :
    (p.draw mode selection).Asks Act.Exact := by
  unfold draw
  split
  · trivial
  split
  · trivial
  split
  · trivial
  next call _ =>
  refine (exact_checkErrors _).bind fun checked => ?_
  cases checked with
  | error => trivial
  | ok =>
    refine (exact_bindAll h).bind fun _ => ?_
    refine (p.within_validateOnce.exact (by decide) (by decide)).bind fun validated => ?_
    obtain ⟨validated, p'⟩ := validated
    cases validated with
    | error => trivial
    | ok =>
      have hissue : (call.issue mode).Asks Act.Exact := by
        cases call with
        | range => exact ⟨Request.exact_of_memory rfl rfl, fun _ => trivial⟩
        | elements =>
          exact ⟨Request.exact_of_memory rfl rfl, fun _ => ⟨Request.exact_of_memory rfl rfl,
            fun _ => ⟨Request.exact_of_memory rfl rfl, fun _ => trivial⟩⟩⟩
      exact hissue.bind fun _ => (exact_checkErrors _).bind fun _ => trivial

/-! ## Assignments -/

/-- What an assignment asks is a location, and then what is sent to it. -/
theorem asks_assign {ok : {β : Type} → Act β → Prop} (a : Assignment)
    (hlookup : ok (.request (p.locationRequest a.kind a.name))) (hmissing : ok (.note a.missing))
    (hsend : a.refusal? = none → ∀ q location, (a.send q location).Asks ok) :
    (p.assign a).Asks ok := by
  have hsettle (q : Program) (location : Int) : (q.settle a location).Asks ok := by
    unfold settle
    cases hrefusal : a.refusal? with
    | some failure => trivial
    | none => exact (hsend hrefusal _ location).bind fun _ => trivial
  cases hlinked : p.linked with
  | false =>
    rw [assign_of_unlinked hlinked]
    trivial
  | true =>
    cases hlocation : p.cache.locations.lookup a.name with
    | some location =>
      rw [assign_of_located hlinked hlocation]
      exact hsettle p location
    | none =>
      by_cases hinvalid : a.name ∈ p.cache.invalid
      · rw [assign_of_invalid hlinked hlocation hinvalid]
        trivial
      · rw [assign_of_unknown hlinked ⟨hlocation, hinvalid⟩]
        refine Dialogue.Asks.bind ⟨hlookup, fun _ => trivial⟩ fun location => ?_
        split
        · exact ⟨hmissing, fun _ => trivial⟩
        · exact hsettle _ location

theorem exact_locationRequest (kind : VariableKind) (name : String) :
    (p.locationRequest kind name).Exact := by
  have hwithin : (Script.request (p.locationRequest kind name)).Within [.lookup]
      fun _ => True := by
    cases kind <;> simp [locationRequest]
  exact (hwithin.exact (by decide) (by decide)).1

theorem exact_assign {a : Assignment} (hfew : a.elements < 2147483648) :
    (p.assign a).Asks Act.Exact := by
  refine asks_assign a (exact_locationRequest ..) trivial fun hrefusal q location => ?_
  cases a with
  | uniform name type value =>
    obtain ⟨e, hcall, hsends⟩ := sends_upload (Option.map_eq_none_iff.mp hrefusal) hfew location
    exact exact_activate.bind fun _ => hcall.exact hsends.exact
  | «attribute» => trivial
  | sampler =>
    exact exact_activate.bind fun _ => ⟨Request.exact_of_memory rfl rfl, fun _ => trivial⟩

/-- A value that is not refused is not held back either. -/
theorem accepts_upload {type : UniformType} {value : UniformValue}
    (h : type.refusal? value = none) (location : Int) :
    (upload location type value).Asks Act.Accepts := by
  have hfloats : type.isFloating = true → ∀ data, value ≠ .ints data := by
    rintro hfloating data rfl
    obtain ⟨_, hdata⟩ := exists_floats h hfloating
    cases hdata
  unfold upload
  split
  · exact ⟨trivial, fun _ => trivial⟩
  · exact ⟨trivial, fun _ => trivial⟩
  · exact ⟨trivial, fun _ => trivial⟩
  · exact ⟨trivial, fun _ => trivial⟩
  · next htype => exact absurd rfl (hfloats (by rw [UniformType.isFloating, htype]) _)
  · next htype => exact absurd rfl (hfloats (by rw [UniformType.isFloating, htype]) _)

theorem accepts_assign (a : Assignment) : (p.assign a).Asks Act.Accepts := by
  refine asks_assign a trivial (fun location heq => ?_) fun hrefusal q location => ?_
  · have htopic := topic?_missing a
    rw [heq] at htopic
    cases htopic
  · cases a with
    | uniform name type value =>
      exact ⟨trivial, fun _ => accepts_upload (Option.map_eq_none_iff.mp hrefusal) location⟩
    | «attribute» => trivial
    | sampler => exact ⟨trivial, fun _ => ⟨trivial, fun _ => trivial⟩⟩

/-! ## Every operation -/

section Operations
variable {σ : Type} [Device σ] {o : Operation} {d : σ}

theorem measured_settled {q : Program} (h : Measured q.cache) (a : Assignment) (location : Int) :
    Measured (q.settled a location).2.cache := by
  cases a with
  | uniform | sampler =>
    intro b hb
    rw [attributes_settled q location (.inl rfl)] at hb
    exact h b hb
  | «attribute» name type source =>
    cases hrefusal : sourceFailure? name type source with
    | some failure =>
      have hfails : (q.settled (.attribute name type source) location).1 ≠ .ok () := by
        simp [settled, Assignment.refusal?, hrefusal]
      intro b hb
      rw [attributes_settled q location (.inr hfails)] at hb
      exact h b hb
    | none =>
      have hok : (q.settled (.attribute name type source) location).1 = .ok () := by
        simp [settled, Assignment.refusal?, hrefusal]
      intro b hb
      rcases (mem_attributes_settled q hok).mp hb with rfl | ⟨hb, -⟩
      · exact hrefusal
      · exact h b hb

/-- A source is looked at before it is recorded, so all that is recorded has been. -/
theorem Measured.done (h : Measured p.cache) (o : Operation) (d : σ) :
    Measured (o.done p d).after.cache := by
  cases hlinks : (o.done p d).links with
  | true =>
    rw [after_of_links hlinks]
    exact fun b hb => by cases hb
  | false =>
    cases o with
    | assign a =>
      rcases settles_assign a d with ⟨-, -, hsame⟩ | ⟨q, location, -, hsame, -, hafter, -⟩
      · intro b hb
        rw [hsame] at hb
        exact h b hb
      · rw [hafter]
        refine measured_settled (fun b hb => ?_) a location
        rw [hsame] at hb
        exact h b hb
    | _ =>
      obtain ⟨validated, hcache⟩ := cache_of_not_links rfl hlinks
      rw [hcache]
      exact h

/-- A uniform that is set gets fewer elements than 32 bits with a sign can count. -/
def Operation.Countable (o : Operation) : Prop :=
  ∀ a, o.assignment? = some a → a.elements < 2147483648

/-- **No operation reads beyond its memory.** -/
theorem exact_perform (h : Measured p.cache) (ho : o.Countable) :
    (o.perform p).Asks Act.Exact := by
  cases o with
  | setShaders vertex fragment =>
    exact (p.within_setShaders vertex fragment).exact (by decide) (by decide)
  | assign a =>
    change (a.perform p).Asks Act.Exact
    rw [perform_eq_assign]
    exact exact_assign (ho a rfl)
  | draw mode selection => exact exact_draw h mode selection
  | activate => exact exact_activate.bind fun _ => trivial
  | deactivate => exact ⟨Request.exact_of_memory rfl rfl, fun _ => trivial⟩

theorem measured_now (handle : Handle) (uses : List (Operation × σ)) :
    Measured (({ handle } : Program).now uses).cache := by
  refine past_induction (p := { handle }) (fun _ p => Measured p.cache) ?_ ?_ uses
  · exact fun b hb => by cases hb
  · exact fun past p o d h => h.done o d

end Operations

/-- **What a library is given to read.**  A value that is not refused as a type is sent by one
call of the type's own width that reads all of it and no more, and none is held back on its way;
so is a constant that is not refused as an attribute.  And whatever has been done with a program
before, it has recorded no constant that would be refused, and no operation has a call read
anything but the memory that it is given. -/
theorem raw_uploads :
    (∀ (type : UniformType) (value : UniformValue) (location : Int),
      type.refusal? value = none → value.length / type.components < 2147483648 →
      ∃ e, (upload location type value).IsCall e ∧ type.Sends value location e ∧ e.Exact) ∧
    (∀ (p : Program) (a : Assignment), (a.perform p).Asks Act.Accepts) ∧
    (∀ (name : String) (type : AttributeType) (values : List Single) (index : Nat),
      sourceFailure? name type (.constant values) = none →
      ∃ w : Width, w.toNat = values.length ∧
        (Script.request (.attributeValue index values)).IsCall
          (.attributeFloats w index values)) ∧
    ∀ {σ : Type} [Device σ] (handle : Handle) (uses : List (Operation × σ)),
      Measured (({ handle } : Program).now uses).cache ∧ ∀ o : Operation, o.Countable →
        (o.perform (({ handle } : Program).now uses)).Asks Act.Exact := by
  refine ⟨fun type value location h hfew => ?_, fun p a => ?_, fun name type values index h => ?_,
    fun handle uses => ⟨measured_now handle uses, fun o ho => ?_⟩⟩
  · obtain ⟨e, hcall, hsends⟩ := sends_upload h hfew location
    exact ⟨e, hcall, hsends, hsends.exact⟩
  · rw [perform_eq_assign]
    exact accepts_assign a
  · exact sends_constant h index
  · exact exact_perform (measured_now handle uses) ho

/-- Two matrices of two columns. -/
def twoMatrices : UniformValue := .floats (List.replicate 8 ⟨0x3f800000⟩)

theorem twoMatrices_sent :
    UniformType.mat2.refusal? twoMatrices = none ∧
      ∃ e, (upload 3 .mat2 twoMatrices).IsCall e ∧ UniformType.mat2.Sends twoMatrices 3 e ∧
        e.Exact :=
  ⟨by decide, raw_uploads.1 .mat2 twoMatrices 3 (by decide) (by decide)⟩

end Program
end DrawStream
