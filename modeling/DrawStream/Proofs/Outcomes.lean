import DrawStream.Proofs.Past

/-! # What becomes of an operation

An assignment has one of five outcomes, according to what the program knows of the name and,
if it knows nothing, what the device says (`Assigned`).  Any other operation looks nothing up;
a link that succeeds starts a new cache with what the device reports, and whatever else
happens the cache stays as it is, apart from whether the program has been validated. -/
namespace DrawStream.Program
variable {σ : Type} [Device σ] (p : Program) (a : Assignment) (d : σ)

/-! ## Assignments -/

/-- Outcome and program once the value for a location has been looked at. -/
def settled (location : Int) : Outcome Unit × Program :=
  match a.refusal? with
  | some failure => (.error failure, p)
  | none => (.ok (), p.stored a location)

theorem value_settle (location : Int) :
    ((p.settle a location).run d).value = p.settled a location := by
  unfold settle settled
  cases a.refusal? with
  | some failure => rfl
  | none => simp [Script.run_bind]

/-- The locations that values are uploaded to once the value for a location has been looked at. -/
def Assignment.settledUploads (location : Int) : List Int :=
  match a.refusal? with
  | some _ => []
  | none => a.uploads location

/-- **What becomes of an assignment**: outcome and program, the location that was asked for,
the name that was noted as missing, and the location that the value was uploaded to. -/
inductive Assigned : Outcome Unit × Program → List Query → List String → List Int → Prop
  | unlinked (h : p.linked = false) : Assigned (.error .programNotLinked, p) [] [] []
  | invalid (hlinked : p.linked = true) (hnone : p.cache.locations.lookup a.name = none)
      (h : a.name ∈ p.cache.invalid) : Assigned (.ok (), p) [] [] []
  | located (hlinked : p.linked = true) (location : Int)
      (h : p.cache.locations.lookup a.name = some location) :
      Assigned (p.settled a location) [] [] (a.settledUploads location)
  | missing (hlinked : p.linked = true) (hunknown : p.Unknown a.name) (location : Int)
      (hlocation : (Device.answer (p.locationRequest a.kind a.name) d).1 = location)
      (hneg : location < 0) :
      Assigned (.ok (), p.learn a.name location) [⟨a.kind, a.name, location⟩] [a.name] []
  | found (hlinked : p.linked = true) (hunknown : p.Unknown a.name) (location : Int)
      (hlocation : (Device.answer (p.locationRequest a.kind a.name) d).1 = location)
      (hpos : 0 ≤ location) :
      Assigned ((p.learn a.name location).settled a location) [⟨a.kind, a.name, location⟩] []
        (a.settledUploads location)

theorem query?_locationRequest (kind : VariableKind) (name : String) (location : Int) :
    (p.locationRequest kind name).query? location = some ⟨kind, name, location⟩ := by
  cases kind <;> rfl

theorem missing_assignment : a.missing.missing? = some a.name := by
  cases a with
  | uniform | sampler => rfl
  | «attribute» name type source =>
    cases source with
    | constant => rfl
    | buffer handle stride offset =>
      simp only [Assignment.missing, missingAttribute]
      split <;> rfl

theorem value_request {β : Type} (r : Request β) :
    ((Script.request r).run d).value = (Device.answer r d).1 := rfl

/-- Looking a name up leaves no notes. -/
theorem missing_locationRequest (kind : VariableKind) (name : String) :
    (Event.notes ((Script.request (p.locationRequest kind name)).run d).events).filterMap
      Note.missing? = [] := by
  have hwithin : (Script.request (p.locationRequest kind name)).Within [.lookup]
      fun _ => True := by
    cases kind <;> simp [locationRequest]
  exact hwithin.missing_eq_nil (by decide) d

/-- Looking a name up uploads nothing. -/
theorem uploads_locationRequest (kind : VariableKind) (name : String) :
    (Event.calls ((Script.request (p.locationRequest kind name)).run d).events).filterMap
      Call.uploadedTo? = [] := by
  cases kind <;> rfl

/-- Once a location is known, nothing is looked up and nothing missing. -/
theorem asks_nothing_settle (location : Int) :
    (p.settle a location).gather Request.query? d = [] ∧
      (Event.notes ((p.settle a location).run d).events).filterMap Note.missing? = [] := by
  have hwithin := p.within_settle a location
  exact ⟨hwithin.gather_of_not_mem d (by decide) query?_eq_none,
    hwithin.missing_eq_nil (by decide) d⟩

/-- A type that accepts whole numbers is not a floating one. -/
theorem isFloating_of_refusal?_eq_none {type : UniformType} {data : List Int}
    (h : type.refusal? (.ints data) = none) : type.isFloating = false := by
  cases hfloating : type.isFloating with
  | false => rfl
  | true =>
    simp only [UniformType.refusal?, hfloating, if_true] at h
    split at h
    · cases h
    · split at h <;> cases h

/-- A value that is not refused is uploaded once. -/
theorem uploads_upload {type : UniformType} {value : UniformValue}
    (h : type.refusal? value = none) (location : Int) :
    (Event.calls ((upload location type value).run d).events).filterMap Call.uploadedTo? =
      [location] := by
  have hfloating : ∀ data, value = .ints data → type.isFloating = false := by
    rintro data rfl
    exact isFloating_of_refusal?_eq_none h
  unfold upload
  split
  · rfl
  · rfl
  · rfl
  · rfl
  · next htype => simp [UniformType.isFloating, htype] at hfloating
  · next htype => simp [UniformType.isFloating, htype] at hfloating

theorem uploads_settle (location : Int) :
    (Event.calls ((p.settle a location).run d).events).filterMap Call.uploadedTo? =
      a.settledUploads location := by
  unfold settle Assignment.settledUploads
  cases hrefusal : a.refusal? with
  | some failure => rfl
  | none =>
    cases a with
    | uniform name type value =>
      have hnone : type.refusal? value = none := Option.map_eq_none_iff.mp hrefusal
      simp only [Assignment.send, Dialogue.bind_eq, Script.run_bind, Dialogue.pure_eq_done,
        Script.run_done, List.append_nil, Event.calls_append, List.filterMap_append]
      rw [uploads_upload _ hnone]
      rfl
    | «attribute» | sampler => rfl

theorem assigned :
    Assigned p a d (((Operation.assign a).done p d).outcome, ((Operation.assign a).done p d).after)
      ((Operation.assign a).done p d).queries ((Operation.assign a).done p d).missing
      ((Operation.assign a).done p d).uploads := by
  change Assigned p a d (((Operation.assign a).perform p).run d).value
    (((Operation.assign a).perform p).gather Request.query? d)
    ((Event.notes (((Operation.assign a).perform p).run d).events).filterMap Note.missing?)
    ((Event.calls (((Operation.assign a).perform p).run d).events).filterMap Call.uploadedTo?)
  rw [show (Operation.assign a).perform p = p.assign a from perform_eq_assign p a]
  cases hlinked : p.linked with
  | false =>
    rw [assign_of_unlinked hlinked]
    exact .unlinked hlinked
  | true =>
    cases hlookup : p.cache.locations.lookup a.name with
    | some location =>
      obtain ⟨hqueries, hmissing⟩ := asks_nothing_settle p a d location
      rw [assign_of_located hlinked hlookup, hqueries, hmissing, value_settle, uploads_settle]
      exact .located hlinked location hlookup
    | none =>
      by_cases hinvalid : a.name ∈ p.cache.invalid
      · rw [assign_of_invalid hlinked hlookup hinvalid]
        exact .invalid hlinked hlookup hinvalid
      · have hunknown : p.Unknown a.name := ⟨hlookup, hinvalid⟩
        rw [assign_of_unknown hlinked hunknown, Script.run_bind, Script.gather_bind,
          Script.gather_request, query?_locationRequest, Event.notes_append,
          List.filterMap_append, missing_locationRequest, List.nil_append, Event.calls_append,
          List.filterMap_append, uploads_locationRequest, List.nil_append]
        obtain ⟨location, hlocation⟩ :
          ∃ location, (Device.answer (p.locationRequest a.kind a.name) d).1 = location := ⟨_, rfl⟩
        rw [value_request, hlocation]
        by_cases hneg : location < 0
        · simpa [hneg, Script.run_bind, Script.gather_bind, Event.notes, Event.calls,
            missing_assignment] using Assigned.missing hlinked hunknown location hlocation hneg
        · rw [if_neg hneg, (asks_nothing_settle ..).1, (asks_nothing_settle ..).2, value_settle,
            uploads_settle]
          exact .found hlinked hunknown location hlocation (Int.not_lt.mp hneg)

/-- What becomes of an assignment, with names for it. -/
theorem exists_assigned : ∃ result asked missing uploads,
    Assigned p a d result asked missing uploads ∧
    (((Operation.assign a).done p d).outcome, ((Operation.assign a).done p d).after) = result ∧
    ((Operation.assign a).done p d).queries = asked ∧
    ((Operation.assign a).done p d).missing = missing ∧
    ((Operation.assign a).done p d).uploads = uploads :=
  ⟨_, _, _, _, assigned p a d, rfl, rfl, rfl, rfl⟩

/-- A location is asked for only if nothing is known of the name. -/
theorem queries_assign :
    (p.linked = true → ¬ p.Unknown a.name) ∧ ((Operation.assign a).done p d).queries = [] ∨
    p.linked = true ∧ p.Unknown a.name ∧ ((Operation.assign a).done p d).queries =
      [⟨a.kind, a.name, (Device.answer (p.locationRequest a.kind a.name) d).1⟩] := by
  obtain ⟨result, asked, missing, uploads, hassigned, -, hqueries, -, -⟩ := exists_assigned p a d
  rw [hqueries]
  cases hassigned with
  | unlinked h =>
    refine .inl ⟨fun hlinked => ?_, rfl⟩
    rw [h] at hlinked
    cases hlinked
  | invalid hlinked hnone h => exact .inl ⟨fun _ hunknown => hunknown.2 h, rfl⟩
  | located hlinked location h =>
    refine .inl ⟨fun _ hunknown => ?_, rfl⟩
    rw [hunknown.1] at h
    cases h
  | missing hlinked hunknown location hlocation =>
    exact .inr ⟨hlinked, hunknown, by rw [hlocation]⟩
  | found hlinked hunknown location hlocation =>
    exact .inr ⟨hlinked, hunknown, by rw [hlocation]⟩

/-! ## Other operations -/

variable (o : Operation)

theorem within_perform (h : o.assignment? = none) :
    (o.perform p).Within
      [.building, .status, .reporting, .errors, .binding, .order, .validation, .drawing]
      fun _ => True := by
  cases o with
  | setShaders vertex fragment =>
    exact (p.within_setShaders vertex fragment).mono (by decide) fun _ _ => trivial
  | assign a => cases h
  | draw mode selection => exact (p.within_draw mode selection).mono (by decide) fun _ _ => trivial
  | activate | deactivate =>
    simp [Operation.perform, Program.activate, Program.deactivate]

/-- Only assignments look names up. -/
theorem queries_eq_nil (h : o.assignment? = none) : (o.done p d).queries = [] :=
  (within_perform p o h).gather_of_not_mem d (by decide) query?_eq_none

/-- Only assignments note names as missing. -/
theorem missing_eq_nil (h : o.assignment? = none) : (o.done p d).missing = [] :=
  (within_perform p o h).missing_eq_nil (by decide) d

/-! ## Linking -/

theorem gather_collect {ask : Nat → Request Variable}
    (hask : ∀ i v, (ask i).report? v = some v) (count i : Nat) :
    (collect ask count i).gather Request.report? d = ((collect ask count i).run d).value := by
  induction count generalizing i d with
  | zero => rfl
  | succ count ih =>
    simp only [collect, Dialogue.bind_eq, Script.gather_bind, Script.gather_request, hask,
      Script.run_bind, value_request, ih, Dialogue.pure_eq_done, Script.gather_done,
      Script.run_done, List.append_nil]
    rfl

/-- The variables of a linked program are those that the device reports. -/
theorem gather_reported : p.reported.gather Request.report? d = (p.reported.run d).value := by
  have hattributes : ∀ i v, (Request.activeAttribute p.handle i).report? v = some v :=
    fun _ _ => rfl
  have huniforms : ∀ i v, (Request.activeUniform p.handle i).report? v = some v :=
    fun _ _ => rfl
  simp [reported, Script.gather_bind, Script.run_bind, gather_collect _ hattributes,
    gather_collect _ huniforms, Request.report?]

/-- A program that could not be built is unlinked, and keeps what it had; one that could be
built has what the device reports. -/
theorem done_setShaders (vertex fragment : String) :
    (∃ failure, ((Operation.setShaders vertex fragment).done p d).outcome = .error failure ∧
      ((Operation.setShaders vertex fragment).done p d).after = { p with linked := false }) ∨
    ((Operation.setShaders vertex fragment).done p d).outcome = .ok () ∧
      ((Operation.setShaders vertex fragment).done p d).after =
        { p with
          linked := true
          cache := LinkCache.fresh ((Operation.setShaders vertex fragment).done p d).reports } := by
  simp only [Operation.done, Operation.perform, setShaders_eq, Script.run_bind, Script.gather_bind]
  have hbuild : (p.buildAlone vertex fragment).gather Request.report? d = [] :=
    (p.within_buildAlone vertex fragment).gather_of_not_mem d (by decide) report?_eq_none
  rw [hbuild, List.nil_append]
  cases ((p.buildAlone vertex fragment).run d).value with
  | error failure => exact .inl ⟨failure, rfl, rfl⟩
  | ok =>
    refine .inr ⟨?_, ?_⟩
    · simp [setBuilt, Script.run_bind]
    · simp [setBuilt, Script.run_bind, Script.gather_bind, gather_reported]

/-- The program gets new code. -/
def Operation.relinks : Operation → Bool
  | setShaders .. => true
  | assign _ | draw .. | activate | deactivate => false

section Links
variable {p a o d}

theorem exists_of_links (h : (o.done p d).links = true) :
    ∃ vertex fragment, o = .setShaders vertex fragment ∧ (o.done p d).outcome = .ok () := by
  cases o with
  | setShaders vertex fragment =>
    rcases done_setShaders p d vertex fragment with ⟨failure, hfail, -⟩ | ⟨hok, -⟩
    · simp [Done.links, hfail] at h
    · exact ⟨vertex, fragment, rfl, hok⟩
  | assign | draw | activate | deactivate => cases h

/-- A link that succeeds starts a new cache. -/
theorem after_of_links (h : (o.done p d).links = true) :
    (o.done p d).after =
      { p with linked := true, cache := LinkCache.fresh (o.done p d).reports } := by
  obtain ⟨vertex, fragment, rfl, hok⟩ := exists_of_links h
  rcases done_setShaders p d vertex fragment with ⟨failure, hfail, -⟩ | ⟨-, hafter⟩
  · rw [hok] at hfail
    cases hfail
  · exact hafter

/-- Neither drawing nor a link that fails changes the cache, apart from whether the program
has been validated. -/
theorem cache_of_not_links (hassign : o.assignment? = none) (hlinks : (o.done p d).links = false) :
    ∃ validated, (o.done p d).after.cache = { p.cache with validated } := by
  cases o with
  | setShaders vertex fragment =>
    rcases done_setShaders p d vertex fragment with ⟨failure, -, hafter⟩ | ⟨hok, -⟩
    · exact ⟨p.cache.validated, by rw [hafter]⟩
    · rw [Done.links, hok] at hlinks
      cases hlinks
  | assign a => cases hassign
  | draw mode selection =>
    obtain ⟨validated, h⟩ := (p.within_draw mode selection).value d
    exact ⟨validated, congrArg Program.cache h⟩
  | activate | deactivate => exact ⟨p.cache.validated, rfl⟩

omit [Device σ] in
theorem linked_settled {location : Int} : (p.settled a location).2.linked = p.linked := by
  unfold settled
  split <;> rfl

omit [Device σ] in
theorem linked_learn {name : String} {location : Int} :
    (p.learn name location).linked = p.linked := by
  unfold learn
  split <;> rfl

/-- Whether a program is linked stays the same unless it gets new code. -/
theorem linked_of_not_relinks (h : o.relinks = false) : (o.done p d).after.linked = p.linked := by
  cases o with
  | setShaders => cases h
  | draw mode selection =>
    obtain ⟨validated, hafter⟩ := (p.within_draw mode selection).value d
    have hsame := congrArg Program.linked hafter
    exact hsame
  | activate | deactivate => rfl
  | assign a =>
    obtain ⟨result, asked, missing, uploads, hassigned, hresult, -, -, -⟩ := exists_assigned p a d
    have hafter : ((Operation.assign a).done p d).after = result.2 := congrArg Prod.snd hresult
    rw [hafter]
    cases hassigned with
    | unlinked | invalid => rfl
    | located => exact linked_settled
    | missing => exact linked_learn
    | found => exact linked_settled.trans linked_learn

theorem links_of_not_relinks (h : o.relinks = false) : (o.done p d).links = false := by
  cases o with
  | setShaders => cases h
  | assign | draw | activate | deactivate => rfl

end Links
end DrawStream.Program
