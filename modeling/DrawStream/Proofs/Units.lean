import DrawStream.Proofs.Refusals
import DrawStream.Proofs.Sources

/-! # The texture units of a program

A sampler that gets its first texture takes the unit after the last one in use, which is the
number of samplers there are.  That gives every sampler a unit of its own only because samplers
are never taken away and a texture in place of an earlier one takes no new unit.  So the units
are told by the past: the samplers stand in the order in which they were first attached since
the last link, and the unit of a name is its place in that order (`Program.units_in_order`). -/
namespace DrawStream

namespace LinkCache
variable {c : LinkCache} {name : String}

/-- Where units are counted from a first one, the unit of a name is its place among the names. -/
theorem unit_eq_idxOf? {samplers : List Sampler} {first : Nat}
    (h : samplers.map (·.unit) = List.range' first samplers.length) :
    (samplers.find? (·.name == name)).map (·.unit) =
      ((samplers.map (·.name)).idxOf? name).map (· + first) := by
  induction samplers generalizing first with
  | nil => rfl
  | cons s rest ih =>
    rw [List.map_cons, List.length_cons, List.range'_succ, List.cons.injEq] at h
    obtain ⟨rfl, hrest⟩ := h
    rw [List.map_cons, List.idxOf?_cons, List.find?_cons]
    cases hname : s.name == name with
    | true => simp
    | false =>
      simp only [Bool.false_eq_true, if_false, ih hrest, Option.map_map]
      congr 1
      funext place
      simp only [Function.comp_apply]
      omega

theorem Coherent.unit?_eq (h : c.Coherent) (name : String) :
    c.unit? name = (c.samplers.map (·.name)).idxOf? name := by
  have hunits := h.units
  rw [List.range_eq_range'] at hunits
  rw [unit?, unit_eq_idxOf? hunits]
  simp

/-- A texture for a new sampler adds its name at the end, and another texture no name. -/
theorem names_attach (target : Nat) (texture : Handle) :
    (c.attach name target texture).samplers.map (·.name) =
      if name ∈ c.samplers.map (·.name) then c.samplers.map (·.name)
      else c.samplers.map (·.name) ++ [name] := by
  unfold attach
  cases hunit : c.unit? name with
  | none =>
    have hnew : name ∉ c.samplers.map (·.name) := by simpa using unit?_eq_none hunit
    rw [if_neg hnew, List.map_append]
    rfl
  | some unit =>
    obtain ⟨s, hs, hname, -⟩ := unit?_eq_some hunit
    rw [if_pos (hname ▸ List.mem_map_of_mem hs)]
    exact map_name_replace Sampler.name ⟨name, target, texture, unit⟩ c.samplers

end LinkCache

namespace Program
variable {σ : Type}

/-! ## Which names have been attached -/

/-- The name of a sampler that an operation attaches a texture to, if its name has a location. -/
def Done.attached? (asked : List Query) (e : Done σ) : Option String :=
  match e.operation, e.outcome with
  | .assign (.sampler name _ _), .ok () => (locationIn? asked name).map fun _ => name
  | _, _ => none

/-- The names that textures have been attached to, in the order of the first texture of each. -/
def attachedNames (dones : List (Done σ)) : List String :=
  (dones.filterMap (Done.attached? (queries dones))).eraseDups

/-- Names, with a new one at the end if it is not among them. -/
def withName (names : List String) : Option String → List String
  | none => names
  | some name => if name ∈ names then names else names ++ [name]

theorem eraseDups_concat (names : List String) (name : String) :
    (names ++ [name]).eraseDups =
      if name ∈ names.eraseDups then names.eraseDups else names.eraseDups ++ [name] := by
  have hmem : name ∈ names.eraseDups ↔ name ∈ names := List.mem_eraseDups
  rw [List.eraseDups_append, List.removeAll]
  by_cases hold : name ∈ names
  · simp [hold]
  · simp [hold, List.eraseDups_cons]

/-- A name keeps its place when another is added. -/
theorem idxOf?_withName {names : List String} {name : String} {place : Nat}
    (h : names.idxOf? name = some place) (new : Option String) :
    (withName names new).idxOf? name = some place := by
  cases new with
  | none => exact h
  | some added =>
    by_cases hold : added ∈ names
    · rw [withName, if_pos hold]
      exact h
    · rw [withName, if_neg hold, List.idxOf?, List.findIdx?_append]
      rw [List.idxOf?] at h
      rw [h]
      rfl

section Attached
variable {since : List (Done σ)} {e : Done σ} {c c' : LinkCache}

/-- What is asked later has no part in what was attached before. -/
theorem attachedNames_concat (h : Kept since c) (h' : Kept (since ++ [e]) c') :
    attachedNames (since ++ [e]) =
      withName (attachedNames since) (e.attached? (queries (since ++ [e]))) := by
  have hbefore : since.filterMap (Done.attached? (queries (since ++ [e]))) =
      since.filterMap (Done.attached? (queries since)) := by
    refine List.filterMap_congr fun e' he' => ?_
    unfold Done.attached?
    split
    · next name target texture hoperation hok =>
      rw [show locationIn? (queries (since ++ [e])) name = locationIn? (queries since) name from
        locationIn?_concat h h' he' hoperation hok]
    · rfl
  rw [attachedNames, List.filterMap_append, hbefore]
  cases hattached : e.attached? (queries (since ++ [e])) with
  | none =>
    simp only [List.filterMap_cons, hattached, List.filterMap_nil, List.append_nil]
    rfl
  | some name =>
    simp only [List.filterMap_cons, hattached, List.filterMap_nil]
    exact eraseDups_concat _ name

variable {asked : List Query} {a : Assignment}

/-- Nothing is attached to a name without a location. -/
theorem attached?_of_absent (hoperation : e.operation = .assign a)
    (hlocation : locationIn? asked a.name = none) : e.attached? asked = none := by
  unfold Done.attached?
  split
  · next name target texture hsampler hok =>
    cases hoperation.symm.trans hsampler
    rw [show locationIn? asked name = none from hlocation]
    rfl
  · rfl

/-- Nothing is attached by an operation that fails. -/
theorem attached?_of_error {failure : Failure} (houtcome : e.outcome = .error failure) :
    e.attached? asked = none := by
  simp [Done.attached?, houtcome]

/-- A name is added to those of the samplers just if a texture has been attached to it. -/
theorem names_settled {p : Program} {location : Int} (hoperation : e.operation = .assign a)
    (houtcome : e.outcome = (p.settled a location).1)
    (hlocation : locationIn? asked a.name = some location) :
    (p.settled a location).2.cache.samplers.map (·.name) =
      withName (p.cache.samplers.map (·.name)) (e.attached? asked) := by
  have hother (h : ∀ name target texture, a ≠ .sampler name target texture) :
      e.attached? asked = none := by
    unfold Done.attached?
    split
    · next name target texture hsampler hok =>
      cases hoperation.symm.trans hsampler
      exact absurd rfl (h name target texture)
    · rfl
  unfold settled at houtcome ⊢
  cases a with
  | uniform name type value =>
    rw [hother (by simp)]
    split <;> rfl
  | «attribute» name type source =>
    rw [hother (by simp)]
    split
    · rfl
    · obtain ⟨attributes, hrecord⟩ := LinkCache.record_eq (c := p.cache.markSet name 0)
        ⟨name, location.toNat, type, source⟩
      exact congrArg (fun c => c.samplers.map (·.name)) hrecord
  | sampler name target texture =>
    have hok : e.outcome = .ok () := houtcome
    have hattached : e.attached? asked = some name := by
      simp only [Done.attached?, hoperation, hok]
      rw [show locationIn? asked name = some location from hlocation]
      rfl
    rw [hattached]
    exact LinkCache.names_attach (c := p.cache.markSet name 0) target texture

theorem coherent_settled {p : Program} {location : Int} (h : p.cache.Coherent) :
    (p.settled a location).2.cache.Coherent := by
  unfold settled
  split
  · exact h
  · have hmarked : (p.cache.markSet a.name a.elements).Coherent := h.of_eq rfl rfl
    cases a with
    | uniform => exact hmarked
    | «attribute» => exact hmarked.record
    | sampler => exact hmarked.attach

/-- The samplers stand in the order in which textures were first attached to them. -/
structure InOrder (since : List (Done σ)) (c : LinkCache) : Prop where
  coherent : c.Coherent
  names : c.samplers.map (·.name) = attachedNames since

theorem InOrder.unit?_eq (h : InOrder since c) (name : String) :
    c.unit? name = (attachedNames since).idxOf? name := by
  rw [h.coherent.unit?_eq, h.names]

variable [Device σ] {p : Program}

theorem InOrder.assign (hkept : Kept since p.cache) (h : InOrder since p.cache) (a : Assignment)
    (d : σ) : InOrder (since ++ [(Operation.assign a).done p d])
      ((Operation.assign a).done p d).after.cache := by
  have hkept' := hkept.assign d a
  have hoperation : ((Operation.assign a).done p d).operation = .assign a := rfl
  have hsettles := settles_assign (p := p) a d
  generalize (Operation.assign a).done p d = e at *
  have hlocation := hkept'.known.locationIn?_eq a.name
  have hnames := attachedNames_concat hkept hkept'
  -- Either the operation comes to nothing, or it finds a location, with the samplers as they were.
  rcases hsettles with ⟨hidle, hsamplers, hattributes⟩ |
    ⟨q, location, hsamplers, hattributes, houtcome, hafter, hlookup⟩
  · have hnone : e.attached? (queries (since ++ [e])) = none := by
      rcases hidle with ⟨failure, houtcome⟩ | hnone
      · exact attached?_of_error houtcome
      · exact attached?_of_absent hoperation (hlocation.trans hnone)
    refine ⟨h.coherent.of_eq hsamplers hattributes, ?_⟩
    rw [hsamplers, hnames, hnone]
    exact h.names
  · have hq : q.cache.Coherent := h.coherent.of_eq hsamplers hattributes
    have hsettled := names_settled hoperation houtcome (hlocation.trans hlookup)
    refine ⟨?_, ?_⟩
    · rw [hafter]
      exact coherent_settled hq
    · rw [hafter, hsettled, hsamplers, h.names, hnames]

theorem InOrder.done {past : List (Done σ)} (hkept : Kept (sinceLink past) p.cache)
    (h : InOrder (sinceLink past) p.cache) (o : Operation) (d : σ) :
    InOrder (sinceLink (past ++ [o.done p d])) (o.done p d).after.cache := by
  cases hlinks : (o.done p d).links with
  | true =>
    rw [sinceLink_of_links hlinks, after_of_links hlinks]
    exact ⟨LinkCache.coherent_fresh _, rfl⟩
  | false =>
    have hkept' := hkept.done (o := o) (d := d)
    rw [sinceLink_of_not_links hlinks] at hkept' ⊢
    cases o with
    | assign a => exact h.assign hkept a d
    | setShaders | draw | activate | deactivate =>
      obtain ⟨validated, hcache⟩ := cache_of_not_links rfl hlinks
      have hnames := attachedNames_concat hkept hkept'
      rw [hcache]
      exact ⟨h.coherent.of_eq rfl rfl, h.names.trans hnames.symm⟩

theorem inOrder_past (handle : Handle) (uses : List (Operation × σ)) :
    Kept (sinceLink (past { handle } uses)) (now { handle } uses).cache ∧
      InOrder (sinceLink (past { handle } uses)) (now { handle } uses).cache :=
  past_induction (p := { handle })
    (fun past p => Kept (sinceLink past) p.cache ∧ InOrder (sinceLink past) p.cache)
    ⟨kept_nil rfl rfl rfl rfl, LinkCache.coherent_fresh [], rfl⟩
    (fun _ _ o d h => ⟨h.1.done o d, h.2.done h.1 o d⟩) uses

end Attached

/-! ## What the device is told -/

section Told
variable [Device σ] {p : Program} {d : σ} {location : Int}

/-- If a variable turns out to have a location, its value is looked at after nothing but the
question for it, if that was asked at all. -/
theorem run_assign_of_lookup {a : Assignment} (hok : ((p.assign a).run d).value.1 = .ok ())
    (hlocation : ((p.assign a).run d).value.2.cache.locations.lookup a.name = some location) :
    ∃ (q : Program) (left : σ), q.handle = p.handle ∧
      ((p.assign a).run d).value = q.settled a location ∧
      ((p.assign a).run d).events =
        ((p.assign a).gather Request.query? d).map
            (fun asked => .call (asked.kind.lookupCall asked.name)) ++
          ((q.settle a location).run left).events := by
  -- The location is known, or it is known that there is none, or the device is asked for it.
  by_cases hlinked : p.linked = true
  · cases hlookup : p.cache.locations.lookup a.name with
    | some known =>
      rw [assign_of_located hlinked hlookup, value_settle] at hlocation
      rw [locations_settled, hlookup] at hlocation
      cases hlocation
      rw [assign_of_located hlinked hlookup, value_settle, (asks_nothing_settle ..).1]
      exact ⟨p, d, rfl, rfl, rfl⟩
    | none =>
      by_cases hinvalid : a.name ∈ p.cache.invalid
      · rw [assign_of_invalid hlinked hlookup hinvalid] at hlocation
        cases hlookup.symm.trans hlocation
      · rw [assign_of_unknown hlinked ⟨hlookup, hinvalid⟩, Script.run_bind] at hok hlocation
        rw [assign_of_unknown hlinked ⟨hlookup, hinvalid⟩, Script.run_bind, Script.gather_bind,
          Script.gather_request, query?_locationRequest, run_locationRequest]
        rw [run_locationRequest] at hlocation
        generalize Device.answer (p.locationRequest a.kind a.name) d = told at *
        by_cases hneg : told.1 < 0
        · rw [if_pos hneg] at hlocation
          change (p.learn a.name told.1).cache.locations.lookup a.name = _ at hlocation
          rw [learn, if_pos hneg] at hlocation
          cases hlookup.symm.trans hlocation
        · rw [if_neg hneg, value_settle, locations_settled, learn, if_neg hneg] at hlocation
          cases List.lookup_cons_self.symm.trans hlocation
          rw [if_neg hneg, value_settle, (asks_nothing_settle ..).1]
          refine ⟨p.learn a.name told.1, told.2, ?_, rfl, rfl⟩
          exact handle_learn ..
  · rw [assign_of_unlinked (by simpa using hlinked)] at hok
    cases hok

variable {name : String} {target : Nat} {texture : Handle}

/-- A texture that is attached is told to the device as the unit of the sampler. -/
theorem events_settle_sampler :
    ((p.settle (.sampler name target texture) location).run d).events =
      [.call (.useProgram p.handle),
        .call (.uniformInt location (p.cache.attachedUnit name : Nat))] := by
  have hunit : (p.stored (.sampler name target texture) location).cache.unit? name =
      some (p.cache.attachedUnit name) := LinkCache.unit?_attach
  simp only [settle, Assignment.refusal?, Assignment.send, hunit]
  rfl

/-- Attaching a texture to a sampler that has a location tells the device its unit, after making
the program current; before that, nothing is asked but the location. -/
theorem told_unit {e : Done σ}
    (he : e = (Operation.assign (.sampler name target texture)).done p d)
    (hok : e.outcome = .ok ()) (hlocation : e.after.cache.locations.lookup name = some location) :
    ∃ unit : Nat, e.after.cache.unit? name = some unit ∧
      e.events = e.queries.map (fun asked => .call (asked.kind.lookupCall asked.name)) ++
        [.call (.useProgram p.handle), .call (.uniformInt location unit)] := by
  subst he
  have hassign := perform_eq_assign p (.sampler name target texture)
  simp only [Operation.done, Operation.perform, hassign] at hok hlocation ⊢
  obtain ⟨q, left, hhandle, hvalue, hevents⟩ := run_assign_of_lookup hok hlocation
  refine ⟨q.cache.attachedUnit name, ?_, ?_⟩
  · rw [hvalue]
    exact LinkCache.unit?_attach
  · rw [hevents, events_settle_sampler, hhandle]

end Told

/-! ## What can be relied on -/

/-- What the units of a program have to do with its past. -/
structure UnitsInOrder [Device σ] (past : List (Done σ)) (p : Program) : Prop where
  /-- The samplers are the names that textures have been attached to since the last link, in the
  order of the first texture of each. -/
  names : p.cache.samplers.map (·.name) = attachedNames (sinceLink past)
  /-- Their units are those from 0 on, each once. -/
  units : p.cache.samplers.map (·.unit) = List.range p.cache.samplers.length
  /-- The unit of a name is its place in that order, and no other name has one. -/
  place : ∀ name, p.cache.unit? name = (attachedNames (sinceLink past)).idxOf? name
  /-- Nothing but a link that succeeds changes or takes away the unit of a name. -/
  kept : ∀ (o : Operation) (d : σ), (o.done p d).links = false → ∀ name unit,
    p.cache.unit? name = some unit → (o.done p d).after.cache.unit? name = some unit
  /-- A texture for a name with a location makes the program current and, directly after that,
  uploads the unit of the name there.  Otherwise the device is at most asked for the location. -/
  told : ∀ name target texture (d : σ) (e : Done σ),
    e = (Operation.assign (.sampler name target texture)).done p d → e.outcome = .ok () →
    ∀ location, e.after.cache.locations.lookup name = some location →
      ∃ unit : Nat, e.after.cache.unit? name = some unit ∧
        e.events = e.queries.map (fun asked => .call (asked.kind.lookupCall asked.name)) ++
          [.call (.useProgram p.handle), .call (.uniformInt location unit)]

/-- **Texture units are given out in order and kept**: whatever has been done with a program, on
any devices, its samplers have the units from 0 on in the order in which they were first given
a texture since the last link, and every texture tells the device that unit. -/
theorem units_in_order [Device σ] (handle : Handle) (uses : List (Operation × σ)) :
    UnitsInOrder (past { handle } uses) (now { handle } uses) := by
  obtain ⟨hkept, horder⟩ := inOrder_past handle uses
  refine ⟨horder.names, horder.coherent.units, horder.unit?_eq, ?_, ?_⟩
  · intro o d hlinks name unit hunit
    have hkept' := hkept.done o d
    have horder' := horder.done hkept o d
    rw [sinceLink_of_not_links hlinks] at hkept' horder'
    rw [horder.unit?_eq] at hunit
    rw [horder'.unit?_eq, attachedNames_concat hkept hkept']
    exact idxOf?_withName hunit _
  · intro name target texture d e he hok location hlocation
    exact told_unit he hok hlocation

end Program
end DrawStream
