import DrawStream.Proofs.LinkCache
import DrawStream.Proofs.Outcomes
import DrawStream.Proofs.Pool

/-! # Names are looked up once

Since its last link a program has asked for certain names, and its cache knows exactly what
the device has said to that (`Known`): the locations, and the names without one.  A name is
asked for only if nothing is known of it, whatever it is asked for as, so it is never asked
for again.  Samplers and attributes are recorded only of names that have been found
(`Grounded`).

All of it holds after every past of a program (`kept_past`), and with it what users can rely
on (`Program.looks_up_once`). -/
namespace DrawStream.Program
variable {σ : Type}

/-! ## What a cache knows -/

/-- A cache knows what has been asked, and nothing else. -/
structure Known (asked : List Query) (c : LinkCache) : Prop where
  /-- Every name is asked for once, whatever it is asked for as. -/
  once : (asked.map Query.name).Nodup
  /-- What was found, the latest first. -/
  locations : c.locations =
    ((asked.filter fun q => 0 ≤ q.location).map fun q => (q.name, q.location)).reverse
  /-- What was not, the latest first. -/
  invalid : c.invalid = ((asked.filter fun q => q.location < 0).map Query.name).reverse

namespace Known
variable {asked : List Query} {c : LinkCache} {name : String} {location : Int}

theorem mem_locations (h : Known asked c) :
    (name, location) ∈ c.locations ↔
      ∃ q ∈ asked, q.name = name ∧ q.location = location ∧ 0 ≤ location := by
  rw [h.locations, List.mem_reverse, List.mem_map]
  constructor
  · rintro ⟨q, hq, heq⟩
    obtain ⟨hmem, hpos⟩ := List.mem_filter.mp hq
    cases heq
    exact ⟨q, hmem, rfl, rfl, of_decide_eq_true hpos⟩
  · rintro ⟨q, hmem, rfl, rfl, hpos⟩
    exact ⟨q, List.mem_filter.mpr ⟨hmem, decide_eq_true hpos⟩, rfl⟩

theorem mem_invalid (h : Known asked c) :
    name ∈ c.invalid ↔ ∃ q ∈ asked, q.name = name ∧ q.location < 0 := by
  rw [h.invalid, List.mem_reverse, List.mem_map]
  simp only [List.mem_filter, decide_eq_true_eq]
  exact exists_congr fun q => and_assoc.trans (and_congr_right fun _ => and_comm)

theorem lookup_eq_some_iff (h : Known asked c) :
    c.locations.lookup name = some location ↔ (name, location) ∈ c.locations := by
  refine lookup_eq_some_iff_mem ?_
  have hnames : c.locations.map Prod.fst =
      ((asked.filter fun q => 0 ≤ q.location).map Query.name).reverse := by
    rw [h.locations, List.map_reverse, List.map_map]
    rfl
  rw [hnames, List.nodup_reverse]
  exact h.once.sublist (List.filter_sublist.map _)

/-- A name of which nothing is known has not been asked for. -/
theorem not_asked {p : Program} (h : Known asked p.cache) (hunknown : p.Unknown name) :
    name ∉ asked.map Query.name := by
  intro hasked
  obtain ⟨q, hq, rfl⟩ := List.mem_map.mp hasked
  by_cases hneg : q.location < 0
  · exact hunknown.2 (h.mem_invalid.mpr ⟨q, hq, rfl, hneg⟩)
  · have hlookup := h.lookup_eq_some_iff.mpr
      (h.mem_locations.mpr ⟨q, hq, rfl, rfl, Int.not_lt.mp hneg⟩)
    rw [hunknown.1] at hlookup
    cases hlookup

/-- A name of which something is known has been asked for. -/
theorem asked_of_known {p : Program} (h : Known asked p.cache) (hknown : ¬ p.Unknown name) :
    name ∈ asked.map Query.name := by
  rw [Unknown, not_and_or, not_not] at hknown
  rcases hknown with hlocation | hinvalid
  · obtain ⟨location, hlookup⟩ := Option.ne_none_iff_exists'.mp hlocation
    obtain ⟨q, hq, hname, -⟩ := h.mem_locations.mp (h.lookup_eq_some_iff.mp hlookup)
    exact List.mem_map.mpr ⟨q, hq, hname⟩
  · obtain ⟨q, hq, hname, -⟩ := h.mem_invalid.mp hinvalid
    exact List.mem_map.mpr ⟨q, hq, hname⟩

/-- No name is known both to have a location and to have none. -/
theorem not_mem_invalid (h : Known asked c) (hmem : (name, location) ∈ c.locations) :
    name ∉ c.invalid := by
  intro hinvalid
  obtain ⟨q, hq, hname, rfl, hpos⟩ := h.mem_locations.mp hmem
  obtain ⟨q', hq', hname', hneg⟩ := h.mem_invalid.mp hinvalid
  have hsame := List.inj_on_of_nodup_map h.once hq hq' (hname.trans hname'.symm)
  rw [hsame] at hpos
  exact absurd hneg (Int.not_lt.mpr hpos)

/-- A cache without a name knows nothing. -/
theorem nil {c : LinkCache} (hlocations : c.locations = []) (hinvalid : c.invalid = []) :
    Known [] c :=
  ⟨List.nodup_nil, hlocations, hinvalid⟩

/-- Only locations and invalid names matter. -/
theorem of_eq {c' : LinkCache} (h : Known asked c) (hlocations : c'.locations = c.locations)
    (hinvalid : c'.invalid = c.invalid) : Known asked c' :=
  ⟨h.once, hlocations.trans h.locations, hinvalid.trans h.invalid⟩

/-- The answer to a question for a name of which nothing was known is remembered. -/
theorem learn {p : Program} (h : Known asked p.cache) (hunknown : p.Unknown name)
    (kind : VariableKind) (location : Int) :
    Known (asked ++ [⟨kind, name, location⟩]) (p.learn name location).cache := by
  refine ⟨?_, ?_, ?_⟩
  · rw [List.map_append]
    refine h.once.append (List.nodup_singleton _) ?_
    exact List.disjoint_singleton.mpr (h.not_asked hunknown)
  · by_cases hneg : location < 0
    · have hpos : ¬ 0 ≤ location := Int.not_le.mpr hneg
      simp [Program.learn, hneg, hpos, h.locations]
    · have hpos : 0 ≤ location := Int.not_lt.mp hneg
      simp [Program.learn, hneg, hpos, h.locations]
  · by_cases hneg : location < 0
    · simp [Program.learn, hneg, h.invalid]
    · simp [Program.learn, hneg, h.invalid]

end Known

/-! ## What is recorded has a location -/

/-- Samplers and attributes have locations. -/
structure Grounded (c : LinkCache) : Prop where
  samplers : ∀ s ∈ c.samplers, ∃ location, (s.name, location) ∈ c.locations
  attributes : ∀ b ∈ c.attributes, (b.name, (b.location : Int)) ∈ c.locations

section Grounded
variable {p : Program} {a : Assignment} {name : String} {location : Int}

/-- Recording a variable changes nothing but samplers and attributes. -/
theorem store_eq (a : Assignment) (location : Int) (c : LinkCache) :
    ∃ samplers attributes, a.store location c = { c with samplers, attributes } := by
  cases a with
  | uniform => exact ⟨_, _, rfl⟩
  | «attribute» name type source =>
    obtain ⟨attributes, h⟩ := LinkCache.record_eq (c := c) ⟨name, location.toNat, type, source⟩
    exact ⟨_, _, h⟩
  | sampler name target texture =>
    obtain ⟨samplers, h⟩ := LinkCache.attach_eq (c := c) name target texture
    exact ⟨_, _, h⟩

theorem stored_eq (p : Program) (a : Assignment) (location : Int) :
    ∃ samplers attributes, p.stored a location =
      { p with cache := { p.cache.markSet a.name a.elements with samplers, attributes } } := by
  obtain ⟨samplers, attributes, h⟩ := store_eq a location (p.cache.markSet a.name a.elements)
  exact ⟨samplers, attributes, by rw [stored, h]⟩

theorem locations_stored : (p.stored a location).cache.locations = p.cache.locations := by
  obtain ⟨samplers, attributes, h⟩ := stored_eq p a location
  rw [h]
  rfl

theorem invalid_stored : (p.stored a location).cache.invalid = p.cache.invalid := by
  obtain ⟨samplers, attributes, h⟩ := stored_eq p a location
  rw [h]
  rfl

theorem locations_settled : (p.settled a location).2.cache.locations = p.cache.locations := by
  unfold settled
  split
  · rfl
  · exact locations_stored

theorem invalid_settled : (p.settled a location).2.cache.invalid = p.cache.invalid := by
  unfold settled
  split
  · rfl
  · exact invalid_stored

theorem mem_locations_learn {e : String × Int} (h : e ∈ p.cache.locations) :
    e ∈ (p.learn name location).cache.locations := by
  unfold learn
  split
  · exact h
  · exact List.mem_cons_of_mem _ h

theorem learn_found (hpos : 0 ≤ location) :
    (name, location) ∈ (p.learn name location).cache.locations := by
  rw [learn, if_neg (Int.not_lt.mpr hpos)]
  exact List.mem_cons_self

/-- Remembering a location changes nothing but locations and invalid names. -/
theorem learn_eq (p : Program) (name : String) (location : Int) : ∃ locations invalid,
    p.learn name location = { p with cache := { p.cache with locations, invalid } } := by
  unfold learn
  split
  · exact ⟨_, _, rfl⟩
  · exact ⟨_, _, rfl⟩

theorem Grounded.learn (h : Grounded p.cache) : Grounded (p.learn name location).cache := by
  obtain ⟨locations, invalid, hlearn⟩ := learn_eq p name location
  have hkept : ∀ e ∈ p.cache.locations, e ∈ (p.learn name location).cache.locations :=
    fun _ => mem_locations_learn
  rw [hlearn] at hkept ⊢
  refine ⟨fun s hs => ?_, fun b hb => hkept _ (h.attributes b hb)⟩
  obtain ⟨location', hmem⟩ := h.samplers s hs
  exact ⟨location', hkept _ hmem⟩

theorem Grounded.stored (h : Grounded p.cache) (hmem : (a.name, location) ∈ p.cache.locations)
    (hpos : 0 ≤ location) : Grounded (p.stored a location).cache := by
  have hlocations : (p.stored a location).cache.locations = p.cache.locations := locations_stored
  refine ⟨fun s hs => ?_, fun b hb => ?_⟩
  · rw [hlocations]
    cases a with
    | uniform => exact h.samplers s hs
    | «attribute» name type source =>
      obtain ⟨attributes, hrecord⟩ := LinkCache.record_eq (c := p.cache.markSet name 0)
        ⟨name, location.toNat, type, source⟩
      exact h.samplers s (congrArg LinkCache.samplers hrecord ▸ hs)
    | sampler name target texture =>
      rcases LinkCache.mem_samplers_attach.mp hs with rfl | ⟨hold, -⟩
      · exact ⟨location, hmem⟩
      · exact h.samplers s hold
  · rw [hlocations]
    cases a with
    | uniform => exact h.attributes b hb
    | «attribute» name type source =>
      rcases LinkCache.mem_attributes_record.mp hb with rfl | ⟨hold, -⟩
      · change (name, (location.toNat : Int)) ∈ p.cache.locations
        rw [Int.toNat_of_nonneg hpos]
        exact hmem
      · exact h.attributes b hold
    | sampler name target texture =>
      obtain ⟨samplers, hattach⟩ := LinkCache.attach_eq (c := p.cache.markSet name 0) name target
        texture
      exact h.attributes b (congrArg LinkCache.attributes hattach ▸ hb)

theorem Grounded.settled (h : Grounded p.cache) (hmem : (a.name, location) ∈ p.cache.locations)
    (hpos : 0 ≤ location) : Grounded (p.settled a location).2.cache := by
  unfold Program.settled
  split
  · exact h
  · exact h.stored hmem hpos

end Grounded

/-! ## After any past -/

/-- What is known of names is kept from the last link on. -/
structure Kept (since : List (Done σ)) (c : LinkCache) : Prop where
  known : Known (queries since) c
  /-- A name that is not found is noted as missing, and no other is. -/
  noted : missings since = ((queries since).filter fun q => q.location < 0).map Query.name
  /-- A variable can be set only after its name has been looked up. -/
  asked : ∀ e ∈ since, ∀ a, e.operation = .assign a → e.outcome = .ok () →
    a.name ∈ (queries since).map Query.name
  grounded : Grounded c

section Kept
variable {since : List (Done σ)} {c c' : LinkCache} {e : Done σ}

theorem kept_nil (hlocations : c.locations = []) (hinvalid : c.invalid = [])
    (hsamplers : c.samplers = []) (hattributes : c.attributes = []) :
    Kept ([] : List (Done σ)) c := by
  refine ⟨.nil hlocations hinvalid, rfl, fun _ he => ?_, ⟨fun s hs => ?_, fun b hb => ?_⟩⟩
  · cases he
  · rw [hsamplers] at hs
    cases hs
  · rw [hattributes] at hb
    cases hb

theorem Kept.concat (h : Kept since c) (hknown : Known (queries since ++ e.queries) c')
    (hnoted : e.missing = (e.queries.filter fun q => q.location < 0).map Query.name)
    (hasked : ∀ a, e.operation = .assign a → e.outcome = .ok () →
      a.name ∈ (queries since ++ e.queries).map Query.name)
    (hgrounded : Grounded c') : Kept (since ++ [e]) c' := by
  refine ⟨?_, ?_, ?_, hgrounded⟩
  · rw [queries_concat]
    exact hknown
  · rw [missings_concat, queries_concat, List.filter_append, List.map_append, h.noted, hnoted]
  · intro e' he' a hoperation hok
    rw [queries_concat]
    rcases List.mem_append.mp he' with hold | hnew
    · rw [List.map_append]
      exact List.mem_append_left _ (h.asked e' hold a hoperation hok)
    · cases List.mem_singleton.mp hnew
      exact hasked a hoperation hok

/-- An operation that asks for nothing. -/
theorem Kept.concat_unasked (h : Kept since c) (hqueries : e.queries = [])
    (hmissing : e.missing = []) (hlocations : c'.locations = c.locations)
    (hinvalid : c'.invalid = c.invalid)
    (hasked : ∀ a, e.operation = .assign a → e.outcome = .ok () →
      a.name ∈ (queries since).map Query.name)
    (hgrounded : Grounded c') : Kept (since ++ [e]) c' := by
  refine h.concat ?_ ?_ ?_ hgrounded
  · rw [hqueries, List.append_nil]
    exact h.known.of_eq hlocations hinvalid
  · rw [hqueries, hmissing]
    rfl
  · rw [hqueries, List.append_nil]
    exact hasked

variable [Device σ] {p : Program} (o : Operation) (d : σ)

/-- Operations that set nothing ask for nothing either. -/
theorem Kept.other (h : Kept since p.cache) (hassign : o.assignment? = none)
    (hlinks : (o.done p d).links = false) :
    Kept (since ++ [o.done p d]) (o.done p d).after.cache := by
  obtain ⟨validated, hcache⟩ := cache_of_not_links hassign hlinks
  rw [hcache]
  refine h.concat_unasked (queries_eq_nil p d o hassign) (missing_eq_nil p d o hassign) rfl rfl ?_
    ⟨h.grounded.samplers, h.grounded.attributes⟩
  rintro a hoperation -
  change o = .assign a at hoperation
  rw [hoperation] at hassign
  cases hassign

theorem Kept.assign (h : Kept since p.cache) (a : Assignment) :
    Kept (since ++ [(Operation.assign a).done p d])
      ((Operation.assign a).done p d).after.cache := by
  obtain ⟨result, asked, missing, uploads, hassigned, hresult, hqueries, hmissing, -⟩ :=
    exists_assigned p a d
  have hoperation : ((Operation.assign a).done p d).operation = .assign a := rfl
  generalize (Operation.assign a).done p d = e at *
  have hafter : e.after = result.2 := congrArg Prod.snd hresult
  have honly {names : List String} (hname : a.name ∈ names) (a' : Assignment)
      (hoperation' : e.operation = .assign a') (_ : e.outcome = .ok ()) : a'.name ∈ names := by
    cases hoperation.symm.trans hoperation'
    exact hname
  rw [hafter]
  cases hassigned with
  | unlinked hlinked =>
    refine h.concat_unasked hqueries hmissing rfl rfl ?_ h.grounded
    intro _ _ hok
    cases hok.symm.trans (congrArg Prod.fst hresult)
  | invalid hlinked hnone hinvalid =>
    obtain ⟨q, hq, hname, -⟩ := h.known.mem_invalid.mp hinvalid
    exact h.concat_unasked hqueries hmissing rfl rfl
      (honly (List.mem_map.mpr ⟨q, hq, hname⟩)) h.grounded
  | located hlinked location hlookup =>
    have hmem := h.known.lookup_eq_some_iff.mp hlookup
    obtain ⟨q, hq, hname, -, hpos⟩ := h.known.mem_locations.mp hmem
    exact h.concat_unasked hqueries hmissing locations_settled invalid_settled
      (honly (List.mem_map.mpr ⟨q, hq, hname⟩)) (h.grounded.settled hmem hpos)
  | missing hlinked hunknown location hlocation hneg =>
    refine h.concat ?_ ?_ (honly ?_) h.grounded.learn
    · rw [hqueries]
      exact h.known.learn hunknown a.kind location
    · rw [hqueries, hmissing]
      simp [hneg]
    · simp [hqueries]
  | found hlinked hunknown location hlocation hpos =>
    refine h.concat ?_ ?_ (honly ?_) (h.grounded.learn.settled (learn_found hpos) hpos)
    · rw [hqueries]
      exact (h.known.learn hunknown a.kind location).of_eq locations_settled invalid_settled
    · rw [hqueries, hmissing]
      simp [Int.not_lt.mpr hpos]
    · simp [hqueries]

/-- Nothing that is done with a program makes it forget, except for a new link. -/
theorem Kept.done {past : List (Done σ)} (h : Kept (sinceLink past) p.cache) :
    Kept (sinceLink (past ++ [o.done p d])) (o.done p d).after.cache := by
  cases hlinks : (o.done p d).links with
  | true =>
    rw [sinceLink_of_links hlinks, after_of_links hlinks]
    exact kept_nil rfl rfl rfl rfl
  | false =>
    rw [sinceLink_of_not_links hlinks]
    cases o with
    | assign a => exact h.assign d a
    | setShaders | draw | activate | deactivate => exact h.other _ d rfl hlinks

/-- **A program keeps what it has learnt of names since its last link**, after any past. -/
theorem kept_past (handle : Handle) (uses : List (Operation × σ)) :
    Kept (sinceLink (past { handle } uses)) (now { handle } uses).cache :=
  past_induction (fun past p => Kept (sinceLink past) p.cache)
    (kept_nil rfl rfl rfl rfl) (fun _ _ o d h => h.done o d) uses

end Kept

/-! ## What can be relied on -/

/-- What a program and its past have to do with names. -/
structure LooksUpOnce [Device σ] (past : List (Done σ)) (p : Program) : Prop where
  /-- Since the last link no name has been looked up twice, whatever it was looked up as. -/
  once : ∀ name, (lookups (sinceLink past)).count name ≤ 1
  /-- Nothing but an assignment has ever looked a name up. -/
  only : ∀ e ∈ past, e.operation.assignment? = none → e.lookups = []
  /-- The invalid names are those that turned out to have no location. -/
  invalid : ∀ name, name ∈ p.cache.invalid ↔
    ∃ q ∈ queries (sinceLink past), q.name = name ∧ q.location < 0
  /-- No name has been noted as missing twice, and none that is not invalid. -/
  noted : ∀ name, (missings (sinceLink past)).count name = if name ∈ p.cache.invalid then 1 else 0
  /-- Setting an invalid name of a linked program does nothing at all. -/
  silent : p.linked = true → ∀ a : Assignment, a.name ∈ p.cache.invalid → ∀ d : σ,
    (a.perform p).run d = ⟨(.ok (), p), d, []⟩
  /-- Locations are never negative, and no invalid name has one. -/
  located : ∀ name location, (name, location) ∈ p.cache.locations →
    0 ≤ location ∧ name ∉ p.cache.invalid
  /-- A sampler has a location. -/
  samplers : ∀ s ∈ p.cache.samplers, ∃ location, p.cache.locations.lookup s.name = some location
  /-- An attribute has a location, and that is the one it is recorded at. -/
  attributes : ∀ b ∈ p.cache.attributes,
    p.cache.locations.lookup b.name = some (b.location : Int)

/-- **Names are looked up once per link**: whatever has been done with a program, on any
devices, it has asked at most once for every name since its last link, it remembers the
answers, and it does nothing more about names that have no location. -/
theorem looks_up_once [Device σ] (handle : Handle) (uses : List (Operation × σ)) :
    LooksUpOnce (past { handle } uses) (now { handle } uses) := by
  have h := kept_past handle uses
  have hmissing : (missings (sinceLink (past { handle } uses))).Nodup := by
    rw [h.noted]
    exact h.known.once.sublist (List.filter_sublist.map _)
  have hmem : ∀ name, name ∈ missings (sinceLink (past { handle } uses)) ↔
      name ∈ (now { handle } uses).cache.invalid := by
    intro name
    rw [h.noted, h.known.invalid, List.mem_reverse]
  refine ⟨?_, ?_, fun _ => h.known.mem_invalid, ?_, ?_, ?_, ?_, ?_⟩
  · rw [lookups_eq_queries fun _ => mem_of_mem_sinceLink]
    exact List.nodup_iff_count_le_one.mp h.known.once
  · intro e he hassign
    obtain ⟨p, o, d, rfl⟩ := exists_of_mem_past he
    rw [lookups_done, queries_eq_nil p d o hassign]
    rfl
  · intro name
    rw [hmissing.count]
    exact if_congr (hmem name) rfl rfl
  · intro hlinked a hinvalid d
    have hnone : (now { handle } uses).cache.locations.lookup a.name = none := by
      cases hlookup : (now { handle } uses).cache.locations.lookup a.name with
      | none => rfl
      | some location =>
        exact absurd hinvalid (h.known.not_mem_invalid (h.known.lookup_eq_some_iff.mp hlookup))
    rw [perform_eq_assign, assign_of_invalid hlinked hnone hinvalid]
    rfl
  · intro name location hlocation
    obtain ⟨q, -, -, -, hpos⟩ := h.known.mem_locations.mp hlocation
    exact ⟨hpos, h.known.not_mem_invalid hlocation⟩
  · intro s hs
    obtain ⟨location, hlocation⟩ := h.grounded.samplers s hs
    exact ⟨location, h.known.lookup_eq_some_iff.mpr hlocation⟩
  · exact fun b hb => h.known.lookup_eq_some_iff.mpr (h.grounded.attributes b hb)

end DrawStream.Program
