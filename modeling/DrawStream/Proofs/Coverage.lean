import DrawStream.Proofs.Lookups

/-! # Which variables have no value

The active names of a program are those that its last link reported, arrays element by
element.  An assignment that is accepted covers the name it is for, and those of the elements
that get a value, provided the name has a location; nothing else covers anything
(`Done.Covers`).  The unset names are the active names that have not been covered since the
link (`accounted_past`). -/
namespace DrawStream.Program
variable {σ : Type}

/-- What an operation gives a value to, by what has been found of names: an assignment that
has been accepted, of a name that has a location, covers the name and the elements. -/
def Done.Covers (asked : List Query) (e : Done σ) (name : String) : Prop :=
  ∃ a, e.operation = .assign a ∧ e.outcome = .ok () ∧ Located asked a.name ∧ name ∈ a.covers

/-- A name has been given a value. -/
def Covered (since : List (Done σ)) (name : String) : Prop :=
  ∃ e ∈ since, e.Covers (queries since) name

/-- The names that the last successful link reported. -/
def reportedNames (past : List (Done σ)) : List String :=
  (lastLink? past).elim [] fun e => e.reports.flatMap variableNames

/-! ## Names of a cache -/

theorem mem_foldl_insert {names : List String} {name : String} (start : List String) :
    name ∈ names.foldl (fun names name => names.insert name) start ↔
      name ∈ start ∨ name ∈ names := by
  induction names generalizing start with
  | nil => simp
  | cons first rest ih =>
    rw [List.foldl_cons, ih, List.mem_insert_iff, List.mem_cons]
    tauto

/-- The active names are those that reported variables stand for. -/
theorem mem_activeNames {declared : List Variable} {name : String} :
    name ∈ activeNames declared ↔ name ∈ declared.flatMap variableNames := by
  rw [activeNames, mem_foldl_insert]
  simp

section Cache
variable {p : Program} {a : Assignment} {name : String} {location : Int}

theorem active_stored : (p.stored a location).cache.active = p.cache.active := by
  obtain ⟨samplers, attributes, h⟩ := stored_eq p a location
  rw [h]
  rfl

/-- What has been set is no longer unset. -/
theorem mem_unset_stored :
    name ∈ (p.stored a location).cache.unset ↔ name ∈ p.cache.unset ∧ name ∉ a.covers := by
  obtain ⟨samplers, attributes, h⟩ := stored_eq p a location
  rw [h]
  simp [LinkCache.markSet, Assignment.covers]

theorem Known.located_iff {asked : List Query} {c : LinkCache} (h : Known asked c) :
    Located asked name ↔ ∃ location, (name, location) ∈ c.locations := by
  constructor
  · rintro ⟨q, hq, hname, hpos⟩
    exact ⟨q.location, h.mem_locations.mpr ⟨q, hq, hname, rfl, hpos⟩⟩
  · rintro ⟨location, hmem⟩
    obtain ⟨q, hq, hname, rfl, hpos⟩ := h.mem_locations.mp hmem
    exact ⟨q, hq, hname, hpos⟩

theorem Known.not_located {asked : List Query} {c : LinkCache} (h : Known asked c)
    (hinvalid : name ∈ c.invalid) : ¬ Located asked name := by
  intro hlocated
  obtain ⟨location, hmem⟩ := h.located_iff.mp hlocated
  exact h.not_mem_invalid hmem hinvalid

end Cache

/-! ## One operation -/

section Step
variable {asked : List Query} {e : Done σ} {p : Program} {a : Assignment} {name : String}

theorem Done.covers_iff (hoperation : e.operation = .assign a) :
    e.Covers asked name ↔ e.outcome = .ok () ∧ Located asked a.name ∧ name ∈ a.covers := by
  constructor
  · rintro ⟨a', hoperation', hok, hlocated, hname⟩
    cases hoperation.symm.trans hoperation'
    exact ⟨hok, hlocated, hname⟩
  · rintro ⟨hok, hlocated, hname⟩
    exact ⟨a, hoperation, hok, hlocated, hname⟩

/-- An assignment takes what it covers from the unset names, and leaves the active ones. -/
structure Accounts (asked : List Query) (e : Done σ) (p : Program) : Prop where
  active : e.after.cache.active = p.cache.active
  unset : ∀ name, name ∈ e.after.cache.unset ↔ name ∈ p.cache.unset ∧ ¬ e.Covers asked name

/-- An assignment that covers nothing. -/
theorem accounts_of_not (hoperation : e.operation = .assign a)
    (hnot : e.outcome = .ok () → ¬ Located asked a.name)
    (hactive : e.after.cache.active = p.cache.active)
    (hunset : e.after.cache.unset = p.cache.unset) : Accounts asked e p := by
  refine ⟨hactive, fun name => ?_⟩
  rw [hunset, Done.covers_iff hoperation]
  refine ⟨fun hname => ⟨hname, ?_⟩, And.left⟩
  rintro ⟨hok, hlocated, -⟩
  exact hnot hok hlocated

/-- An assignment to a location covers what it is for, unless the value is refused. -/
theorem accounts_settled (hoperation : e.operation = .assign a) (hlocated : Located asked a.name)
    {location : Int} (hresult : (e.outcome, e.after) = p.settled a location) :
    Accounts asked e p := by
  unfold settled at hresult
  split at hresult
  · obtain ⟨houtcome, hafter⟩ := Prod.mk.inj hresult
    refine accounts_of_not hoperation (fun hok => ?_) (by rw [hafter]) (by rw [hafter])
    cases hok.symm.trans houtcome
  · obtain ⟨hok, hafter⟩ := Prod.mk.inj hresult
    refine ⟨hafter ▸ active_stored, fun name => ?_⟩
    rw [hafter, mem_unset_stored, Done.covers_iff hoperation]
    simp [hok, hlocated]

variable [Device σ] {since : List (Done σ)}

/-- **Every assignment accounts for what it covers.** -/
theorem accounts_assign (h : Kept since p.cache) (a : Assignment) (d : σ) :
    Accounts (queries (since ++ [(Operation.assign a).done p d])) ((Operation.assign a).done p d)
      p := by
  have hkept := (h.assign d a).known
  obtain ⟨result, answers, missing, uploads, hassigned, hresult, -, -, -⟩ := exists_assigned p a d
  have hoperation : ((Operation.assign a).done p d).operation = .assign a := rfl
  generalize (Operation.assign a).done p d = e at *
  generalize queries (since ++ [e]) = asked at hkept
  have hafter : e.after = result.2 := congrArg Prod.snd hresult
  rw [hafter] at hkept
  cases hassigned with
  | unlinked hlinked =>
    refine accounts_of_not hoperation (fun hok => ?_) (by rw [hafter]) (by rw [hafter])
    cases hok.symm.trans (congrArg Prod.fst hresult)
  | invalid hlinked hnone hinvalid =>
    exact accounts_of_not hoperation (fun _ => hkept.not_located hinvalid) (by rw [hafter])
      (by rw [hafter])
  | located hlinked location hlookup =>
    refine accounts_settled hoperation (hkept.located_iff.mpr ⟨location, ?_⟩) hresult
    rw [locations_settled]
    exact h.known.lookup_eq_some_iff.mp hlookup
  | missing hlinked hunknown location hlocation hneg =>
    have hinvalid : a.name ∈ (p.learn a.name location).cache.invalid := by
      simp [learn, hneg]
    obtain ⟨locations, invalid, hlearn⟩ := learn_eq p a.name location
    exact accounts_of_not hoperation (fun _ => hkept.not_located hinvalid)
      (by rw [hafter, hlearn]) (by rw [hafter, hlearn])
  | found hlinked hunknown location hlocation hpos =>
    obtain ⟨locations, invalid, hlearn⟩ := learn_eq p a.name location
    have hfound : Located asked a.name := by
      refine hkept.located_iff.mpr ⟨location, ?_⟩
      rw [locations_settled]
      exact learn_found hpos
    have haccounts := accounts_settled hoperation hfound hresult
    rw [hlearn] at haccounts
    exact ⟨haccounts.active, haccounts.unset⟩

end Step

/-! ## After any past -/

/-- What is covered by an assignment stays covered. -/
theorem covered_concat {since : List (Done σ)} {e : Done σ} {name : String}
    (h : ∀ e ∈ since, ∀ a, e.operation = .assign a → e.outcome = .ok () →
      a.name ∈ (queries since).map Query.name)
    (hnodup : ((queries (since ++ [e])).map Query.name).Nodup) :
    Covered (since ++ [e]) name ↔
      Covered since name ∨ e.Covers (queries (since ++ [e])) name := by
  rw [queries_concat] at hnodup ⊢
  -- A name that was asked for before is not asked for again, so its location stays the same.
  have hsame : ∀ e' ∈ since, e'.Covers (queries since ++ e.queries) name ↔
      e'.Covers (queries since) name := by
    intro e' he'
    refine exists_congr fun a => and_congr_right fun hoperation => and_congr_right fun hok => ?_
    refine and_congr_left fun _ => ⟨?_, ?_⟩
    · rintro ⟨q, hq, hname, hpos⟩
      obtain ⟨q', hq', hname'⟩ := List.mem_map.mp (h e' he' a hoperation hok)
      cases List.inj_on_of_nodup_map hnodup hq (List.mem_append_left _ hq')
        (hname.trans hname'.symm)
      exact ⟨q, hq', hname, hpos⟩
    · rintro ⟨q, hq, hrest⟩
      exact ⟨q, List.mem_append_left _ hq, hrest⟩
  simp only [Covered, queries_concat, List.mem_append, List.mem_singleton]
  constructor
  · rintro ⟨e', he' | rfl, hcovers⟩
    · exact .inl ⟨e', he', (hsame e' he').mp hcovers⟩
    · exact .inr hcovers
  · rintro (⟨e', he', hcovers⟩ | hcovers)
    · exact ⟨e', .inl he', (hsame e' he').mpr hcovers⟩
    · exact ⟨e, .inr rfl, hcovers⟩

/-- The accounts of a program: what is active, and what of it has no value. -/
structure Accounted (past : List (Done σ)) (c : LinkCache) : Prop where
  /-- The active names are those that the last successful link reported. -/
  active : ∀ name, name ∈ c.active ↔ name ∈ reportedNames past
  /-- The unset names are the active names that have not been covered since. -/
  unset : ∀ name, name ∈ c.unset ↔
    name ∈ reportedNames past ∧ ¬ Covered (sinceLink past) name

theorem Accounted.link {past : List (Done σ)} {e : Done σ} (hlinks : e.links = true) :
    Accounted (past ++ [e]) (LinkCache.fresh e.reports) := by
  have hnames : reportedNames (past ++ [e]) = e.reports.flatMap variableNames := by
    rw [reportedNames, lastLink?_of_links hlinks]
    rfl
  have hcovered : ∀ name, ¬ Covered (sinceLink (past ++ [e])) name := by
    rw [sinceLink_of_links hlinks]
    rintro name ⟨e', he', -⟩
    cases he'
  refine ⟨fun name => hnames ▸ mem_activeNames, fun name => ?_⟩
  rw [hnames]
  exact mem_activeNames.trans (and_iff_left (hcovered name)).symm

section Past
variable [Device σ]

theorem Accounted.step {past : List (Done σ)} {p : Program} (h : Accounted past p.cache)
    (hkept : Kept (sinceLink past) p.cache) (o : Operation) (d : σ)
    (hlinks : (o.done p d).links = false) :
    Accounted (past ++ [o.done p d]) (o.done p d).after.cache := by
  have hkept' := hkept.done o d
  rw [sinceLink_of_not_links hlinks] at hkept'
  have haccounts : Accounts (queries (sinceLink past ++ [o.done p d])) (o.done p d) p := by
    cases o with
    | assign a => exact accounts_assign hkept a d
    | setShaders | draw | activate | deactivate =>
      obtain ⟨validated, hcache⟩ := cache_of_not_links rfl hlinks
      refine ⟨by rw [hcache], fun name => ?_⟩
      rw [hcache]
      refine (and_iff_left ?_).symm
      rintro ⟨a, hoperation, -⟩
      cases hoperation
  have hnames : reportedNames (past ++ [o.done p d]) = reportedNames past := by
    rw [reportedNames, lastLink?_of_not_links hlinks, reportedNames]
  refine ⟨fun name => ?_, fun name => ?_⟩
  · rw [haccounts.active, hnames]
    exact h.active name
  · rw [haccounts.unset, h.unset, hnames, sinceLink_of_not_links hlinks,
      covered_concat hkept.asked hkept'.known.once, not_or, and_assoc]

/-- The accounts stay right, whatever is done. -/
theorem Accounted.done {past : List (Done σ)} {p : Program} (h : Accounted past p.cache)
    (hkept : Kept (sinceLink past) p.cache) (o : Operation) (d : σ) :
    Accounted (past ++ [o.done p d]) (o.done p d).after.cache := by
  cases hlinks : (o.done p d).links with
  | true =>
    rw [after_of_links hlinks]
    exact .link hlinks
  | false => exact h.step hkept o d hlinks

/-- The accounts of a program are right after any past. -/
theorem accounted_past (handle : Handle) (uses : List (Operation × σ)) :
    Accounted (past { handle } uses) (now { handle } uses).cache ∧
      Kept (sinceLink (past { handle } uses)) (now { handle } uses).cache := by
  refine past_induction (fun past p => Accounted past p.cache ∧
    Kept (sinceLink past) p.cache) ⟨⟨fun _ => Iff.rfl, fun _ => ?_⟩, kept_nil rfl rfl rfl rfl⟩ ?_
    uses
  · exact (and_iff_left_of_imp fun hmem => absurd hmem List.not_mem_nil).symm
  · rintro past p o d ⟨haccounted, hkept⟩
    exact ⟨haccounted.done hkept o d, hkept.done o d⟩

/-- So are they from a link on, whatever the program was before. -/
theorem accounted_past_of_links {p : Program} {o : Operation} {d : σ}
    (hlinks : (o.done p d).links = true) (uses : List (Operation × σ)) :
    Accounted (o.done p d :: (o.done p d).after.past uses) ((o.done p d).after.now uses).cache ∧
      Kept (sinceLink (o.done p d :: (o.done p d).after.past uses))
        ((o.done p d).after.now uses).cache := by
  refine past_induction (fun past q => Accounted (o.done p d :: past) q.cache ∧
    Kept (sinceLink (o.done p d :: past)) q.cache) ⟨?_, ?_⟩ ?_ uses
  · rw [after_of_links hlinks, ← List.nil_append [o.done p d]]
    exact .link hlinks
  · rw [after_of_links hlinks, ← List.nil_append [o.done p d], sinceLink_of_links hlinks]
    exact kept_nil rfl rfl rfl rfl
  · rintro past q o' d' ⟨haccounted, hkept⟩
    exact ⟨haccounted.done hkept o' d', hkept.done o' d'⟩

/-- **The unset names are exactly the active names not covered since the last link**, after
any past of a program, on any devices. -/
theorem unset_iff_not_covered (handle : Handle) (uses : List (Operation × σ)) :
    (now { handle } uses).cache.unset ⊆ (now { handle } uses).cache.active ∧
      Accounted (past { handle } uses) (now { handle } uses).cache := by
  have haccounted := (accounted_past handle uses).1
  refine ⟨fun name hname => ?_, haccounted⟩
  exact (haccounted.active name).mpr ((haccounted.unset name).mp hname).1

end Past
end DrawStream.Program
