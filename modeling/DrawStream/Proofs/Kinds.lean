import DrawStream.Proofs.Resolution

/-! # Names that are set as variables of different kinds

A program keeps one location per name, whatever the name was looked up as.  So a name is set
as what it resolves to as a variable of the kind as which it was set first since the last
link (`follows_first_kind`).  As long as a name is set as one kind only, that is its own kind;
a name that has first been set as the other kind is set at the wrong place or nowhere. -/
namespace DrawStream.Program

/-! ## The kind as which a name is set first -/

/-- The kind as which a name was set first. -/
def firstKind? {σ : Type} (since : List (Done σ)) (name : String) : Option VariableKind :=
  since.findSome? fun e => e.operation.assignment?.bind fun a =>
    if a.name = name then some a.kind else none

/-- Names have been asked for as what they were set as first. -/
structure FirstAsked {σ : Type} (since : List (Done σ)) : Prop where
  asked : ∀ name kind, firstKind? since name = some kind →
    ∃ location, ⟨kind, name, location⟩ ∈ queries since
  unasked : ∀ name, firstKind? since name = none → name ∉ (queries since).map Query.name

section FirstAsked
variable {σ : Type} {since : List (Done σ)} {e : Done σ} {a : Assignment}

theorem firstKind?_concat (hoperation : e.operation.assignment? = some a) (name : String) :
    firstKind? (since ++ [e]) name =
      (firstKind? since name).or (if a.name = name then some a.kind else none) := by
  simp [firstKind?, List.findSome?_append, hoperation]

theorem firstKind?_concat_other (hoperation : e.operation.assignment? = none) (name : String) :
    firstKind? (since ++ [e]) name = firstKind? since name := by
  simp [firstKind?, List.findSome?_append, hoperation]

/-- A name that has been asked for has been set. -/
theorem FirstAsked.exists_firstKind (h : FirstAsked since) {name : String}
    (hasked : name ∈ (queries since).map Query.name) :
    ∃ kind location, firstKind? since name = some kind ∧
      ⟨kind, name, location⟩ ∈ queries since := by
  cases hfirst : firstKind? since name with
  | none => exact absurd hasked (h.unasked name hfirst)
  | some kind =>
    obtain ⟨location, hq⟩ := h.asked name kind hfirst
    exact ⟨kind, location, rfl, hq⟩

/-- A name that has not been asked for has not been set. -/
theorem FirstAsked.firstKind_eq_none (h : FirstAsked since) {name : String}
    (hnew : name ∉ (queries since).map Query.name) : firstKind? since name = none := by
  cases hfirst : firstKind? since name with
  | none => rfl
  | some kind =>
    obtain ⟨location, hq⟩ := h.asked name kind hfirst
    exact absurd (List.mem_map_of_mem hq) hnew

theorem FirstAsked.known (h : FirstAsked since) (hoperation : e.operation.assignment? = some a)
    (hqueries : e.queries = []) (hasked : a.name ∈ (queries since).map Query.name) :
    FirstAsked (since ++ [e]) := by
  have hkinds : ∀ name, firstKind? (since ++ [e]) name = firstKind? since name := by
    intro name
    rw [firstKind?_concat hoperation]
    split
    · next heq =>
      obtain ⟨kind, location, hfirst, -⟩ := h.exists_firstKind hasked
      rw [← heq, hfirst, Option.some_or]
    · exact Option.or_none
  have hsame : queries (since ++ [e]) = queries since := by
    rw [queries_concat, hqueries, List.append_nil]
  refine ⟨fun name kind hkind => ?_, fun name hkind => ?_⟩
  · rw [hsame]
    exact h.asked name kind (hkinds name ▸ hkind)
  · rw [hsame]
    exact h.unasked name (hkinds name ▸ hkind)

theorem FirstAsked.new (h : FirstAsked since) (hoperation : e.operation.assignment? = some a)
    {location : Int} (hqueries : e.queries = [⟨a.kind, a.name, location⟩])
    (hnew : a.name ∉ (queries since).map Query.name) : FirstAsked (since ++ [e]) := by
  have hnone := h.firstKind_eq_none hnew
  refine ⟨fun name kind hkind => ?_, fun name hkind => ?_⟩
  · rw [queries_concat, hqueries]
    rw [firstKind?_concat hoperation] at hkind
    by_cases heq : a.name = name
    · subst heq
      rw [hnone, if_pos rfl, Option.none_or] at hkind
      cases hkind
      exact ⟨location, List.mem_append_right _ List.mem_cons_self⟩
    · rw [if_neg heq, Option.or_none] at hkind
      obtain ⟨location', hq⟩ := h.asked name kind hkind
      exact ⟨location', List.mem_append_left _ hq⟩
  · rw [queries_concat, hqueries, List.map_append, List.mem_append]
    rw [firstKind?_concat hoperation, Option.or_eq_none_iff] at hkind
    have hne : a.name ≠ name := by
      rintro heq
      rw [if_pos heq] at hkind
      cases hkind.2
    rintro (hold | hlast)
    · exact h.unasked name hkind.1 hold
    · exact hne (List.mem_singleton.mp hlast).symm

theorem FirstAsked.other (h : FirstAsked since) (hoperation : e.operation.assignment? = none)
    (hqueries : e.queries = []) : FirstAsked (since ++ [e]) := by
  have hsame : queries (since ++ [e]) = queries since := by
    rw [queries_concat, hqueries, List.append_nil]
  refine ⟨fun name kind hkind => ?_, fun name hkind => ?_⟩
  · rw [hsame]
    exact h.asked name kind (firstKind?_concat_other hoperation name ▸ hkind)
  · rw [hsame]
    exact h.unasked name (firstKind?_concat_other hoperation name ▸ hkind)

variable [Device σ] {p : Program}

/-- Only a link makes a program linked. -/
theorem linked_of_not_links {o : Operation} {d : σ} (hlinks : (o.done p d).links = false)
    (hlinked : (o.done p d).after.linked = true) : p.linked = true := by
  cases o with
  | setShaders vertex fragment =>
    rcases done_setShaders p d vertex fragment with ⟨failure, -, hafter⟩ | ⟨hok, -⟩
    · rw [hafter] at hlinked
      cases hlinked
    · rw [Done.links, hok] at hlinks
      cases hlinks
  | assign | draw | activate | deactivate => exact (linked_of_not_relinks rfl).symm.trans hlinked

/-- Names of a linked program have been asked for as what they were set as first. -/
theorem firstAsked_past (handle : Handle) (uses : List (Operation × σ)) :
    (now { handle } uses).linked = true → FirstAsked (sinceLink (past { handle } uses)) := by
  have hnil : FirstAsked ([] : List (Done σ)) := by
    refine ⟨fun _ _ hkind => ?_, fun _ _ => List.not_mem_nil⟩
    cases hkind
  suffices Kept (sinceLink (past { handle } uses)) (now { handle } uses).cache ∧
      ((now { handle } uses).linked = true → FirstAsked (sinceLink (past { handle } uses))) from
    this.2
  refine past_induction (p := { handle }) (fun past p => Kept (sinceLink past) p.cache ∧
    (p.linked = true → FirstAsked (sinceLink past)))
    ⟨kept_nil rfl rfl rfl rfl, fun _ => hnil⟩ ?_ uses
  rintro past p o d ⟨hkept, hfirst⟩
  refine ⟨hkept.done o d, fun hafter => ?_⟩
  cases hlinks : (o.done p d).links with
  | true =>
    rw [sinceLink_of_links hlinks]
    exact hnil
  | false =>
    have hlinked := linked_of_not_links hlinks hafter
    specialize hfirst hlinked
    rw [sinceLink_of_not_links hlinks]
    cases o with
    | setShaders | draw | activate | deactivate =>
      exact hfirst.other rfl (queries_eq_nil p d _ rfl)
    | assign a =>
      rcases queries_assign p a d with ⟨hknown, hnone⟩ | ⟨-, hunknown, hqueries⟩
      · exact hfirst.known rfl hnone (hkept.known.asked_of_known (hknown hlinked))
      · exact hfirst.new rfl hqueries (hkept.known.not_asked hunknown)

end FirstAsked

/-! ## What an assignment comes to -/

/-- An assignment does what it should for a variable at a location: the source of an attribute
is recorded there and nowhere else, the value of a uniform or the unit of a sampler is
uploaded there, and if there is no location nothing is recorded or uploaded. -/
def Done.Follows {σ : Type} (e : Done σ) (location : Int) : Assignment → Prop
  | .attribute name type source => ∀ b,
    b ∈ e.after.cache.attributes ∧ b.name = name ↔
      0 ≤ location ∧ b = ⟨name, location.toNat, type, source⟩
  | .uniform .. | .sampler .. => e.uploads = if 0 ≤ location then [location] else []

section Follows
variable {σ : Type} {e : Done σ} {p : Program} {a : Assignment} {location : Int}

theorem follows_settled (hok : e.outcome = .ok ()) (hpos : 0 ≤ location)
    (hresult : (e.outcome, e.after) = p.settled a location)
    (huploads : e.uploads = a.settledUploads location) : e.Follows location a := by
  have hrefusal : a.refusal? = none := by
    cases hrefusal : a.refusal? with
    | none => rfl
    | some failure =>
      rw [settled, hrefusal] at hresult
      cases hok.symm.trans (Prod.mk.inj hresult).1
  rw [settled, hrefusal] at hresult
  rw [Assignment.settledUploads, hrefusal] at huploads
  have hafter : e.after = p.stored a location := (Prod.mk.inj hresult).2
  cases a with
  | uniform | sampler => exact huploads.trans (if_pos hpos).symm
  | «attribute» name type source =>
    intro b
    rw [hafter]
    refine Iff.trans (and_congr_left fun _ => LinkCache.mem_attributes_record) ?_
    constructor
    · rintro ⟨rfl | ⟨-, hne⟩, hname⟩
      · exact ⟨hpos, rfl⟩
      · exact absurd hname hne
    · rintro ⟨-, rfl⟩
      exact ⟨.inl rfl, rfl⟩

/-- An assignment that does nothing follows the name being absent. -/
theorem follows_absent (hneg : location < 0) (huploads : e.uploads = [])
    (hnone : ∀ b ∈ e.after.cache.attributes, b.name ≠ a.name) : e.Follows location a := by
  have hnot : ¬ 0 ≤ location := Int.not_le.mpr hneg
  cases a with
  | uniform | sampler => exact huploads.trans (if_neg hnot).symm
  | «attribute» name type source =>
    intro b
    constructor
    · rintro ⟨hb, hname⟩
      exact absurd hname (hnone b hb)
    · rintro ⟨hpos, -⟩
      exact absurd hpos hnot

end Follows

theorem Grounded.name_ne {asked : List Query} {c : LinkCache} {name : String} (h : Grounded c)
    (hknown : Known asked c) (hinvalid : name ∈ c.invalid) : ∀ b ∈ c.attributes, b.name ≠ name := by
  rintro b hb rfl
  exact hknown.not_mem_invalid (h.attributes b hb) hinvalid

/-- Since the last link a program has been told what the recorder still says. -/
theorem resolve_of_mem_queries {p : Program} {uses : List (Operation × Recorder)} {r : Recorder}
    (hlater : ∀ e ∈ sinceLink (p.past uses), e.left.Precedes r) {q : Query}
    (hq : q ∈ queries (sinceLink (p.past uses))) : r.resolve q.kind q.name = q.location := by
  obtain ⟨e, he, hasked⟩ := List.mem_flatMap.mp hq
  have hprecedes := hlater e he
  obtain ⟨p', o, d, rfl⟩ := exists_of_mem_past (mem_of_mem_sinceLink he)
  exact resolve_of_query hasked hprecedes

/-- **A name is set as what it was set as first**: an assignment that is accepted does what it
should for the location that the recorder has for the name as a variable of the kind as which
the name was first set since the last link, which is its own kind if it is set for the first
time. -/
theorem follows_first_kind (handle : Handle) (uses : List (Operation × Recorder)) (a : Assignment)
    (r : Recorder)
    (hlater : ∀ e ∈ sinceLink (past { handle } uses), e.left.Precedes r)
    (hok : ((Operation.assign a).done (now { handle } uses) r).outcome = .ok ()) :
    ((Operation.assign a).done (now { handle } uses) r).Follows
      (r.resolve ((firstKind? (sinceLink (past { handle } uses)) a.name).getD a.kind) a.name)
      a := by
  have hsaid := fun q => resolve_of_mem_queries hlater (q := q)
  have hkept := kept_past handle uses
  have hkept' := hkept.assign r a
  have hfirst := firstAsked_past handle uses
  obtain ⟨result, asked, missing, uploads, hassigned, hresult, -, -, huploads⟩ :=
    exists_assigned (now { handle } uses) a r
  generalize sinceLink (past { handle } uses) = since at *
  generalize now { handle } uses = p at *
  generalize (Operation.assign a).done p r = e at *
  generalize hlocation : r.resolve ((firstKind? since a.name).getD a.kind) a.name = location
  -- What the program was told of the name decides, if it was told anything.
  have hold (hlinked : p.linked = true) {q : Query} (hq : q ∈ queries since)
      (hname : q.name = a.name) : location = q.location := by
    obtain ⟨kind, location', hkind, hq'⟩ :=
      (hfirst hlinked).exists_firstKind (List.mem_map.mpr ⟨q, hq, hname⟩)
    cases List.inj_on_of_nodup_map hkept.known.once hq hq' hname
    rw [← hlocation, hkind, Option.getD_some]
    exact hsaid ⟨kind, a.name, location'⟩ hq'
  -- Otherwise it is told now.
  have hnew (hlinked : p.linked = true) (hunknown : p.Unknown a.name) :
      location = (Device.answer (p.locationRequest a.kind a.name) r).1 := by
    rw [← hlocation, (hfirst hlinked).firstKind_eq_none (hkept.known.not_asked hunknown),
      Option.getD_none, answer_locationRequest, Recorder.resolve]
  have hafter : e.after = result.2 := congrArg Prod.snd hresult
  cases hassigned with
  | unlinked hlinked => cases hok.symm.trans (congrArg Prod.fst hresult)
  | invalid hlinked hnone hinvalid =>
    obtain ⟨q, hq, hname, hneg⟩ := hkept.known.mem_invalid.mp hinvalid
    refine follows_absent (hold hlinked hq hname ▸ hneg) huploads ?_
    exact hkept'.grounded.name_ne hkept'.known (hafter ▸ hinvalid)
  | located hlinked location' hlookup =>
    obtain ⟨q, hq, hname, rfl, hpos⟩ :=
      hkept.known.mem_locations.mp (hkept.known.lookup_eq_some_iff.mp hlookup)
    cases hold hlinked hq hname
    exact follows_settled hok hpos hresult huploads
  | missing hlinked hunknown location' htold hneg =>
    cases (hnew hlinked hunknown).trans htold
    refine follows_absent hneg huploads ?_
    refine hkept'.grounded.name_ne hkept'.known ?_
    rw [hafter]
    simp [learn, hneg]
  | found hlinked hunknown location' htold hpos =>
    cases (hnew hlinked hunknown).trans htold
    exact follows_settled hok hpos hresult huploads

/-! ## A uniform that is taken for an attribute

The only variable is the uniform `x`.  Setting it as an attribute is accepted, since setting
what a program does not have is not an error.  Setting it as a uniform is then accepted too,
but nothing is uploaded, although the recorder has a location for it. -/

/-- A recorder with one uniform. -/
def oneUniform : Recorder := { lastHandle := 1, uniforms := [⟨"x", 5126, 1⟩] }

/-- The 32-bit number 1. -/
def one : Single := ⟨0x3f800000⟩

/-- The uniform is set as an attribute. -/
def takenForAttribute : List Operation :=
  [.setShaders "v" "f", .assign (.attribute "x" .float (.constant [one]))]

/-- The uniform is set as such. -/
def setX : Assignment := .uniform "x" .float (.floats [one])

/-- The program after the uniform has been set as an attribute. -/
def mistaken : Program := now { handle := 1 } (course { handle := 1 } oneUniform takenForAttribute)

/-- The recorder then. -/
def afterMistake : Recorder := courseEnd { handle := 1 } oneUniform takenForAttribute

/-- Setting it as a uniform does what it should for an attribute that the program does not
have: nothing. -/
theorem setX_follows_attribute :
    ((Operation.assign setX).done mistaken afterMistake).outcome = .ok () ∧
      ((Operation.assign setX).done mistaken afterMistake).Follows
        (afterMistake.resolve .attribute "x") setX := by
  have hok : ((Operation.assign setX).done mistaken afterMistake).outcome = .ok () := by
    decide +kernel
  have hfirst : firstKind? (sinceLink (past { handle := 1 }
      (course { handle := 1 } oneUniform takenForAttribute))) "x" = some .attribute := by
    decide +kernel
  have hfollows := follows_first_kind 1 (course { handle := 1 } oneUniform takenForAttribute) setX
    afterMistake (fun e he => precedes_of_mem_course _ _ _ e (mem_of_mem_sinceLink he)) hok
  rw [show setX.name = "x" from rfl, hfirst] at hfollows
  exact ⟨hok, hfollows⟩

/-- It does not do what it should for the uniform that the recorder has. -/
theorem setX_not_follows_uniform :
    mistaken.linked = true ∧
      ((Operation.assign setX).done mistaken afterMistake).outcome = .ok () ∧
      afterMistake.resolve .uniform "x" = 0 ∧
      ¬ ((Operation.assign setX).done mistaken afterMistake).Follows
        (afterMistake.resolve .uniform "x") setX := by
  refine ⟨by decide +kernel, by decide +kernel, by decide +kernel, ?_⟩
  change ¬ ((Operation.assign setX).done mistaken afterMistake).uploads = _
  decide +kernel

end DrawStream.Program
