import Mathlib.Data.List.Find
import DrawStream.Proofs.Kinds
import DrawStream.Proofs.Orderless
import DrawStream.Proofs.Validation

/-! # Where attributes take their numbers from when a program draws

The sources of attributes are kept by name, the latest for each name, and connected one after
the other when the program draws, in an order that the device settles.  A location that is known
under one name only gets the latest source that was recorded for it, in whatever order the others
come (`Program.sources_at_draw`).  But an array and its first element are two names of one location.
If sources have been recorded under both, the location gets the one that is connected last, and
that need not be the one that was recorded last (`Program.older_source_wins`). -/
namespace DrawStream

/-- What connecting an attribute makes of its location. -/
def Attribute.apply (a : Attribute) (v : VertexAttribute) : VertexAttribute :=
  match a.source with
  | .buffer handle stride offset =>
    { v with
      enabled := true
      buffer := handle
      size := a.type.components
      type := a.type.number
      stride
      offset }
  | .constant values => { v with enabled := false, constant := values }

theorem Attribute.takes_apply (a : Attribute) (v : VertexAttribute) :
    (a.apply v).Takes a.type a.source := by
  unfold apply VertexAttribute.Takes
  cases a.source <;> simp

/-- Connecting an attribute again changes nothing. -/
theorem Attribute.apply_apply (a : Attribute) (v : VertexAttribute) :
    a.apply (a.apply v) = a.apply v := by
  unfold apply
  cases a.source <;> rfl

namespace Machine

/-- A call that is not part of any deed. -/
def plain (call : Call) : Entry := ⟨call, none, false⟩

instance : DecidablePred Call.Draws := fun call => by
  cases call <;> unfold Call.Draws <;> infer_instance

/-- The machine at the first call that draws. -/
def atDraw (m : Machine) (calls : List Call) : Machine :=
  m.run ((calls.takeWhile fun call => ¬ call.Draws).map plain)

variable (m : Machine)

theorem connect_attributes_self (a : Attribute) :
    (m.connect a).attributes a.location = a.apply (m.attributes a.location) := by
  unfold connect Attribute.apply
  cases a.source <;> simp [setAttribute, bindBuffer]

theorem foldl_connect_of_ne {attributes : List Attribute} {location : Nat}
    (h : ∀ a ∈ attributes, a.location ≠ location) :
    (attributes.foldl connect m).attributes location = m.attributes location := by
  induction attributes generalizing m with
  | nil => rfl
  | cons a rest ih =>
    have hrest : ∀ b ∈ rest, b.location ≠ location := fun b hb => h b (List.mem_cons_of_mem _ hb)
    rw [List.foldl_cons, ih _ hrest]
    exact connect_attributes_of_ne (h a List.mem_cons_self).symm

/-- An attribute that is alone at its location is all that matters there. -/
theorem foldl_connect_alone {attributes : List Attribute} {a : Attribute} (ha : a ∈ attributes)
    (halone : ∀ b ∈ attributes, b.location = a.location → b = a) :
    (attributes.foldl connect m).attributes a.location = a.apply (m.attributes a.location) := by
  induction attributes using List.reverseRecOn with
  | nil => cases ha
  | append_singleton front last ih =>
    rw [List.foldl_concat]
    have hfront : ∀ b ∈ front, b.location = a.location → b = a :=
      fun b hb => halone b (List.mem_append_left _ hb)
    by_cases hmem : a ∈ front
    · have hstate := ih hmem hfront
      by_cases hlast : last.location = a.location
      · cases halone last (by simp) hlast
        rw [connect_attributes_self, hstate, Attribute.apply_apply]
      · rw [connect_attributes_of_ne (Ne.symm hlast), hstate]
    · have hstate : (front.foldl connect m).attributes a.location = m.attributes a.location :=
        foldl_connect_of_ne m fun b hb heq => hmem (hfront b hb heq ▸ hb)
      rcases List.mem_append.mp ha with hold | hlast
      · exact absurd hold hmem
      · cases List.mem_singleton.mp hlast
        rw [connect_attributes_self, hstate]

theorem foldl_attach_attributes (samplers : List Sampler) :
    (samplers.foldl attach m).attributes = m.attributes := by
  induction samplers generalizing m with
  | nil => rfl
  | cons s rest ih => exact ih _

/-! ## The calls of a draw -/

theorem run_calls_attribute (a : Attribute) : m.run (a.calls.map plain) = m.connect a := by
  unfold Attribute.calls connect
  cases a.source <;> rfl

theorem run_flatMap {α : Type} {calls : α → List Call} {step : Machine → α → Machine}
    (hstep : ∀ (m : Machine) a, m.run ((calls a).map plain) = step m a) (items : List α) :
    m.run ((items.flatMap calls).map plain) = items.foldl step m := by
  induction items generalizing m with
  | nil => rfl
  | cons a rest ih =>
    rw [List.flatMap_cons, List.map_append, run_append, hstep, ih, List.foldl_cons]

/-- The calls that bind what is recorded take the machine to where it is bound. -/
theorem run_bindings {p : Program} (order : p.BindingOrder) :
    m.run (order.calls.map plain) = m.bindAll order := by
  have hsampler : ∀ (m : Machine) (s : Sampler), m.run (s.calls.map plain) = m.attach s :=
    fun _ _ => rfl
  rw [Program.BindingOrder.calls, List.map_cons, run_cons, List.map_append, run_append,
    run_flatMap _ hsampler, run_flatMap _ run_calls_attribute]
  rfl

/-- Calls that mean nothing to the machine. -/
theorem run_idle {calls : List Call} (h : ∀ call ∈ calls, call.idle = true) :
    m.run (calls.map plain) = m := by
  induction calls with
  | nil => rfl
  | cons call rest ih =>
    rw [List.map_cons, run_cons]
    have hfirst : m.obey (plain call) = m := obey_of_idle (h call List.mem_cons_self)
    rw [hfirst, ih fun call' hcall' => h call' (List.mem_cons_of_mem _ hcall')]

theorem atDraw_append {front rest : List Call} (h : ∀ call ∈ front, ¬ call.Draws) :
    m.atDraw (front ++ rest) = (m.run (front.map plain)).atDraw rest := by
  rw [atDraw, List.takeWhile_append_of_pos (by simpa using h), List.map_append, run_append]
  rfl

/-- What goes before a draw call in its own calls has no part in attributes. -/
theorem attributes_atDraw_calls (mode : DrawMode) (call : Program.DrawCall) (later : List Call) :
    (m.atDraw (call.calls mode ++ later)).attributes = m.attributes := by
  cases call with
  | range first count => simp [atDraw, Program.DrawCall.calls, Call.Draws]
  | elements buffer type count =>
    simp [atDraw, Program.DrawCall.calls, Call.Draws, plain, obey, bindBuffer]

/-- At the call of a draw, all that is recorded has been bound. -/
theorem attributes_atDraw {σ : Type} [Device σ] {p : Program} {mode : DrawMode}
    {selection : Selection} {d : σ}
    (hdraws : ∃ call ∈ Event.calls ((p.draw mode selection).run d).events, call.Draws) :
    (m.atDraw (Event.calls ((p.draw mode selection).run d).events)).attributes =
      (m.bindAll (p.drawOrder d)).attributes := by
  have hundrawn : ∀ call ∈ (p.drawOrder d).calls, ¬ call.Draws :=
    fun _ hcall => (Program.plain_of_binds (Program.BindingOrder.binds _ hcall)).2
  have hquestions : ∀ count, ∀ call ∈ List.replicate count Call.getError,
      ¬ call.Draws ∧ call.idle = true := by
    intro count call hcall
    cases List.eq_of_mem_replicate hcall
    exact ⟨id, rfl⟩
  have hvalidation : ∀ call ∈ [Call.validateProgram p.handle],
      ¬ call.Draws ∧ call.idle = true := by
    intro call hcall
    cases List.mem_singleton.mp hcall
    exact ⟨id, rfl⟩
  have hdrawn := p.drawn mode selection d
  generalize (p.draw mode selection).run d = ran at hdrawn hdraws
  cases hdrawn with
  | unlinked | empty | outOfRange =>
    obtain ⟨call, hcall, -⟩ := hdraws
    cases hcall
  | erroneous =>
    obtain ⟨call, hcall, hdraws⟩ := hdraws
    rw [Event.calls_questions] at hcall
    exact absurd hdraws (hquestions _ call hcall).1
  | invalid =>
    obtain ⟨call, hcall, hdraws⟩ := hdraws
    simp only [Event.calls_append, Event.calls_questions, Event.calls_map_call,
      Program.calls_validationEvents, List.mem_append] at hcall
    rcases hcall with hquestion | hbind | hvalidate
    · exact absurd hdraws (hquestions _ call hquestion).1
    · exact absurd hdraws (hundrawn call hbind)
    · exact absurd hdraws (hvalidation call hvalidate).1
  | drawn =>
    simp only [Event.calls_append, Event.calls_questions, Event.calls_map_call]
    rw [atDraw_append m fun call h => (hquestions _ call h).1,
      run_idle m fun call h => (hquestions _ call h).2, atDraw_append m hundrawn, run_bindings]
    cases p.cache.validated with
    | true => exact attributes_atDraw_calls _ mode _ _
    | false =>
      simp only [Bool.false_eq_true, if_false, Program.calls_validationEvents]
      rw [atDraw_append _ fun call h => (hvalidation call h).1,
        run_idle _ fun call h => (hvalidation call h).2]
      exact attributes_atDraw_calls _ mode _ _

end Machine

namespace Program
variable {σ : Type}

/-! ## What has been recorded -/

/-- The location that the device has given for a name, if it has one. -/
def locationIn? (asked : List Query) (name : String) : Option Int :=
  (asked.find? fun q => q.name = name ∧ 0 ≤ q.location).map Query.location

/-- The source of an attribute that an operation records, at the location of its name. -/
def Done.recorded? (asked : List Query) (e : Done σ) : Option Attribute :=
  match e.operation, e.outcome with
  | .assign (.attribute name type source), .ok () =>
    (locationIn? asked name).map fun location => ⟨name, location.toNat, type, source⟩
  | _, _ => none

/-- The sources that have been recorded, oldest first. -/
def recorded (dones : List (Done σ)) : List Attribute :=
  dones.filterMap (Done.recorded? (queries dones))

/-- The latest of the attributes with a name. -/
def latest? (attributes : List Attribute) (name : String) : Option Attribute :=
  attributes.reverse.find? fun a => a.name = name

/-- The latest of the attributes at a location. -/
def latestAt? (attributes : List Attribute) (location : Nat) : Option Attribute :=
  attributes.reverse.find? fun a => a.location = location

section Recorded
variable {since : List (Done σ)} {e : Done σ} {c c' : LinkCache}

/-- What is known of a name is what the device has said. -/
theorem Known.locationIn?_eq {asked : List Query} (h : Known asked c) (name : String) :
    locationIn? asked name = c.locations.lookup name := by
  ext location
  rw [h.lookup_eq_some_iff, h.mem_locations, locationIn?, Option.map_eq_some_iff]
  constructor
  · rintro ⟨q, hfind, rfl⟩
    have hfits := List.find?_some hfind
    rw [decide_eq_true_eq] at hfits
    exact ⟨q, List.mem_of_find?_eq_some hfind, hfits.1, rfl, hfits.2⟩
  · rintro ⟨q, hq, rfl, rfl, hpos⟩
    cases hfind : asked.find? fun q' => q'.name = q.name ∧ 0 ≤ q'.location with
    | none =>
      have hunfit := List.find?_eq_none.mp hfind q hq
      rw [decide_eq_true_eq] at hunfit
      exact absurd ⟨rfl, hpos⟩ hunfit
    | some q' =>
      -- The name has been asked for only once.
      have hfits := List.find?_some hfind
      rw [decide_eq_true_eq] at hfits
      cases List.inj_on_of_nodup_map h.once (List.mem_of_find?_eq_some hfind) hq hfits.1
      exact ⟨q, rfl, rfl⟩

/-- What is asked later has no part in what was said of a name that has been set before. -/
theorem locationIn?_concat (h : Kept since c) (h' : Kept (since ++ [e]) c') {e' : Done σ}
    (he' : e' ∈ since) {a : Assignment} (hoperation : e'.operation = .assign a)
    (hok : e'.outcome = .ok ()) :
    locationIn? (queries (since ++ [e])) a.name = locationIn? (queries since) a.name := by
  have hasked := h.asked e' he' _ hoperation hok
  have hnew : ∀ q ∈ e.queries, q.name ≠ a.name := by
    have honce := h'.known.once
    rw [queries_concat, List.map_append, List.nodup_append] at honce
    exact fun q hq => (honce.2.2 _ hasked _ (List.mem_map_of_mem hq)).symm
  have hnone : (e.queries.find? fun q => q.name = a.name ∧ 0 ≤ q.location) = none := by
    refine List.find?_eq_none.mpr fun q hq => ?_
    simp [hnew q hq]
  rw [locationIn?, locationIn?, queries_concat, List.find?_append, hnone, Option.or_none]

/-- What is asked later has no part in what was recorded before. -/
theorem recorded_concat (h : Kept since c) (h' : Kept (since ++ [e]) c') :
    recorded (since ++ [e]) = recorded since ++ (e.recorded? (queries (since ++ [e]))).toList := by
  have hbefore : since.filterMap (Done.recorded? (queries (since ++ [e]))) = recorded since := by
    refine List.filterMap_congr fun e' he' => ?_
    unfold Done.recorded?
    split
    · next name type source hoperation hok =>
      rw [show locationIn? (queries (since ++ [e])) name = locationIn? (queries since) name from
        locationIn?_concat h h' he' hoperation hok]
    · rfl
  rw [recorded, List.filterMap_append, hbefore]
  cases hrecorded : e.recorded? (queries (since ++ [e])) <;>
    simp only [List.filterMap_cons, hrecorded, List.filterMap_nil, Option.toList]

theorem attributes_learn (p : Program) (name : String) (location : Int) :
    (p.learn name location).cache.attributes = p.cache.attributes := by
  unfold learn
  split <;> rfl

theorem samplers_learn (p : Program) (name : String) (location : Int) :
    (p.learn name location).cache.samplers = p.cache.samplers := by
  unfold learn
  split <;> rfl

/-- Only attributes that are set are recorded. -/
theorem attributes_settled (p : Program) {a : Assignment} (location : Int)
    (h : a.kind = .uniform ∨ (p.settled a location).1 ≠ .ok ()) :
    (p.settled a location).2.cache.attributes = p.cache.attributes := by
  unfold settled at h ⊢
  cases hrefusal : a.refusal? with
  | some failure => rfl
  | none =>
    rw [hrefusal] at h
    have huniform := h.resolve_right (by simp)
    cases a with
    | «attribute» => cases huniform
    | uniform => rfl
    | sampler name target texture =>
      obtain ⟨samplers, hattach⟩ :=
        (p.cache.markSet name 0).attach_eq name target texture
      change ((p.cache.markSet name 0).attach name target texture).attributes = _
      rw [hattach]
      rfl

theorem mem_attributes_settled (p : Program) {name : String} {type : AttributeType}
    {source : AttributeSource} {location : Int} {b : Attribute}
    (hok : (p.settled (.attribute name type source) location).1 = .ok ()) :
    b ∈ (p.settled (.attribute name type source) location).2.cache.attributes ↔
      b = ⟨name, location.toNat, type, source⟩ ∨ b ∈ p.cache.attributes ∧ b.name ≠ name := by
  unfold settled at hok ⊢
  cases hrefusal : (Assignment.attribute name type source).refusal? with
  | some failure =>
    rw [hrefusal] at hok
    cases hok
  | none => exact LinkCache.mem_attributes_record

variable {asked : List Query} {a : Assignment}

/-- Nothing is recorded of a name without a location. -/
theorem recorded?_of_absent (hoperation : e.operation = .assign a)
    (hlocation : locationIn? asked a.name = none) : e.recorded? asked = none := by
  unfold Done.recorded?
  split
  · next name type source hattribute hok =>
    cases hoperation.symm.trans hattribute
    rw [show locationIn? asked name = none from hlocation]
    rfl
  · rfl

/-- Nothing is recorded by an operation that fails. -/
theorem recorded?_of_error {failure : Failure} (houtcome : e.outcome = .error failure) :
    e.recorded? asked = none := by
  simp [Done.recorded?, houtcome]

/-- The source of an attribute is recorded in place of an earlier one with its name, and nothing
else is. -/
def Records (e : Done σ) (asked : List Query) (c c' : LinkCache) : Prop :=
  (e.recorded? asked = none ∧ c'.attributes = c.attributes) ∨
  ∃ r, e.recorded? asked = some r ∧
    ∀ b, b ∈ c'.attributes ↔ b = r ∨ b ∈ c.attributes ∧ b.name ≠ r.name

theorem records_settled {p : Program} {location : Int} (hoperation : e.operation = .assign a)
    (houtcome : e.outcome = (p.settled a location).1)
    (hlocation : locationIn? asked a.name = some location) :
    Records e asked p.cache (p.settled a location).2.cache := by
  cases houtcome' : (p.settled a location).1 with
  | error failure =>
    refine .inl ⟨recorded?_of_error (houtcome.trans houtcome'), attributes_settled p location ?_⟩
    exact .inr (by simp [houtcome'])
  | ok =>
    cases a with
    | uniform | sampler =>
      exact .inl ⟨by simp [Done.recorded?, hoperation], attributes_settled p location (.inl rfl)⟩
    | «attribute» name type source =>
      refine .inr ⟨⟨name, location.toNat, type, source⟩, ?_, fun b => ?_⟩
      · simp only [Done.recorded?, hoperation, houtcome, houtcome']
        rw [show locationIn? asked name = some location from hlocation]
        rfl
      · exact mem_attributes_settled p houtcome'

/-- What an assignment comes to: the value is looked at for the location of the name, or nothing
becomes of what is recorded, as the assignment fails or the name has no location. -/
def Settles (e : Done σ) (p : Program) (a : Assignment) : Prop :=
  (((∃ failure, e.outcome = .error failure) ∨ e.after.cache.locations.lookup a.name = none) ∧
    e.after.cache.samplers = p.cache.samplers ∧ e.after.cache.attributes = p.cache.attributes) ∨
  ∃ (q : Program) (location : Int), q.cache.samplers = p.cache.samplers ∧
    q.cache.attributes = p.cache.attributes ∧ e.outcome = (q.settled a location).1 ∧
    e.after = (q.settled a location).2 ∧ e.after.cache.locations.lookup a.name = some location

variable [Device σ] {p : Program}

theorem settles_assign (a : Assignment) (d : σ) :
    Settles ((Operation.assign a).done p d) p a := by
  obtain ⟨result, asked, missing, uploads, hassigned, hresult, -, -, -⟩ := exists_assigned p a d
  generalize (Operation.assign a).done p d = e at *
  have houtcome : e.outcome = result.1 := congrArg Prod.fst hresult
  have hafter : e.after = result.2 := congrArg Prod.snd hresult
  unfold Settles
  rw [houtcome, hafter]
  cases hassigned with
  | unlinked => exact .inl ⟨.inl ⟨_, rfl⟩, rfl, rfl⟩
  | invalid hlinked hnone => exact .inl ⟨.inr hnone, rfl, rfl⟩
  | located hlinked location hlookup =>
    refine .inr ⟨p, location, rfl, rfl, rfl, rfl, ?_⟩
    rw [locations_settled]
    exact hlookup
  | missing hlinked hunknown location hanswer hneg =>
    refine .inl ⟨.inr ?_, samplers_learn _ _ _, attributes_learn _ _ _⟩
    rw [learn, if_pos hneg]
    exact hunknown.1
  | found hlinked hunknown location hanswer hpos =>
    refine .inr ⟨_, location, samplers_learn _ _ _, attributes_learn _ _ _, rfl, rfl, ?_⟩
    rw [locations_settled, learn, if_neg (Int.not_lt.mpr hpos)]
    exact List.lookup_cons_self

/-- What an assignment records. -/
theorem records_assign (a : Assignment) (d : σ)
    (h : Known asked ((Operation.assign a).done p d).after.cache) :
    Records ((Operation.assign a).done p d) asked p.cache
      ((Operation.assign a).done p d).after.cache := by
  have hoperation : ((Operation.assign a).done p d).operation = .assign a := rfl
  have hsettles := settles_assign (p := p) a d
  generalize (Operation.assign a).done p d = e at *
  have hlocation := h.locationIn?_eq a.name
  rcases hsettles with ⟨hidle, -, hattributes⟩ |
    ⟨q, location, -, hattributes, houtcome, hafter, hlookup⟩
  · refine .inl ⟨?_, hattributes⟩
    rcases hidle with ⟨failure, houtcome⟩ | hnone
    · exact recorded?_of_error houtcome
    · exact recorded?_of_absent hoperation (hlocation.trans hnone)
  · have hrecords := records_settled hoperation houtcome (hlocation.trans hlookup)
    rw [← hafter] at hrecords
    unfold Records at hrecords ⊢
    rwa [hattributes] at hrecords

/-- The sources that are kept are the latest of their names. -/
def Remembers (since : List (Done σ)) (c : LinkCache) : Prop :=
  ∀ a, a ∈ c.attributes ↔ latest? (recorded since) a.name = some a

theorem latest?_concat (attributes : List Attribute) (r : Attribute) (name : String) :
    latest? (attributes ++ [r]) name =
      if r.name = name then some r else latest? attributes name := by
  unfold latest?
  rw [List.reverse_concat, List.find?_cons]
  by_cases hname : r.name = name <;> simp [hname]

theorem Remembers.done {past : List (Done σ)} (hkept : Kept (sinceLink past) p.cache)
    (h : Remembers (sinceLink past) p.cache) (o : Operation) (d : σ) :
    Remembers (sinceLink (past ++ [o.done p d])) (o.done p d).after.cache := by
  have hkept' := hkept.done (o := o) (d := d)
  cases hlinks : (o.done p d).links with
  | true =>
    rw [sinceLink_of_links hlinks, after_of_links hlinks]
    intro a
    constructor <;> intro hnone <;> cases hnone
  | false =>
    rw [sinceLink_of_not_links hlinks] at hkept' ⊢
    intro a
    rw [recorded_concat hkept hkept']
    cases o with
    | assign assignment =>
      rcases records_assign assignment d hkept'.known with ⟨hnone, hsame⟩ | ⟨r, hsome, hmem⟩
      · rw [hnone, hsame, Option.toList_none, List.append_nil]
        exact h a
      · rw [hsome, Option.toList_some, latest?_concat, hmem]
        by_cases hname : r.name = a.name
        · rw [if_pos hname]
          constructor
          · rintro (rfl | ⟨-, hne⟩)
            · rfl
            · exact absurd hname.symm hne
          · intro heq
            cases heq
            exact .inl rfl
        · rw [if_neg hname, ← h a]
          constructor
          · rintro (rfl | ⟨hold, -⟩)
            · exact absurd rfl hname
            · exact hold
          · exact fun hold => .inr ⟨hold, fun heq => hname heq.symm⟩
    | setShaders | draw | activate | deactivate =>
      obtain ⟨validated, hcache⟩ := cache_of_not_links rfl hlinks
      rw [hcache]
      simpa [Done.recorded?, Operation.done] using h a

/-- **A program keeps the latest sources of its attributes**, after any past. -/
theorem remembers_past (handle : Handle) (uses : List (Operation × σ)) :
    Remembers (sinceLink (past { handle } uses)) (now { handle } uses).cache := by
  have hnil : Remembers (sinceLink ([] : List (Done σ))) ({ handle } : Program).cache := by
    intro a
    constructor <;> intro hnone <;> cases hnone
  have hboth := past_induction (p := { handle })
    (fun past p => Kept (sinceLink past) p.cache ∧ Remembers (sinceLink past) p.cache)
    ⟨kept_nil rfl rfl rfl rfl, hnil⟩
    (fun past p o d h => ⟨h.1.done (o := o) (d := d), h.2.done h.1 o d⟩) uses
  exact hboth.2

end Recorded

/-! ## At the draw call -/

section AtDraw
variable {attributes : List Attribute} {a b : Attribute} {name : String} {location : Nat}

theorem of_latest? (h : latest? attributes name = some a) : a ∈ attributes ∧ a.name = name := by
  have hname := List.find?_some h
  rw [decide_eq_true_eq] at hname
  exact ⟨List.mem_reverse.mp (List.mem_of_find?_eq_some h), hname⟩

theorem of_latestAt? (h : latestAt? attributes location = some a) :
    a ∈ attributes ∧ a.location = location := by
  have hlocation := List.find?_some h
  rw [decide_eq_true_eq] at hlocation
  exact ⟨List.mem_reverse.mp (List.mem_of_find?_eq_some h), hlocation⟩

theorem exists_latest? (h : a ∈ attributes) : ∃ b, latest? attributes a.name = some b := by
  cases hlatest : latest? attributes a.name with
  | some b => exact ⟨b, rfl⟩
  | none =>
    have hname := List.find?_eq_none.mp hlatest a (List.mem_reverse.mpr h)
    exact absurd (decide_eq_true rfl) hname

/-- The location of what is recorded follows from its name. -/
theorem location_eq_of_name {dones : List (Done σ)} (ha : a ∈ recorded dones)
    (hb : b ∈ recorded dones) (hname : a.name = b.name) : a.location = b.location := by
  have hlocation : ∀ r ∈ recorded dones,
      some r.location = (locationIn? (queries dones) r.name).map Int.toNat := by
    intro r hr
    obtain ⟨e, -, hrecorded⟩ := List.mem_filterMap.mp hr
    unfold Done.recorded? at hrecorded
    split at hrecorded
    · obtain ⟨location, hlocation, rfl⟩ := Option.map_eq_some_iff.mp hrecorded
      rw [hlocation]
      rfl
    · cases hrecorded
  have hsome := hlocation a ha
  rw [hname, ← hlocation b hb] at hsome
  exact Option.some.inj hsome

/-- The last of the attributes at a location. -/
theorem exists_last (h : ∃ a ∈ attributes, a.location = location) :
    ∃ front a back, attributes = front ++ a :: back ∧ a.location = location ∧
      ∀ b ∈ back, b.location ≠ location := by
  induction attributes using List.reverseRecOn with
  | nil =>
    obtain ⟨a, ha, -⟩ := h
    cases ha
  | append_singleton rest last ih =>
    by_cases hlast : last.location = location
    · exact ⟨rest, last, [], rfl, hlast, fun b hb => by cases hb⟩
    · obtain ⟨a, ha, hlocation⟩ := h
      have hrest : a ∈ rest := by
        rcases List.mem_append.mp ha with hrest | heq
        · exact hrest
        · cases List.mem_singleton.mp heq
          exact absurd hlocation hlast
      obtain ⟨front, c, back, rfl, hc, hback⟩ := ih ⟨a, hrest, hlocation⟩
      refine ⟨front, c, back ++ [last], by simp, hc, fun b hb => ?_⟩
      rcases List.mem_append.mp hb with hold | heq
      · exact hback b hold
      · cases List.mem_singleton.mp heq
        exact hlast

/-- What a location is when a program draws that connects its attributes in an `order`, given
what has been recorded and what the location was before. -/
structure SourceAt (records order : List Attribute) (location : Nat)
    (before after : VertexAttribute) : Prop where
  /-- A location for which nothing has been recorded stays as it was. -/
  unrecorded : (∀ a ∈ records, a.location ≠ location) → after = before
  /-- A location with one name has the latest source that was recorded for it. -/
  latest : ∀ a, latestAt? records location = some a →
    (∀ b ∈ records, b.location = location → b.name = a.name) → after = a.apply before
  /-- A location has the latest source of one of its names, that which is connected last. -/
  connected : (∃ a ∈ records, a.location = location) → ∃ front a back,
    order = front ++ a :: back ∧ a.location = location ∧ (∀ b ∈ back, b.location ≠ location) ∧
    latest? records a.name = some a ∧ after.Takes a.type a.source

theorem sourceAt_foldl {dones : List (Done σ)} {c : LinkCache} (h : Remembers dones c)
    {order : List Attribute} (horder : order.Perm c.attributes) (m : Machine) (location : Nat) :
    SourceAt (recorded dones) order location (m.attributes location)
      ((order.foldl Machine.connect m).attributes location) := by
  have hmem : ∀ a, a ∈ order ↔ latest? (recorded dones) a.name = some a :=
    fun a => horder.mem_iff.trans (h a)
  refine ⟨fun hnone => ?_, fun a ha halone => ?_, fun ⟨r, hr, hlocation⟩ => ?_⟩
  · exact Machine.foldl_connect_of_ne m fun a ha => hnone a (of_latest? ((hmem a).mp ha)).1
  · obtain ⟨hrecorded, rfl⟩ := of_latestAt? ha
    -- The latest with the name is the latest at the location.
    have hlatest : latest? (recorded dones) a.name = some a := by
      refine (List.find?_congr fun r hr => ?_).trans ha
      have hr' := List.mem_reverse.mp hr
      rw [decide_eq_decide]
      exact ⟨fun hname => location_eq_of_name hr' hrecorded hname, halone r hr'⟩
    refine Machine.foldl_connect_alone m ((hmem a).mpr hlatest) fun b hb hlocation => ?_
    have hb' := (hmem b).mp hb
    rw [halone b (of_latest? hb').1 hlocation, hlatest] at hb'
    exact (Option.some.inj hb').symm
  · obtain ⟨a, ha⟩ := exists_latest? hr
    obtain ⟨hrecorded, hname⟩ := of_latest? ha
    have haorder : a ∈ order := (hmem a).mpr (by rw [hname, ha])
    have hsame : a.location = location := (location_eq_of_name hrecorded hr hname).trans hlocation
    obtain ⟨front, b, back, rfl, hb, hback⟩ := exists_last ⟨a, haorder, hsame⟩
    refine ⟨front, b, back, rfl, hb, hback, (hmem b).mp (by simp), ?_⟩
    rw [List.foldl_append, List.foldl_cons, Machine.foldl_connect_of_ne _ hback, ← hb,
      Machine.connect_attributes_self]
    exact b.takes_apply _

variable [Device σ]

/-- **Where attributes take their numbers from when a program draws.**  Whatever has been done
with a program and whatever the order in which the device has everything bound, a location is at
the draw call what has been recorded for it since the last link says; and everything may be bound
in any order. -/
theorem sources_at_draw (handle : Handle) (uses : List (Operation × σ)) (mode : DrawMode)
    (selection : Selection) (d : σ)
    (hdraws : ∃ call ∈ Event.calls ((Operation.draw mode selection).done
      (now { handle } uses) d).events, call.Draws)
    (m : Machine) :
    (∀ location, SourceAt (recorded (sinceLink (past { handle } uses)))
      ((now { handle } uses).drawOrder d).attributes location (m.attributes location)
      ((m.atDraw (Event.calls ((Operation.draw mode selection).done
        (now { handle } uses) d).events)).attributes location)) ∧
    ∀ (order : (now { handle } uses).BindingOrder) (r : Recorder),
      ∃ arrangements, (now { handle } uses).drawOrder (r.inOrders arrangements) = order := by
  refine ⟨fun location => ?_, (now { handle } uses).exists_drawOrder⟩
  have hattributes := m.attributes_atDraw hdraws
  have hattached := Machine.foldl_attach_attributes
    { m with current := (now { handle } uses).handle } ((now { handle } uses).drawOrder d).samplers
  have hsource := sourceAt_foldl (remembers_past handle uses)
    ((now { handle } uses).drawOrder d).attributes_perm
    (((now { handle } uses).drawOrder d).samplers.foldl Machine.attach
      { m with current := (now { handle } uses).handle }) location
  rw [hattached] at hsource
  exact (congrFun hattributes location).symm ▸ hsource

end AtDraw

/-! ## An array and its first element

The only attribute is an array, so that `a` and `a[0]` are names of its location.  A source is
recorded under `a`, then one under `a[0]`, and then another one under `a`.  The last of them
takes the place of the first, so it is connected before the one under `a[0]`, unless the order
is another one. -/

/-- A recorder with an array of one element. -/
def oneArray : Recorder := { lastHandle := 1, attributes := [⟨"a[0]", 5126, 1⟩] }

/-- The 32-bit number 2. -/
def two : Single := ⟨0x40000000⟩

/-- The 32-bit number 3. -/
def three : Single := ⟨0x40400000⟩

/-- Sources are recorded under both names. -/
def underBothNames : List Operation :=
  [.setShaders "v" "f", .assign (.attribute "a" .float (.constant [three])),
    .assign (.attribute "a[0]" .float (.constant [two])),
    .assign (.attribute "a" .float (.constant [one]))]

/-- The same, on the recorder. -/
def twiceNamed : List (Operation × Recorder) := course { handle := 1 } oneArray underBothNames

/-- The recorder afterwards, with orders of tables to come. -/
def afterNaming (arrangements : List Arrangement) : Recorder :=
  (courseEnd { handle := 1 } oneArray underBothNames).inOrders arrangements

/-- The calls of a draw then. -/
def callsInOrders (arrangements : List Arrangement) : List Call :=
  Event.calls ((Operation.draw .points (.range 0 1)).done (now { handle := 1 } twiceNamed)
    (afterNaming arrangements)).events

/-- The source under the bare name. -/
def fromBase : Attribute := ⟨"a", 0, .float, .constant [one]⟩

/-- The source under the name of the element, which was recorded before. -/
def fromElement : Attribute := ⟨"a[0]", 0, .float, .constant [two]⟩

theorem draws_callsInOrders {arrangements : List Arrangement}
    (h : arrangements = [] ∨ arrangements = [[], [1]]) :
    ∃ call ∈ callsInOrders arrangements, call.Draws := by
  refine ⟨.drawArrays DrawMode.points.number 0 1, ?_, trivial⟩
  rcases h with rfl | rfl
  · decide +kernel
  · decide +kernel

/-- The element is connected first where the attributes come in the other order. -/
theorem sources_of_twiceNamed :
    (∃ call ∈ callsInOrders [[], [1]], call.Draws) ∧
    ((now { handle := 1 } twiceNamed).drawOrder (afterNaming [[], [1]])).attributes =
      [fromElement, fromBase] ∧
    SourceAt (recorded (sinceLink (past { handle := 1 } twiceNamed))) [fromElement, fromBase] 0 {}
      ((({} : Machine).atDraw (callsInOrders [[], [1]])).attributes 0) := by
  have hdraws := draws_callsInOrders (.inr rfl)
  have horder : ((now { handle := 1 } twiceNamed).drawOrder
      (afterNaming [[], [1]])).attributes = [fromElement, fromBase] := by
    decide +kernel
  have hsource := (sources_at_draw 1 twiceNamed .points (.range 0 1) (afterNaming [[], [1]])
    hdraws {}).1 0
  rw [horder] at hsource
  exact ⟨hdraws, horder, hsource⟩

/-- **The source that was recorded last need not be the one that is taken**: the program is
linked and draws, the source under the bare name is the last that was recorded for the location,
but where the attributes come in the order in which they are kept the one under the name of the
element is taken, and where they come in the other order it is not. -/
theorem older_source_wins :
    (now { handle := 1 } twiceNamed).linked = true ∧
    (now { handle := 1 } twiceNamed).cache.attributes = [fromBase, fromElement] ∧
    latestAt? (recorded (sinceLink (past { handle := 1 } twiceNamed))) 0 = some fromBase ∧
    (∃ call ∈ callsInOrders [], call.Draws) ∧
    ¬ ((({} : Machine).atDraw (callsInOrders [])).attributes 0).Takes
      fromBase.type fromBase.source ∧
    ((({} : Machine).atDraw (callsInOrders [[], [1]])).attributes 0).Takes
      fromBase.type fromBase.source := by
  refine ⟨by decide +kernel, by decide +kernel, by decide +kernel, draws_callsInOrders (.inl rfl),
    ?_, ?_, ?_⟩
  · rintro ⟨-, htakes⟩
    revert htakes
    decide +kernel
  · decide +kernel
  · decide +kernel

end Program
end DrawStream
