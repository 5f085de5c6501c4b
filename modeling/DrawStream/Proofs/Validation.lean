import DrawStream.Proofs.ByteOrder
import DrawStream.Proofs.Lookups
import DrawStream.Proofs.Refusals

/-! # A program is validated once a link

What the device has to say about a program depends on the textures that are bound, so the
program is validated by the first draw of a link that gets as far as binding them
(`Done.Reaches`), and by no other.  A draw that is refused or that finds errors waiting does not
count, and neither does a link that fails; a link that succeeds starts again.

What an operation does about validation depends on whether the program has been validated in
this link already (`Done.Validates`), and the program knows that (`Tracked`). -/
namespace DrawStream

/-- The program that a call validates. -/
def Call.validated? : Call → Option Handle
  | .validateProgram program => some program
  | _ => none

/-- A call that draws. -/
def Call.Draws : Call → Prop
  | .drawArrays .. | .drawElements .. => True
  | _ => False

/-- The variables without a value that a note is on. -/
def Note.unset? : Note → Option (List String)
  | .unsetVariables names => some names
  | _ => none

namespace Program
variable {σ : Type}

namespace Done

/-- The programs that were validated. -/
def validations (e : Done σ) : List Handle := (Event.calls e.events).filterMap Call.validated?

/-- The warnings of variables without a value. -/
def warnings (e : Done σ) : List (List String) := (Event.notes e.events).filterMap Note.unset?

variable [Device σ]

/-- A draw that is neither refused nor stopped by errors that were waiting. -/
def Reaches (e : Done σ) : Prop :=
  ∃ mode selection, e.operation = .draw mode selection ∧ e.before.linked = true ∧
    selection.count ≠ 0 ∧ selection.InRange ∧ (Device.drain e.device).codes = []

/-- What an operation does about validation, if a draw of this link has `already` got to the
device or not. -/
structure Validates (e : Done σ) (already : Prop) : Prop where
  validates : e.Reaches ∧ ¬ already → e.validations = [e.before.handle]
  validates_not : ¬ (e.Reaches ∧ ¬ already) → e.validations = []
  /-- The program is validated when all that is recorded has been bound, and then drawn with
  unless the device finds fault with it. -/
  calls : e.Reaches ∧ ¬ already → ∃ mode selection before after,
    e.operation = .draw mode selection ∧ Event.calls e.events =
      List.replicate before .getError ++
        ((e.before.drawOrder e.device).calls ++ .validateProgram e.before.handle ::
          if e.before.valid e.device then
            (exactCall selection).calls mode ++ List.replicate after .getError
          else [])
  warns : e.Reaches ∧ ¬ already → e.before.cache.unset ≠ [] → ∃ names, e.warnings = [names] ∧
    (names.Pairwise fun a b => Text.Utf8.encode a < Text.Utf8.encode b) ∧
    ∀ name, name ∈ names ↔ name ∈ e.before.cache.unset
  warns_not : ¬ (e.Reaches ∧ ¬ already ∧ e.before.cache.unset ≠ []) → e.warnings = []
  fails : (∃ log, e.outcome = .error (.programValidation log)) ↔
    (e.Reaches ∧ ¬ already) ∧ e.before.valid e.device = false
  fails_undrawn : (∃ log, e.outcome = .error (.programValidation log)) →
    ∀ call ∈ Event.calls e.events, ¬ call.Draws
  validated : e.after.cache.validated = true ↔ e.links = false ∧ (e.Reaches ∨ already)

end Done

section Operations
variable [Device σ] {p : Program} {o : Operation} {d : σ}

/-! ## Operations other than draws -/

theorem within_perform_undrawn (h : ∀ mode selection, o ≠ .draw mode selection) :
    (o.perform p).Within [.building, .status, .reporting, .lookup, .missing, .binding, .upload]
      fun r => r.2.handle = p.handle := by
  cases o with
  | setShaders vertex fragment =>
    exact (p.within_setShaders vertex fragment).mono (by decide) fun _ h => h
  | assign a => exact (p.within_perform_assignment a).mono (by decide) fun _ h => h
  | draw mode selection => exact absurd rfl (h mode selection)
  | activate | deactivate => simp [Operation.perform, Program.activate, Program.deactivate]

theorem validations_undrawn (h : ∀ mode selection, o ≠ .draw mode selection) :
    (o.done p d).validations = [] := by
  refine List.filterMap_eq_nil_iff.mpr ((within_perform_undrawn h).forall_calls ?_ ?_ d)
  · intro β r b htopic c hc
    cases r <;> first | (cases hc; rfl) | (simp at htopic; done) | cases hc
  · exact fun h => absurd h (by decide)

theorem warnings_undrawn (h : ∀ mode selection, o ≠ .draw mode selection) :
    (o.done p d).warnings = [] := by
  refine List.filterMap_eq_nil_iff.mpr ((within_perform_undrawn h).forall_notes ?_ d)
  intro n hn
  cases n with
  | unsetVariables names => exact absurd (hn _ rfl) (by decide)
  | _ => rfl

/-- Setting a variable fails for other reasons than validation. -/
theorem refusal?_ne (a : Assignment) (log : String) :
    a.refusal? ≠ some (.programValidation log) := by
  intro h
  cases a with
  | uniform name type value =>
    obtain ⟨refusal, -, hfailure⟩ := Option.map_eq_some_iff.mp h
    cases hfailure
  | «attribute» name type source =>
    simp only [Assignment.refusal?, sourceFailure?] at h
    split at h
    · split at h <;> cases h
    · cases h
  | sampler => cases h

theorem outcome_undrawn (h : ∀ mode selection, o ≠ .draw mode selection) (log : String) :
    (o.done p d).outcome ≠ .error (.programValidation log) := by
  intro houtcome
  cases o with
  | setShaders vertex fragment => exact (run_setShaders_of_error houtcome).1
  | assign a =>
    change ((a.perform p).run d).value.1 = _ at houtcome
    rw [perform_eq_assign] at houtcome
    rcases run_assign_of_error houtcome with ⟨hfailure, -⟩ | ⟨hrefusal, -⟩ | ⟨hrefusal, -⟩
    · cases hfailure
    · exact refusal?_ne a log hrefusal
    · exact refusal?_ne a log hrefusal
  | draw mode selection => exact h mode selection rfl
  | activate | deactivate => cases houtcome

/-! ## What stays of the cache -/

/-- Nothing is added to the variables without a value, and whether the program has been
validated stays the same. -/
structure Persists (c c' : LinkCache) : Prop where
  validated : c'.validated = c.validated
  unset : c'.unset.Sublist c.unset

theorem persists_learn (p : Program) (name : String) (location : Int) :
    Persists p.cache (p.learn name location).cache := by
  unfold learn
  split <;> exact ⟨rfl, .refl _⟩

theorem persists_settled (p : Program) (a : Assignment) (location : Int) :
    Persists p.cache (p.settled a location).2.cache := by
  unfold settled
  cases a.refusal? with
  | some failure => exact ⟨rfl, .refl _⟩
  | none =>
    obtain ⟨samplers, attributes, h⟩ := stored_eq p a location
    rw [h]
    exact ⟨rfl, List.filter_sublist⟩

theorem Persists.trans {c₁ c₂ c₃ : LinkCache} (h : Persists c₁ c₂) (h' : Persists c₂ c₃) :
    Persists c₁ c₃ :=
  ⟨h'.validated.trans h.validated, h'.unset.trans h.unset⟩

theorem persists_assign (p : Program) (a : Assignment) (d : σ) :
    Persists p.cache ((Operation.assign a).done p d).after.cache := by
  obtain ⟨result, asked, missing, uploads, hassigned, hresult, -, -, -⟩ := exists_assigned p a d
  have hafter : ((Operation.assign a).done p d).after = result.2 := congrArg Prod.snd hresult
  rw [hafter]
  cases hassigned with
  | unlinked | invalid => exact ⟨rfl, .refl _⟩
  | located hlinked location => exact persists_settled p a location
  | missing hlinked hunknown location => exact persists_learn p a.name location
  | found hlinked hunknown location =>
    exact (persists_learn p a.name location).trans (persists_settled _ a location)

/-- Only draws and links that succeed have a part in whether a program has been validated. -/
theorem persists_undrawn (h : ∀ mode selection, o ≠ .draw mode selection)
    (hlinks : (o.done p d).links = false) : Persists p.cache (o.done p d).after.cache := by
  cases o with
  | setShaders vertex fragment =>
    rcases done_setShaders p d vertex fragment with ⟨failure, -, hafter⟩ | ⟨hok, -⟩
    · rw [hafter]
      exact ⟨rfl, .refl _⟩
    · rw [Done.links, hok] at hlinks
      cases hlinks
  | assign a => exact persists_assign p a d
  | draw mode selection => exact absurd rfl (h mode selection)
  | activate | deactivate => exact ⟨rfl, .refl _⟩

theorem validated_of_links (h : (o.done p d).links = true) :
    (o.done p d).after.cache.validated = false := by
  rw [after_of_links h]
  rfl

/-! ## Every operation -/

/-- An operation that does not get to the device does nothing about validation. -/
theorem validates_of_not_reaches {e : Done σ} {already : Prop} (hreaches : ¬ e.Reaches)
    (hvalidations : e.validations = []) (hwarnings : e.warnings = [])
    (houtcome : ∀ log, e.outcome ≠ .error (.programValidation log))
    (hvalidated : e.after.cache.validated = true ↔ e.links = false ∧ already) :
    e.Validates already where
  validates h := absurd h.1 hreaches
  validates_not _ := hvalidations
  calls h := absurd h.1 hreaches
  warns h := absurd h.1 hreaches
  warns_not _ := hwarnings
  fails := ⟨fun ⟨log, h⟩ => absurd h (houtcome log), fun h => absurd h.1.1 hreaches⟩
  fails_undrawn := fun ⟨log, h⟩ => absurd h (houtcome log)
  validated := by simp [hvalidated, hreaches]

theorem validates_undrawn (h : ∀ mode selection, o ≠ .draw mode selection) :
    (o.done p d).Validates (p.cache.validated = true) := by
  refine validates_of_not_reaches ?_ (validations_undrawn h) (warnings_undrawn h)
    (outcome_undrawn h) ?_
  · rintro ⟨mode, selection, hdraw, -⟩
    exact h mode selection hdraw
  · cases hlinks : (o.done p d).links with
    | true => simp [validated_of_links hlinks]
    | false => simp [(persists_undrawn h hlinks).validated]

/-- The calls that bind what is recorded neither validate nor draw. -/
theorem plain_of_binds {call : Call} (h : call.Binds) : call.validated? = none ∧ ¬ call.Draws := by
  cases call <;> first | exact ⟨rfl, id⟩ | cases h

theorem validated?_bindings (order : p.BindingOrder) :
    order.calls.filterMap Call.validated? = [] :=
  List.filterMap_eq_nil_iff.mpr fun _ h => (plain_of_binds (order.binds h)).1

theorem validated?_calls (call : DrawCall) (mode : DrawMode) :
    (call.calls mode).filterMap Call.validated? = [] := by
  cases call <;> rfl

theorem validated?_questions (count : Nat) :
    (List.replicate count Call.getError).filterMap Call.validated? = [] :=
  List.filterMap_replicate_of_none rfl

section Draws
variable {e : Done σ} {mode : DrawMode} {selection : Selection}

omit [Device σ] in
/-- The warning of a draw that validates. -/
theorem warnings_of_notes (hnodup : e.before.cache.unset.Nodup)
    (hnotes : Event.notes e.events = Event.notes e.before.validationEvents) :
    (e.before.cache.unset ≠ [] → ∃ names, e.warnings = [names] ∧
      (names.Pairwise fun a b => Text.Utf8.encode a < Text.Utf8.encode b) ∧
      ∀ name, name ∈ names ↔ name ∈ e.before.cache.unset) ∧
    (e.before.cache.unset = [] → e.warnings = []) := by
  rw [notes_validationEvents] at hnotes
  constructor
  · intro hsome
    rw [if_neg (by simpa using hsome)] at hnotes
    refine ⟨sortNames e.before.cache.unset, ?_, sortNames_pairwise hnodup, fun _ => mem_sortNames⟩
    rw [Done.warnings, hnotes]
    rfl
  · intro hnone
    rw [if_pos (by simpa using hnone)] at hnotes
    rw [Done.warnings, hnotes]
    rfl

/-- The first draw that gets to the device. -/
theorem validates_first {already : Prop} (before after : Nat) (hnodup : e.before.cache.unset.Nodup)
    (hoperation : e.operation = .draw mode selection) (hreaches : e.Reaches) (hnew : ¬ already)
    (hcalls : Event.calls e.events =
      List.replicate before .getError ++
        ((e.before.drawOrder e.device).calls ++ .validateProgram e.before.handle ::
          if e.before.valid e.device then
            (exactCall selection).calls mode ++ List.replicate after .getError
          else []))
    (hnotes : Event.notes e.events = Event.notes e.before.validationEvents)
    (houtcome : (∃ log, e.outcome = .error (.programValidation log)) ↔
      e.before.valid e.device = false)
    (hafter : e.after.cache.validated = true) : e.Validates already where
  validates := by
    intro _
    rw [Done.validations, hcalls]
    split <;> simp [validated?_questions, validated?_bindings, validated?_calls, Call.validated?]
  validates_not h := absurd ⟨hreaches, hnew⟩ h
  calls _ := ⟨mode, selection, before, after, hoperation, hcalls⟩
  warns _ hsome := (warnings_of_notes hnodup hnotes).1 hsome
  warns_not h := (warnings_of_notes hnodup hnotes).2 <| by
    by_contra hsome
    exact h ⟨hreaches, hnew, hsome⟩
  fails := by simp [houtcome, hreaches, hnew]
  fails_undrawn := by
    intro hfails call hcall
    rw [hcalls, if_neg (by simp [houtcome.mp hfails])] at hcall
    simp only [List.mem_append, List.mem_cons, List.not_mem_nil, or_false] at hcall
    rcases hcall with herror | hbind | rfl
    · cases List.eq_of_mem_replicate herror
      exact id
    · exact (plain_of_binds (BindingOrder.binds _ hbind)).2
    · exact id
  validated := by simp [hafter, hreaches, Done.links, hoperation]

/-- A draw of a program that has been validated already. -/
theorem validates_again {already : Prop} (before after : Nat)
    (hoperation : e.operation = .draw mode selection) (halready : already)
    (hcalls : Event.calls e.events = List.replicate before .getError ++
      ((e.before.drawOrder e.device).calls ++
        ((exactCall selection).calls mode ++ List.replicate after .getError)))
    (hnotes : Event.notes e.events = [])
    (houtcome : ∀ log, e.outcome ≠ .error (.programValidation log))
    (hafter : e.after.cache.validated = true) : e.Validates already where
  validates h := absurd halready h.2
  validates_not := by
    intro _
    rw [Done.validations, hcalls]
    simp [validated?_questions, validated?_bindings, validated?_calls]
  calls h := absurd halready h.2
  warns h := absurd halready h.2
  warns_not _ := by rw [Done.warnings, hnotes]; rfl
  fails := ⟨fun ⟨log, h⟩ => absurd h (houtcome log), fun h => absurd halready h.1.2⟩
  fails_undrawn := fun ⟨log, h⟩ => absurd h (houtcome log)
  validated := by simp [hafter, halready, Done.links, hoperation]

/-- A draw that has only asked for errors, if that. -/
theorem validates_unreached (count : Nat) (hoperation : e.operation = .draw mode selection)
    (hreaches : ¬ e.Reaches) (hevents : e.events = Event.questions count)
    (houtcome : ∀ log, e.outcome ≠ .error (.programValidation log)) (hafter : e.after = e.before) :
    e.Validates (e.before.cache.validated = true) := by
  refine validates_of_not_reaches hreaches ?_ ?_ houtcome ?_
  · rw [Done.validations, hevents, Event.calls_questions, validated?_questions]
  · rw [Done.warnings, hevents, Event.notes_questions]
    rfl
  · simp [hafter, Done.links, hoperation]

theorem validates_of_drawn {ran : Ran σ (Outcome Unit × Program)}
    (hnodup : e.before.cache.unset.Nodup) (hoperation : e.operation = .draw mode selection)
    (hvalue : ran.value = (e.outcome, e.after)) (hevents : ran.events = e.events)
    (h : e.before.Drawn mode selection e.device ran) :
    e.Validates (e.before.cache.validated = true) := by
  have hreaches : e.Reaches ↔ e.before.linked = true ∧ selection.count ≠ 0 ∧ selection.InRange ∧
      (Device.drain e.device).codes = [] := by
    constructor
    · rintro ⟨mode', selection', hoperation', hdraw⟩
      cases hoperation.symm.trans hoperation'
      exact hdraw
    · exact fun hdraw => ⟨mode, selection, hoperation, hdraw⟩
  cases h with
  | unlinked hlinked =>
    obtain ⟨houtcome, hafter⟩ := Prod.mk.inj hvalue
    refine validates_unreached 0 hoperation ?_ hevents.symm ?_ hafter.symm
    · simp [hreaches, hlinked]
    · simp [← houtcome]
  | empty hlinked hcount =>
    obtain ⟨houtcome, hafter⟩ := Prod.mk.inj hvalue
    refine validates_unreached 0 hoperation ?_ hevents.symm ?_ hafter.symm
    · simp [hreaches, hcount]
    · simp [← houtcome]
  | outOfRange hlinked hcount hrange what value =>
    obtain ⟨houtcome, hafter⟩ := Prod.mk.inj hvalue
    refine validates_unreached 0 hoperation ?_ hevents.symm ?_ hafter.symm
    · simp [hreaches, hrange]
    · simp [← houtcome]
  | erroneous hlinked hcount hrange hcodes =>
    obtain ⟨houtcome, hafter⟩ := Prod.mk.inj hvalue
    refine validates_unreached _ hoperation ?_ hevents.symm ?_ hafter.symm
    · simp [hreaches, hcodes]
    · simp [← houtcome]
  | invalid hlinked hcount hrange hcodes hnew hvalid log left =>
    obtain ⟨houtcome, hafter⟩ := Prod.mk.inj hvalue
    refine validates_first (Device.drain e.device).questions 0 hnodup hoperation
      (hreaches.mpr ⟨hlinked, hcount, hrange, hcodes⟩) (by simp [hnew]) ?_ ?_ ?_ ?_
    · simp [← hevents, calls_validationEvents, hvalid]
    · simp [← hevents]
    · simp [← houtcome, hvalid]
    · rw [← hafter]; rfl
  | drawn hlinked hcount hrange hcodes hvalid after =>
    obtain ⟨houtcome, hafter⟩ := Prod.mk.inj hvalue
    have hother : ∀ log, e.outcome ≠ .error (.programValidation log) := by
      intro log
      rw [← houtcome]
      split <;> simp
    have hchecked : e.after.cache.validated = true := by rw [← hafter]; rfl
    cases hnew : e.before.cache.validated with
    | true =>
      refine validates_again (Device.drain e.device).questions after.questions hoperation rfl
        ?_ ?_ hother hchecked
      · simp [← hevents, hnew]
      · simp [← hevents, hnew]
    | false =>
      refine validates_first (Device.drain e.device).questions after.questions hnodup hoperation
        (hreaches.mpr ⟨hlinked, hcount, hrange, hcodes⟩) (by simp) ?_ ?_ ?_ hchecked
      · simp [← hevents, hnew, calls_validationEvents, hvalid hnew]
      · simp [← hevents, hnew]
      · simp [hother, hvalid hnew]

theorem validates_draw (hnodup : p.cache.unset.Nodup) :
    ((Operation.draw mode selection).done p d).Validates (p.cache.validated = true) :=
  validates_of_drawn hnodup rfl rfl rfl (p.drawn mode selection d)

end Draws
end Operations

/-! ## Every past -/

section Past
variable [Device σ]

/-- What a program knows of its validation in this link. -/
structure Tracked (program : Handle) (since : List (Done σ)) (p : Program) : Prop where
  handle : p.handle = program
  unset : p.cache.unset.Nodup
  validated : p.cache.validated = true ↔ ∃ e ∈ since, e.Reaches
  /-- The program has been validated once if it knows so, and otherwise not at all. -/
  validations : since.flatMap Done.validations = if p.cache.validated then [program] else []

theorem validates (p : Program) (o : Operation) (d : σ) (hnodup : p.cache.unset.Nodup) :
    (o.done p d).Validates (p.cache.validated = true) := by
  cases o with
  | draw mode selection => exact validates_draw hnodup
  | setShaders | assign | activate | deactivate =>
    exact validates_undrawn fun mode selection h => by cases h

theorem handle_done (p : Program) (o : Operation) (d : σ) :
    (o.done p d).after.handle = p.handle := by
  cases o with
  | draw mode selection =>
    obtain ⟨validated, h⟩ := (p.within_draw mode selection).value d
    have hhandle := congrArg Program.handle h
    exact hhandle
  | setShaders | assign | activate | deactivate =>
    exact (within_perform_undrawn fun mode selection h => by cases h).value d

/-- Names of a link are there once. -/
theorem nodup_activeNames (declared : List Variable) : (activeNames declared).Nodup := by
  have hinsert : ∀ names front : List String, front.Nodup →
      (names.foldl (fun front name => front.insert name) front).Nodup := by
    intro names
    induction names with
    | nil => exact fun front h => h
    | cons name rest ih => exact fun front h => ih _ (h.insert)
  exact hinsert _ [] List.nodup_nil

theorem nodup_unset_done (p : Program) (o : Operation) (d : σ) (h : p.cache.unset.Nodup) :
    (o.done p d).after.cache.unset.Nodup := by
  cases hlinks : (o.done p d).links with
  | true =>
    rw [after_of_links hlinks]
    exact nodup_activeNames _
  | false =>
    cases o with
    | draw mode selection =>
      obtain ⟨validated, hafter⟩ := cache_of_not_links rfl hlinks
      rw [hafter]
      exact h
    | setShaders | assign | activate | deactivate =>
      exact h.sublist (persists_undrawn (fun mode selection h => by cases h) hlinks).unset

variable {program : Handle} {past : List (Done σ)} {p : Program}

theorem Tracked.done (h : Tracked program (sinceLink past) p) (o : Operation) (d : σ) :
    Tracked program (sinceLink (past ++ [o.done p d])) (o.done p d).after := by
  have hvalidates := validates p o d h.unset
  have hhandle := (handle_done p o d).trans h.handle
  have hunset := nodup_unset_done p o d h.unset
  have hbefore : (o.done p d).before = p := rfl
  generalize o.done p d = e at *
  cases hlinks : e.links with
  | true =>
    rw [sinceLink_of_links hlinks]
    have hvalidated : e.after.cache.validated = false := by
      simpa [hlinks] using hvalidates.validated
    exact ⟨hhandle, hunset, by simp [hvalidated], by simp [hvalidated]⟩
  | false =>
    rw [sinceLink_of_not_links hlinks]
    have hvalidated : e.after.cache.validated = true ↔ e.Reaches ∨ p.cache.validated = true := by
      simpa [hlinks] using hvalidates.validated
    refine ⟨hhandle, hunset, ?_, ?_⟩
    · rw [hvalidated, h.validated]
      simp [or_comm]
    · rw [List.flatMap_append, List.flatMap_singleton, h.validations]
      by_cases hfirst : e.Reaches ∧ ¬ p.cache.validated = true
      · rw [hvalidates.validates hfirst, if_neg hfirst.2, if_pos (hvalidated.mpr (.inl hfirst.1)),
          hbefore, h.handle]
        rfl
      · have hsame : e.after.cache.validated = p.cache.validated := by
          rw [Bool.eq_iff_iff, hvalidated]
          exact ⟨fun hor => by_contra fun hnew =>
            hfirst ⟨hor.resolve_right hnew, hnew⟩, .inr⟩
        rw [hvalidates.validates_not hfirst, hsame, List.append_nil]

theorem tracked_past (handle : Handle) (uses : List (Operation × σ)) :
    Tracked handle (sinceLink (Program.past { handle } uses)) (now { handle } uses) := by
  refine past_induction (p := { handle }) (fun past p => Tracked handle (sinceLink past) p)
    ⟨rfl, List.nodup_nil, ?_, rfl⟩ (fun past p o d h => h.done o d) uses
  constructor
  · intro hvalidated
    cases hvalidated
  · rintro ⟨e, he, -⟩
    cases he

/-- **A program is validated once a link.**  After any past, an operation does about validation
what it has to do according to whether a draw has got to the device since the last link that
succeeded, and since then the program has been validated at most once. -/
theorem validates_once_per_link (handle : Handle) (uses : List (Operation × σ)) (o : Operation)
    (d : σ) :
    (o.done (now { handle } uses) d).Validates
      (∃ e ∈ sinceLink (Program.past { handle } uses), e.Reaches) ∧
    ((sinceLink (Program.past { handle } uses)).flatMap Done.validations).length ≤ 1 ∧
    (now { handle } uses).handle = handle := by
  have htracked := tracked_past handle uses
  refine ⟨?_, ?_, htracked.handle⟩
  · rw [← htracked.validated]
    exact validates _ o d htracked.unset
  · rw [htracked.validations]
    split <;> simp

end Past
end Program
end DrawStream
