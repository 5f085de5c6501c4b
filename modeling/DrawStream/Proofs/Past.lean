import Mathlib.Data.List.DropRight
import Mathlib.Data.List.Induction
import DrawStream.Proofs.Concerns

/-! # The past of a program

Whatever can be done with a program is an `Operation`, and a `Done` is an operation with
what has become of it: the outcome, the program and the device afterwards, what came about,
and which answers the device gave to questions for locations and for variables.

The `past` of a program are the operations done with it, each on a device in a state of its
own: between two operations the device may have been used for other things, or be another
one altogether.  So what is shown of every past holds of a program whatever else happens.
Most of it is about the operations since the last successful link (`sinceLink`), and is
shown by adding one operation after the other (`past_induction`). -/
namespace DrawStream
namespace Program

/-- Something that is done with a program.  Attaching a texture `t` to a sampler is an
assignment of `Texture.target` and `t.handle`. -/
inductive Operation
  | setShaders (vertex fragment : String)
  | assign (a : Assignment)
  | draw (mode : DrawMode) (selection : Selection)
  | activate
  | deactivate

namespace Operation

/-- Does something with a program. -/
def perform (p : Program) : Operation → Script (Outcome Unit × Program)
  | setShaders vertex fragment => p.setShaders vertex fragment
  | assign a => a.perform p
  | draw mode selection => p.draw mode selection
  | activate => do
    p.activate
    return (.ok (), p)
  | deactivate => do
    p.deactivate
    return (.ok (), p)

/-- The variable that is set, if one is. -/
def assignment? : Operation → Option Assignment
  | assign a => some a
  | setShaders .. | draw .. | activate | deactivate => none

end Operation

/-- A location that was asked for, with the answer. -/
structure Query where
  kind : VariableKind
  name : String
  location : Int
  deriving DecidableEq

end Program

/-- The question for a location that a request is. -/
def Request.query? : {β : Type} → Request β → β → Option Program.Query
  | _, .uniformLocation _ name, location => some ⟨.uniform, name, location⟩
  | _, .attributeLocation _ name, location => some ⟨.attribute, name, location⟩
  | _, _, _ => none

/-- The variable that is reported in answer to a request. -/
def Request.report? : {β : Type} → Request β → β → Option Variable
  | _, .activeAttribute .., v | _, .activeUniform .., v => some v
  | _, _, _ => none

/-- The name that a call looks up. -/
def Call.lookedUp? : Call → Option String
  | .uniformLocation name | .attributeLocation name => some name
  | _ => none

/-- The location that a call uploads a value to. -/
def Call.uploadedTo? : Call → Option Int
  | .uniformFloats location .. | .uniformInts location .. | .uniformMatrix location ..
  | .uniformInt location _ => some location
  | _ => none

namespace Program
variable {σ : Type}

/-- An operation that has been done. -/
structure Done (σ : Type) where
  operation : Operation
  /-- The program before. -/
  before : Program
  /-- The device before. -/
  device : σ
  outcome : Outcome Unit
  /-- The program afterwards. -/
  after : Program
  /-- The device afterwards. -/
  left : σ
  events : List Event
  /-- The locations that were asked for. -/
  queries : List Query
  /-- The variables that were reported. -/
  reports : List Variable

namespace Done
variable (d : Done σ)

/-- A successful link. -/
def links : Bool :=
  match d.operation, d.outcome with
  | .setShaders .., .ok () => true
  | _, _ => false

/-- The names that were looked up. -/
def lookups : List String := (Event.calls d.events).filterMap Call.lookedUp?

/-- The names that were noted as missing. -/
def missing : List String := (Event.notes d.events).filterMap Note.missing?

/-- The locations that values were uploaded to. -/
def uploads : List Int := (Event.calls d.events).filterMap Call.uploadedTo?

end Done

section Past
variable [Device σ]

/-- Does something with a program on a device. -/
def Operation.done (p : Program) (d : σ) (o : Operation) : Done σ :=
  { operation := o
    before := p
    device := d
    outcome := ((o.perform p).run d).value.1
    after := ((o.perform p).run d).value.2
    left := ((o.perform p).run d).device
    events := ((o.perform p).run d).events
    queries := (o.perform p).gather Request.query? d
    reports := (o.perform p).gather Request.report? d }

/-- Operations done one after the other, each on the device as it is then. -/
def past (p : Program) : List (Operation × σ) → List (Done σ)
  | [] => []
  | (o, d) :: rest => o.done p d :: past (o.done p d).after rest

/-- The program after operations. -/
def now (p : Program) : List (Operation × σ) → Program
  | [] => p
  | (o, d) :: rest => now (o.done p d).after rest

variable (p : Program) (uses : List (Operation × σ)) (o : Operation) (d : σ)

theorem now_concat : p.now (uses ++ [(o, d)]) = (o.done (p.now uses) d).after := by
  induction uses generalizing p with
  | nil => rfl
  | cons use rest ih => exact ih _

theorem past_concat :
    p.past (uses ++ [(o, d)]) = p.past uses ++ [o.done (p.now uses) d] := by
  induction uses generalizing p with
  | nil => rfl
  | cons use rest ih => exact congrArg (_ :: ·) (ih _)

/-- Operations done on one device that nothing else is done with. -/
def course (p : Program) (d : σ) : List Operation → List (Operation × σ)
  | [] => []
  | o :: rest => (o, d) :: course (o.done p d).after (o.done p d).left rest

/-- The device after such operations. -/
def courseEnd (p : Program) (d : σ) : List Operation → σ
  | [] => d
  | o :: rest => courseEnd (o.done p d).after (o.done p d).left rest

theorem operations_course (operations : List Operation) :
    (p.course d operations).map Prod.fst = operations := by
  induction operations generalizing p d with
  | nil => rfl
  | cons o rest ih => exact congrArg (o :: ·) (ih _ _)

/-- Whatever has been done was done with the program as it was then. -/
theorem exists_of_mem_past {p : Program} {uses : List (Operation × σ)} {e : Done σ}
    (he : e ∈ p.past uses) : ∃ p' o d, e = Operation.done p' d o := by
  induction uses generalizing p with
  | nil => cases he
  | cons use rest ih =>
    rcases List.mem_cons.mp he with rfl | hrest
    · exact ⟨p, use.1, use.2, rfl⟩
    · exact ih hrest

/-- What has been done are the operations, each on its device. -/
theorem map_past : (p.past uses).map (fun e => (e.operation, e.device)) = uses := by
  induction uses generalizing p with
  | nil => rfl
  | cons use rest ih => exact congrArg (use :: ·) (ih _)

/-- Whatever has been done is one of the operations. -/
theorem exists_use_of_mem_past {p : Program} {uses : List (Operation × σ)} {e : Done σ}
    (he : e ∈ p.past uses) : ∃ q o d, (o, d) ∈ uses ∧ e = Operation.done q d o := by
  obtain ⟨q, o, d, rfl⟩ := exists_of_mem_past he
  refine ⟨q, o, d, ?_, rfl⟩
  rw [← map_past p uses]
  exact List.mem_map_of_mem he

/-- And every operation has been done. -/
theorem exists_mem_past_of_use {o : Operation} (h : o ∈ uses.map Prod.fst) :
    ∃ e ∈ p.past uses, e.operation = o := by
  obtain ⟨use, huse, rfl⟩ := List.mem_map.mp h
  rw [← map_past p uses] at huse
  obtain ⟨e, he, rfl⟩ := List.mem_map.mp huse
  exact ⟨e, he, rfl⟩

/-- What holds of a program at first and is kept by every operation holds after any past. -/
theorem past_induction {p : Program} (Inv : List (Done σ) → Program → Prop) (hnil : Inv [] p)
    (hstep : ∀ past p (o : Operation) d, Inv past p →
      Inv (past ++ [o.done p d]) (o.done p d).after)
    (uses : List (Operation × σ)) : Inv (p.past uses) (p.now uses) := by
  induction uses using List.reverseRecOn with
  | nil => exact hnil
  | append_singleton uses use ih =>
    obtain ⟨o, d⟩ := use
    rw [past_concat, now_concat]
    exact hstep _ _ o d ih

end Past

/-! ## Since the last link -/

/-- The operations since the last successful link, or from the beginning. -/
def sinceLink (past : List (Done σ)) : List (Done σ) := past.rtakeWhile fun d => !d.links

theorem mem_of_mem_sinceLink {past : List (Done σ)} {e : Done σ} (h : e ∈ sinceLink past) :
    e ∈ past :=
  (List.rtakeWhile_suffix _ past).subset h

/-- The last successful link. -/
def lastLink? (past : List (Done σ)) : Option (Done σ) := past.reverse.find? Done.links

section Since
variable {past : List (Done σ)} {d : Done σ}

theorem sinceLink_of_links (h : d.links = true) : sinceLink (past ++ [d]) = [] := by
  rw [sinceLink, List.rtakeWhile_concat_neg]
  simp [h]

theorem sinceLink_of_not_links (h : d.links = false) :
    sinceLink (past ++ [d]) = sinceLink past ++ [d] := by
  rw [sinceLink, List.rtakeWhile_concat_pos]
  · rfl
  · simp [h]

theorem lastLink?_of_links (h : d.links = true) : lastLink? (past ++ [d]) = some d := by
  simp [lastLink?, h]

theorem lastLink?_of_not_links (h : d.links = false) :
    lastLink? (past ++ [d]) = lastLink? past := by
  simp [lastLink?, h]

/-- A link that was not followed by another was the last one. -/
theorem lastLink_cons {rest : List (Done σ)} (h : d.links = true)
    (hrest : ∀ e ∈ rest, e.links = false) :
    sinceLink (d :: rest) = rest ∧ lastLink? (d :: rest) = some d := by
  induction rest using List.reverseRecOn with
  | nil =>
    rw [← List.nil_append [d]]
    exact ⟨sinceLink_of_links h, lastLink?_of_links h⟩
  | append_singleton rest e ih =>
    obtain ⟨hrest, hnot⟩ := List.forall_mem_append.mp hrest
    obtain ⟨hsince, hlast⟩ := ih hrest
    specialize hnot e List.mem_cons_self
    rw [← List.cons_append, sinceLink_of_not_links hnot, lastLink?_of_not_links hnot, hsince]
    exact ⟨rfl, hlast⟩

end Since

/-- The locations that were asked for. -/
def queries (dones : List (Done σ)) : List Query := dones.flatMap Done.queries

/-- The names that were looked up. -/
def lookups (dones : List (Done σ)) : List String := dones.flatMap Done.lookups

/-- A name was found to have a location. -/
def Located (asked : List Query) (name : String) : Prop :=
  ∃ q ∈ asked, q.name = name ∧ 0 ≤ q.location

/-- The names that were noted as missing. -/
def missings (dones : List (Done σ)) : List String := dones.flatMap Done.missing

@[simp] theorem queries_nil : queries ([] : List (Done σ)) = [] := rfl

@[simp] theorem queries_concat (dones : List (Done σ)) (d : Done σ) :
    queries (dones ++ [d]) = queries dones ++ d.queries := by
  simp [queries]

@[simp] theorem missings_concat (dones : List (Done σ)) (d : Done σ) :
    missings (dones ++ [d]) = missings dones ++ d.missing := by
  simp [missings]

/-! ## What an operation asks for -/

section Done
variable [Device σ] (p : Program) (o : Operation) (d : σ)

theorem query?_eq_none {β : Type} (r : Request β) (b : β) (h : r.topic ≠ .lookup) :
    r.query? b = none := by
  cases r <;> first | rfl | exact absurd rfl h

theorem report?_eq_none {β : Type} (r : Request β) (b : β) (h : r.topic ≠ .reporting) :
    r.report? b = none := by
  cases r <;> first | rfl | exact absurd rfl h

theorem lookedUp?_eq_query? {β : Type} (r : Request β) (b : β) :
    (Call.ofAnswer? r b).bind Call.lookedUp? = (r.query? b).map Query.name := by
  cases r <;> rfl

/-- The calls of an operation look up what is asked for. -/
theorem lookups_done : (o.done p d).lookups = (o.done p d).queries.map Query.name := by
  refine (Script.filterMap_calls_run d Call.lookedUp? rfl _).trans ?_
  exact Script.gather_eq_map d lookedUp?_eq_query? _

theorem lookups_eq_queries {p : Program} {uses : List (Operation × σ)} {dones : List (Done σ)}
    (h : ∀ e ∈ dones, e ∈ p.past uses) : lookups dones = (queries dones).map Query.name := by
  rw [lookups, queries, List.map_flatMap]
  refine List.flatMap_congr fun e he => ?_
  obtain ⟨p', o, d, rfl⟩ := exists_of_mem_past (h e he)
  exact lookups_done p' o d

end Done
end Program
end DrawStream
