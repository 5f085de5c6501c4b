import DrawStream.Script

/-! # What a script is about

The requests to a device fall into topics.  `Script.Within topics post` says of a script
that, whatever a device answers, it puts no requests but those of the topics, and that its
value is as wanted.  The orders of tables are a topic too, and so are notes on missing variables
and the announcement of a command; a note on variables without a value belongs to the
validation.  Like `Script.Always` it is shown by going through the script; what is shown once
of an operation says of many things at a time that the operation has nothing to do with them.

What can be read off the requests of a run and their answers is collected by
`Script.gather`.  A script gathers nothing of topics that it does not touch
(`Script.Within.gather_eq_nil`), and what is gathered of the calls of a run is what stands
in its events (`Script.filterMap_calls_run`). -/
namespace DrawStream

/-- What an act is about. -/
inductive Topic
  /-- New buffers, textures and programs. -/
  | creation
  /-- Buffers, textures and programs that are given back. -/
  | deletion
  /-- Shaders and linking. -/
  | building
  /-- What a linked program consists of. -/
  | reporting
  /-- Whether something succeeded, and what the device has to say about it. -/
  | status
  /-- Locations by name. -/
  | lookup
  /-- Values of uniforms. -/
  | upload
  /-- What is current, active, bound or connected. -/
  | binding
  /-- Storage, data and how they are treated. -/
  | storage
  | validation
  | drawing
  | errors
  /-- The orders of tables. -/
  | order
  /-- Notes on variables that a program does not have. -/
  | missing
  /-- Notes on commands that are executed. -/
  | announcement
  deriving DecidableEq, Repr

/-- The topic of a request. -/
@[simp] def Request.topic : {β : Type} → Request β → Topic
  | _, .createProgram | _, .createBuffer | _, .createTexture => .creation
  | _, .deleteProgram _ | _, .deleteBuffer _ | _, .deleteTexture _ => .deletion
  | _, .createShader _ | _, .shaderSource .. | _, .compileShader _ | _, .attachShader ..
  | _, .detachShader .. | _, .deleteShader _ | _, .linkProgram _ => .building
  | _, .attributeCount _ | _, .activeAttribute .. | _, .uniformCount _
  | _, .activeUniform .. => .reporting
  | _, .linkStatus _ | _, .validateStatus _ | _, .programLog _ | _, .compileStatus _
  | _, .shaderLog _ => .status
  | _, .uniformLocation .. | _, .attributeLocation .. => .lookup
  | _, .uniformFloats .. | _, .uniformInts .. | _, .uniformMatrix .. | _, .uniformInt .. => .upload
  | _, .useProgram _ | _, .enableAttribute _ | _, .disableAttribute _ | _, .attributePointer ..
  | _, .attributeValue .. | _, .bindBuffer .. | _, .activeTexture _ | _, .bindTexture .. => .binding
  | _, .bufferStorage .. | _, .bufferWrite .. | _, .textureParameter .. | _, .textureStorage ..
  | _, .textureWrite .. | _, .pixelStore .. => .storage
  | _, .validateProgram _ => .validation
  | _, .drawArrays .. | _, .drawElements .. => .drawing
  | _, .takeError => .errors

/-- The variable that a note says a program does not have. -/
def Note.missing? : Note → Option String
  | .unknownVariable name _ | .skippedAttribute name => some name
  | _ => none

/-- The topic of a note.  Most notes have none. -/
def Note.topic? : Note → Option Topic
  | .unknownVariable .. | .skippedAttribute _ => some .missing
  | .unsetVariables _ => some .validation
  | .executing _ => some .announcement
  | _ => none

/-- The topic of an act. -/
def Act.topic? : {β : Type} → Act β → Option Topic
  | _, .request r => some r.topic
  | _, .drain => some .errors
  | _, .arrange => some .order
  | _, .note n => n.topic?

/-- What a rule reads off a request and its answer. -/
def Act.gather {γ σ : Type} [Device σ] (read : {β : Type} → Request β → β → Option γ) :
    {β : Type} → Act β → σ → List γ
  | _, .request r, d => (read r (Device.answer r d).1).toList
  | _, .drain, _ | _, .arrange, _ | _, .note _, _ => []

@[simp] theorem Event.notes_append (xs ys : List Event) :
    Event.notes (xs ++ ys) = Event.notes xs ++ Event.notes ys :=
  List.filterMap_append

namespace Script
variable {α γ : Type}

/-- Whatever the answers, the script keeps to the topics and `post` holds of its value. -/
def Within (topics : List Topic) (post : α → Prop) : Script α → Prop
  | .done a => post a
  | .ask act next =>
    (∀ t, act.topic? = some t → t ∈ topics) ∧ ∀ b, Within topics post (next b)

section Within
variable {topics topics' : List Topic} {post post' : α → Prop}

@[simp] theorem within_done (a : α) :
    Within topics post (Dialogue.done a : Script α) ↔ post a := Iff.rfl

theorem Within.mono {x : Script α} (h : x.Within topics post) (htopics : topics ⊆ topics')
    (hpost : ∀ a, post a → post' a) : x.Within topics' post' := by
  induction x with
  | done a => exact hpost a h
  | ask act next ih => exact ⟨fun t ht => htopics (h.1 t ht), fun b => ih b (h.2 b)⟩

@[simp] theorem within_bind {post : γ → Prop} (x : Script α) (f : α → Script γ) :
    Within topics post (Dialogue.bind x f) ↔
      x.Within topics fun a => (f a).Within topics post := by
  induction x with
  | done a => rfl
  | ask act next ih => exact and_congr_right fun _ => forall_congr' fun b => ih b

@[simp] theorem within_request {β : Type} (r : Request β) {post : β → Prop} :
    (request r).Within topics post ↔ r.topic ∈ topics ∧ ∀ b, post b := by
  constructor
  · exact fun h => ⟨h.1 _ rfl, h.2⟩
  · rintro ⟨htopic, hpost⟩
    refine ⟨fun t ht => ?_, hpost⟩
    cases ht
    exact htopic

@[simp] theorem within_note (n : Note) {post : Unit → Prop} :
    (note n).Within topics post ↔ (∀ t, n.topic? = some t → t ∈ topics) ∧ post () :=
  and_congr_right fun _ => ⟨fun h => h (), fun h _ => h⟩

theorem within_checkErrors {checkpoint : String} {post : Outcome Unit → Prop}
    (htopic : .errors ∈ topics) (hpost : ∀ outcome, post outcome) :
    (checkErrors checkpoint).Within topics post := by
  refine ⟨fun t ht => ?_, fun codes => hpost _⟩
  cases ht
  exact htopic

theorem within_arranged {entries : List γ} {post : List γ → Prop} (htopic : .order ∈ topics)
    (hpost : ∀ order, order.Perm entries → post order) :
    (arranged entries).Within topics post := by
  refine ⟨fun t ht => ?_, fun arrangement => hpost _ (arrangement.apply_perm entries)⟩
  cases ht
  exact htopic

/-- The value of a run is as wanted. -/
theorem Within.value {x : Script α} (h : x.Within topics post) {σ : Type} [Device σ] (d : σ) :
    post (x.run d).value := by
  induction x generalizing d with
  | done a => exact h
  | ask act next ih => exact ih _ (h.2 _) _

/-- What comes about in a run belongs to what the script is about. -/
theorem Within.forall_events {x : Script α} (h : x.Within topics post) (ok : Event → Prop)
    (hrequest : ∀ {β : Type} (r : Request β) (b : β), r.topic ∈ topics →
      ∀ c, Call.ofAnswer? r b = some c → ok (.call c))
    (hdrain : .errors ∈ topics → ok (.call .getError))
    (hnote : ∀ n : Note, (∀ t, n.topic? = some t → t ∈ topics) → ok (.note n))
    {σ : Type} [Device σ] (d : σ) : ∀ e ∈ (x.run d).events, ok e := by
  induction x generalizing d with
  | done a =>
    intro e he
    cases he
  | ask act next ih =>
    intro e he
    refine (List.mem_append.mp he).elim (fun hfirst => ?_) fun hrest => ih _ (h.2 _) _ e hrest
    cases act with
    | request r =>
      obtain ⟨c, hc, rfl⟩ := List.mem_map.mp hfirst
      exact hrequest r _ (h.1 _ rfl) c (Option.mem_toList.mp hc)
    | drain =>
      cases List.eq_of_mem_replicate hfirst
      exact hdrain (h.1 _ rfl)
    | arrange => cases hfirst
    | note n =>
      cases List.mem_singleton.mp hfirst
      exact hnote n h.1

/-- The calls of a run are those of requests that the script may put. -/
theorem Within.forall_calls {x : Script α} (h : x.Within topics post) {ok : Call → Prop}
    (hrequest : ∀ {β : Type} (r : Request β) (b : β), r.topic ∈ topics →
      ∀ c, Call.ofAnswer? r b = some c → ok c)
    (hdrain : .errors ∈ topics → ok .getError) {σ : Type} [Device σ] (d : σ) :
    ∀ c ∈ Event.calls (x.run d).events, ok c := by
  intro c hc
  obtain ⟨e, he, hcall⟩ := List.mem_filterMap.mp hc
  cases e with
  | note n => cases hcall
  | call c' =>
    cases hcall
    exact h.forall_events (fun e => ∀ c, e = .call c → ok c)
      (fun r b htopic c hc c' heq => by cases heq; exact hrequest r b htopic c hc)
      (fun htopic c heq => by cases heq; exact hdrain htopic)
      (fun n _ c heq => by cases heq) d _ he c rfl

/-- The notes of a run are those that the script may leave. -/
theorem Within.forall_notes {x : Script α} (h : x.Within topics post) {ok : Note → Prop}
    (hnote : ∀ n : Note, (∀ t, n.topic? = some t → t ∈ topics) → ok n)
    {σ : Type} [Device σ] (d : σ) : ∀ n ∈ Event.notes (x.run d).events, ok n := by
  intro n hn
  obtain ⟨e, he, hleft⟩ := List.mem_filterMap.mp hn
  cases e with
  | call c => cases hleft
  | note n' =>
    cases hleft
    exact h.forall_events (fun e => ∀ n, e = .note n → ok n)
      (fun r b _ c _ n heq => by cases heq) (fun _ n heq => by cases heq)
      (fun n htopics n' heq => by cases heq; exact hnote n htopics) d _ he n rfl

/-- A script that leaves no notes on missing variables. -/
theorem Within.missing_eq_nil {x : Script α} (h : x.Within topics post)
    (htopics : .missing ∉ topics) {σ : Type} [Device σ] (d : σ) :
    (Event.notes (x.run d).events).filterMap Note.missing? = [] := by
  refine List.filterMap_eq_nil_iff.mpr (h.forall_notes (fun n hn => ?_) d)
  cases n with
  | unknownVariable | skippedAttribute => exact absurd (hn _ rfl) htopics
  | _ => rfl

end Within

/-! ## Gathering -/

/-- What a rule reads off the requests of a run and their answers, in order.  Questions for
errors are left out. -/
def gather {σ : Type} [Device σ] (read : {β : Type} → Request β → β → Option γ) :
    Script α → σ → List γ
  | .done _, _ => []
  | .ask act next, d =>
    act.gather read d ++ gather read (next (act.perform d).value) (act.perform d).device

section Gather
variable {σ : Type} [Device σ] (read : {β : Type} → Request β → β → Option γ) (d : σ)

@[simp] theorem gather_done (a : α) : gather read (Dialogue.done a : Script α) d = [] := rfl

@[simp] theorem gather_request {β : Type} (r : Request β) :
    gather read (request r) d = (read r (Device.answer r d).1).toList := List.append_nil _

@[simp] theorem gather_note (n : Note) : gather read (note n) d = [] := rfl

theorem gather_bind {δ : Type} (x : Script α) (f : α → Script δ) :
    gather read (Dialogue.bind x f) d =
      gather read x d ++ gather read (f (x.run d).value) (x.run d).device := by
  induction x generalizing d with
  | done a => rfl
  | ask act next ih =>
    simp only [Dialogue.ask_bind, gather, run_ask, ih, List.append_assoc]

variable {read} in
/-- Nothing is gathered of topics that a script does not touch. -/
theorem Within.gather_eq_nil {topics : List Topic} {post : α → Prop} {x : Script α}
    (h : x.Within topics post)
    (hread : ∀ {β : Type} (r : Request β) (b : β), r.topic ∈ topics → read r b = none) :
    gather read x d = [] := by
  induction x generalizing d with
  | done a => rfl
  | ask act next ih =>
    have hrest := ih (act.perform d).value (act.perform d).device (h.2 _)
    cases act with
    | request r =>
      have hfirst := hread r (Device.answer r d).1 (h.1 _ rfl)
      rw [gather, hrest, Act.gather, hfirst]
      rfl
    | drain | arrange | note n => exact hrest

variable {read} in
/-- Nothing is gathered that is only read off requests of a topic that a script does not
touch. -/
theorem Within.gather_of_not_mem {topics : List Topic} {post : α → Prop} {x : Script α}
    (h : x.Within topics post) {topic : Topic} (htopic : topic ∉ topics)
    (hread : ∀ {β : Type} (r : Request β) (b : β), r.topic ≠ topic → read r b = none) :
    gather read x d = [] :=
  h.gather_eq_nil d fun r b hmem => hread r b fun heq => htopic (heq ▸ hmem)

variable {read} in
/-- What is read off in a second step. -/
theorem gather_eq_map {δ : Type} {f : γ → δ}
    {read' : {β : Type} → Request β → β → Option δ}
    (hread : ∀ {β : Type} (r : Request β) (b : β), read' r b = (read r b).map f)
    (x : Script α) : gather read' x d = (gather read x d).map f := by
  induction x generalizing d with
  | done a => rfl
  | ask act next ih =>
    rw [gather, gather, ih, List.map_append]
    congr 1
    cases act with
    | request r =>
      rw [Act.gather, Act.gather, hread]
      cases read r (Device.answer r d).1 <;> rfl
    | drain | arrange | note n => rfl

/-- What is read off the calls of a run can be gathered from its requests. -/
theorem filterMap_calls_run (f : Call → Option γ) (herror : f .getError = none) (x : Script α) :
    (Event.calls (x.run d).events).filterMap f =
      gather (fun r b => (Call.ofAnswer? r b).bind f) x d := by
  induction x generalizing d with
  | done a => rfl
  | ask act next ih =>
    rw [run_ask, Event.calls_append, List.filterMap_append, ih, gather]
    congr 1
    cases act with
    | request r =>
      change (Event.calls ((Call.ofAnswer? r (Device.answer r d).1).toList.map .call)).filterMap f =
        ((Call.ofAnswer? r (Device.answer r d).1).bind f).toList
      cases Call.ofAnswer? r (Device.answer r d).1 with
      | none => rfl
      | some c => cases hf : f c <;> simp [Event.calls, hf]
    | drain =>
      -- Asking for errors leaves calls, but none of which anything is read off.
      refine List.filterMap_eq_nil_iff.mpr ?_
      intro c hc
      obtain ⟨e, he, hcall⟩ := List.mem_filterMap.mp hc
      cases List.eq_of_mem_replicate he
      cases hcall
      exact herror
    | arrange | note n => rfl

end Gather
end Script
end DrawStream
