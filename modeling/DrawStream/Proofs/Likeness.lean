import Mathlib.Data.List.Forall2
import DrawStream.Proofs.Concerns
import DrawStream.Proofs.Orders

/-! # When two scripts go the same way

Two devices that tell a script the same may still number their programs and shaders in ways of
their own.  A `Pairing` says which numbers of the one stand for which of the other, and two
scripts are alike under it (`Script.Alike`) if they put alike requests and go on alike,
whatever they are answered, as long as both are answered the same and new shaders get numbers
that the pairing pairs.  Each may bind what is recorded for a program in an order of its own.  So
likeness does not depend on devices; it is shown by going through two scripts side by side, and
`Script.Alike.bind` puts the parts together.

Two runs of alike scripts on devices that tell them the same (`Script.told`) come to alike
values and leave the same events, up to the numbers and bar the order of bindings
(`Script.Alike.run`).  The pairing is
fixed for the whole run, and the shaders that two runs create are paired one by one in the
order of their creation (`Pairing.ofEvents`). -/
namespace DrawStream

/-! ## Numbers in events -/

/-- The number of a program or a shader where it is mentioned. -/
inductive Mention
  | program (handle : Handle)
  | shader (handle : Handle)
  deriving DecidableEq

namespace Call

/-- The programs and shaders that a call mentions. -/
def mentions : Call → List Mention
  | createProgram p | deleteProgram p | useProgram p | linkProgram p | validateProgram p =>
    [.program p]
  | createShader _ s | shaderSource s | compileShader s | deleteShader s => [.shader s]
  | attachShader p s | detachShader p s => [.program p, .shader s]
  | _ => []

/-- The call without the numbers of programs and shaders. -/
def blank : Call → Call
  | createProgram _ => createProgram 0
  | deleteProgram _ => deleteProgram 0
  | useProgram _ => useProgram 0
  | linkProgram _ => linkProgram 0
  | validateProgram _ => validateProgram 0
  | createShader stage _ => createShader stage 0
  | shaderSource _ => shaderSource 0
  | compileShader _ => compileShader 0
  | attachShader _ _ => attachShader 0 0
  | detachShader _ _ => detachShader 0 0
  | deleteShader _ => deleteShader 0
  | c => c

/-- The shader that a call creates. -/
def newShader? : Call → Option Handle
  | createShader _ s => some s
  | _ => none

end Call

namespace Event

/-- The programs and shaders that an event mentions. -/
def mentions : Event → List Mention
  | call c => c.mentions
  | note (.linked p _) => [.program p]
  | note _ => []

/-- The event without the numbers of programs and shaders. -/
def blank : Event → Event
  | call c => call c.blank
  | note (.linked _ count) => note (.linked 0 count)
  | note n => note n

/-- The shaders that are created in the course of events, in order. -/
def newShaders (events : List Event) : List Handle := (calls events).filterMap Call.newShader?

theorem newShaders_append (xs ys : List Event) :
    newShaders (xs ++ ys) = newShaders xs ++ newShaders ys := by
  simp only [newShaders, calls_append, List.filterMap_append]

end Event

/-- Numbers of one run and those of another that stand for the same. -/
structure Pairing where
  program : Handle
  /-- What `program` is in the other run. -/
  program' : Handle
  shaders : Handle → Handle → Prop

namespace Pairing

/-- Mentions of the same.  Zero is the number of no program in either run. -/
inductive Pairs (π : Pairing) : Mention → Mention → Prop
  | program : Pairs π (.program π.program) (.program π.program')
  | noProgram : Pairs π (.program 0) (.program 0)
  | shader {s s' : Handle} (h : π.shaders s s') : Pairs π (.shader s) (.shader s')

/-- Events that are the same up to the numbers. -/
structure Matches (π : Pairing) (xs ys : List Event) : Prop where
  blank : xs.map Event.blank = ys.map Event.blank
  mentions : List.Forall₂ π.Pairs (xs.flatMap Event.mentions) (ys.flatMap Event.mentions)

/-- Events that are the same up to the numbers, bar the order of bindings. -/
def MatchesBarOrder (π : Pairing) (xs ys : List Event) : Prop :=
  ∃ zs, BarOrder Event.call xs zs ∧ π.Matches zs ys

/-- A program is paired with another one, and the shaders with those created at the same time. -/
def ofEvents (program program' : Handle) (xs ys : List Event) : Pairing where
  program
  program'
  shaders s s' := (s, s') ∈ (Event.newShaders xs).zip (Event.newShaders ys)

variable {π : Pairing} {xs xs' ys ys' : List Event}

theorem Matches.nil : π.Matches [] [] := ⟨rfl, .nil⟩

theorem Matches.append (h : π.Matches xs ys) (h' : π.Matches xs' ys') :
    π.Matches (xs ++ xs') (ys ++ ys') := by
  constructor
  · simp only [List.map_append, h.blank, h'.blank]
  · simp only [List.flatMap_append]
    exact List.rel_append h.mentions h'.mentions

/-- Events that mention nothing match themselves. -/
theorem Matches.same (h : xs.flatMap Event.mentions = []) : π.Matches xs xs :=
  ⟨rfl, h ▸ .nil⟩

theorem Matches.barOrder (h : π.Matches xs ys) : π.MatchesBarOrder xs ys := ⟨xs, .refl xs, h⟩

theorem MatchesBarOrder.append (h : π.MatchesBarOrder xs ys) (h' : π.MatchesBarOrder xs' ys') :
    π.MatchesBarOrder (xs ++ xs') (ys ++ ys') := by
  obtain ⟨zs, horder, hmatches⟩ := h
  obtain ⟨zs', horder', hmatches'⟩ := h'
  exact ⟨zs ++ zs', horder.append horder', hmatches.append hmatches'⟩

/-- The calls of bindings mention nothing but the program. -/
theorem mentions_bindings {p : Program} (order : p.BindingOrder) :
    (order.calls.map .call).flatMap Event.mentions = [.program p.handle] := by
  have hsampler : ∀ s : Sampler, (s.calls.map Event.call).flatMap Event.mentions = [] :=
    fun _ => rfl
  have hattribute : ∀ a : Attribute, (a.calls.map Event.call).flatMap Event.mentions = [] := by
    intro a
    unfold Attribute.calls
    split <;> rfl
  simp only [Program.BindingOrder.calls, List.map_cons, List.map_append, List.map_flatMap,
    List.flatMap_cons, List.flatMap_append, List.flatMap_assoc, hsampler, hattribute]
  simp [Event.mentions, Call.mentions]

theorem newShaders_bindings {p : Program} (order : p.BindingOrder) :
    Event.newShaders (order.calls.map .call) = [] := by
  rw [Event.newShaders, Event.calls_map_call]
  refine List.filterMap_eq_nil_iff.mpr fun call hcall => ?_
  have hbinds := order.binds hcall
  cases call <;> first | rfl | cases hbinds

/-- The calls of bindings apart from the program. -/
theorem blank_bindings {p : Program} (order : p.BindingOrder) :
    (order.calls.map .call).map Event.blank = .call (.useProgram 0) ::
      (order.samplers.flatMap Sampler.calls ++
        order.attributes.flatMap Attribute.calls).map .call := by
  have hsampler : ∀ s : Sampler, (s.calls.map Event.call).map Event.blank = s.calls.map .call :=
    fun _ => rfl
  have hattribute : ∀ a : Attribute,
      (a.calls.map Event.call).map Event.blank = a.calls.map .call := by
    intro a
    unfold Attribute.calls
    split <;> rfl
  simp only [Program.BindingOrder.calls, List.map_cons, List.map_append, List.map_flatMap,
    hsampler, hattribute]
  rfl

/-- Programs with the same bindings make them alike, each in an order of its own. -/
theorem matches_bindings {p q : Program} (hpairs : π.Pairs (.program p.handle) (.program q.handle))
    (hcache : q.cache = p.cache) (order : p.BindingOrder) (order' : q.BindingOrder) :
    π.MatchesBarOrder (order.calls.map .call) (order'.calls.map .call) := by
  obtain ⟨samplers, attributes, hsamplers, hattributes⟩ := order'
  -- The program that is paired could have made its bindings in the order of the other one.
  let moved : p.BindingOrder := ⟨samplers, attributes, hcache ▸ hsamplers, hcache ▸ hattributes⟩
  refine ⟨moved.calls.map .call, .of_bindings order moved, ?_, ?_⟩
  · rw [blank_bindings, blank_bindings]
  · rw [mentions_bindings, mentions_bindings]
    exact .cons hpairs .nil

end Pairing

/-! ## What a device tells -/

/-- Something that a device tells a script.  The numbers of new objects are not of this kind. -/
inductive Told
  | verdict (good : Bool)
  | log (text : String)
  | count (n : Nat)
  | variable (v : Variable)
  | location (location : Int)
  /-- What came of asking for errors, and how often the device was asked. -/
  | errors (codes : List Nat) (questions : Nat)
  deriving DecidableEq

namespace Request

/-- The request is answered with the number of a new object. -/
def isCreation : {β : Type} → Request β → Bool
  | _, .createProgram | _, .createShader _ | _, .createBuffer | _, .createTexture => true
  | _, _ => false

/-- What a device tells with an answer. -/
def told? : {β : Type} → Request β → β → Option Told
  | _, .linkStatus _, good | _, .validateStatus _, good | _, .compileStatus _, good =>
    some (.verdict good)
  | _, .programLog _, text | _, .shaderLog _, text => some (.log text)
  | _, .attributeCount _, n | _, .uniformCount _, n => some (.count n)
  | _, .activeAttribute .., v | _, .activeUniform .., v => some (.variable v)
  | _, .uniformLocation .., location | _, .attributeLocation .., location =>
    some (.location location)
  | _, .takeError, code => some (.errors [code] 1)
  | _, _, _ => none

/-- The programs and shaders that a request mentions. -/
def mentions : {β : Type} → Request β → List Mention
  | _, .deleteProgram p | _, .useProgram p | _, .linkProgram p | _, .linkStatus p
  | _, .validateProgram p | _, .validateStatus p | _, .programLog p | _, .attributeCount p
  | _, .activeAttribute p _ | _, .uniformCount p | _, .activeUniform p _
  | _, .uniformLocation p _ | _, .attributeLocation p _ => [.program p]
  | _, .shaderSource s _ | _, .compileShader s | _, .compileStatus s | _, .shaderLog s
  | _, .deleteShader s => [.shader s]
  | _, .attachShader p s | _, .detachShader p s => [.program p, .shader s]
  | _, _ => []

/-- The request without the numbers of programs and shaders. -/
def blank : {β : Type} → Request β → Request β
  | _, .deleteProgram _ => .deleteProgram 0
  | _, .useProgram _ => .useProgram 0
  | _, .linkProgram _ => .linkProgram 0
  | _, .linkStatus _ => .linkStatus 0
  | _, .validateProgram _ => .validateProgram 0
  | _, .validateStatus _ => .validateStatus 0
  | _, .programLog _ => .programLog 0
  | _, .shaderSource _ source => .shaderSource 0 source
  | _, .compileShader _ => .compileShader 0
  | _, .compileStatus _ => .compileStatus 0
  | _, .shaderLog _ => .shaderLog 0
  | _, .attachShader _ _ => .attachShader 0 0
  | _, .detachShader _ _ => .detachShader 0 0
  | _, .deleteShader _ => .deleteShader 0
  | _, .attributeCount _ => .attributeCount 0
  | _, .activeAttribute _ index => .activeAttribute 0 index
  | _, .uniformCount _ => .uniformCount 0
  | _, .activeUniform _ index => .activeUniform 0 index
  | _, .uniformLocation _ name => .uniformLocation 0 name
  | _, .attributeLocation _ name => .attributeLocation 0 name
  | _, r => r

/-- The events of a request that was answered so. -/
def events {β : Type} (r : Request β) (b : β) : List Event :=
  (Call.ofAnswer? r b).toList.map .call

/-- Requests that differ in the numbers at most, and do not ask for new ones. -/
structure Alike (π : Pairing) {β : Type} (r r' : Request β) : Prop where
  old : r.isCreation = false
  blank : r.blank = r'.blank
  mentions : List.Forall₂ π.Pairs r.mentions r'.mentions

section Answer
variable {β : Type} (r : Request β) (b b' : β)

theorem isCreation_blank : r.blank.isCreation = r.isCreation := by
  cases r <;> rfl

theorem told?_blank : r.blank.told? b = r.told? b := by
  cases r <;> rfl

theorem blank_events :
    (r.events b).map Event.blank = (r.blank.events b).map Event.blank := by
  cases r <;> rfl

/-- Whether a device tells anything does not depend on the answer. -/
theorem isSome_told? : (r.told? b).isSome = (r.told? b').isSome := by
  cases r <;> rfl

variable {r}

/-- Calls that get something told leave out whose it is. -/
theorem mentions_events (h : r.isCreation = false) :
    (r.events b).flatMap Event.mentions = if (r.told? b).isSome then [] else r.mentions := by
  cases r with
  | createProgram | createShader | createBuffer | createTexture => cases h
  | _ => rfl

theorem newShaders_events (h : r.isCreation = false) : Event.newShaders (r.events b) = [] := by
  cases r with
  | createShader => cases h
  | _ => rfl

/-- An answer that is no new number is known by what it tells. -/
theorem eq_of_told? {b b' : β} (h : r.isCreation = false) (htold : r.told? b = r.told? b') :
    b = b' := by
  cases r with
  | createProgram | createShader | createBuffer | createTexture => cases h
  | _ => first | rfl | simpa [told?] using htold

end Answer

section Alike
variable {π : Pairing} {β : Type} {r r' : Request β}

/-- A request that mentions nothing is like itself. -/
theorem Alike.same (hold : r.isCreation = false) (h : r.mentions = []) : r.Alike π r :=
  ⟨hold, rfl, h ▸ .nil⟩

theorem Alike.old' (h : r.Alike π r') : r'.isCreation = false := by
  rw [← isCreation_blank, ← h.blank, isCreation_blank, h.old]

/-- Alike requests are told the same by the same answer. -/
theorem Alike.told? (h : r.Alike π r') (b : β) : r.told? b = r'.told? b := by
  rw [← told?_blank, h.blank, told?_blank]

/-- Alike requests with the same answer leave the same events, up to the numbers. -/
theorem Alike.events (h : r.Alike π r') (b : β) : π.Matches (r.events b) (r'.events b) := by
  constructor
  · rw [blank_events, h.blank, ← blank_events]
  · rw [mentions_events b h.old, mentions_events b h.old', h.told? b]
    split
    · exact .nil
    · exact h.mentions

/-- Alike requests that are told the same have been answered the same. -/
theorem Alike.eq_of_told (h : r.Alike π r') {b b' : β} {rest rest' : List Told}
    (htold : (r.told? b).toList ++ rest = (r'.told? b').toList ++ rest') :
    b = b' ∧ rest = rest' := by
  rw [← h.told? b'] at htold
  have hsome := r.isSome_told? b b'
  have hlength : (r.told? b).toList.length = (r.told? b').toList.length := by
    rw [Option.length_toList, Option.length_toList, hsome]
  obtain ⟨hfirst, hrest⟩ := List.append_inj htold hlength
  have htold : r.told? b = r.told? b' := by simpa using congrArg List.head? hfirst
  exact ⟨eq_of_told? h.old htold, hrest⟩

end Alike
end Request

/-- What a device tells while an act is performed. -/
def Act.told {σ : Type} [Device σ] : {β : Type} → Act β → σ → List Told
  | _, .request r, d => (r.told? (Device.answer r d).1).toList
  | _, .drain, d => [.errors (Device.drain d).codes (Device.drain d).questions]
  | _, .arrange, _ | _, .note _, _ => []

namespace Script
variable {α α' γ γ' : Type}

/-- What a device tells while a script runs. -/
def told {σ : Type} [Device σ] : Script α → σ → List Told
  | .done _, _ => []
  | .ask act next, d => act.told d ++ told (next (act.perform d).value) (act.perform d).device

section Told
variable {σ : Type} [Device σ] (d : σ)

theorem told_bind (x : Script α) (f : α → Script γ) :
    told (Dialogue.bind x f) d = x.told d ++ (f (x.run d).value).told (x.run d).device := by
  induction x generalizing d with
  | done a => rfl
  | ask act next ih => simp only [Dialogue.ask_bind, told, run_ask, ih, List.append_assoc]

/-- A device tells nothing while bindings are made. -/
theorem told_bindAll (p : Program) : p.bindAll.told d = [] := by
  have hbinding {β : Type} (r : Request β) (b : β) (h : r.topic ∈ [Topic.binding, .order]) :
      r.told? b = none := by
    cases r <;> first | rfl | simp at h
  have hwithin := p.within_bindAll
  generalize p.bindAll = x at hwithin
  induction x generalizing d with
  | done a => rfl
  | ask act next ih =>
    rw [told, ih _ _ (hwithin.2 _), List.append_nil]
    cases act with
    | request r => rw [Act.told, hbinding r _ (hwithin.1 _ rfl), Option.toList_none]
    | drain => exact absurd (hwithin.1 _ rfl) (by decide)
    | arrange | note n => rfl

end Told

/-! ## Alike scripts -/

/-- Two scripts that go the same way under a pairing, and come to values as wanted. -/
inductive Alike (π : Pairing) (post : α → α' → Prop) : Script α → Script α' → Prop
  | done {a : α} {a' : α'} (h : post a a') : Alike π post (.done a) (.done a')
  /-- New shaders may get any numbers that are paired. -/
  | shader (stage : Stage) {next : Handle → Script α} {next' : Handle → Script α'}
      (hnext : ∀ s s', π.shaders s s' → Alike π post (next s) (next' s')) :
      Alike π post (.ask (.request (.createShader stage)) next)
        (.ask (.request (.createShader stage)) next')
  | request {β : Type} {r r' : Request β} (hr : r.Alike π r') {next : β → Script α}
      {next' : β → Script α'} (hnext : ∀ b, Alike π post (next b) (next' b)) :
      Alike π post (.ask (.request r) next) (.ask (.request r') next')
  | drain {next : List Nat → Script α} {next' : List Nat → Script α'}
      (hnext : ∀ codes, Alike π post (next codes) (next' codes)) :
      Alike π post (.ask .drain next) (.ask .drain next')
  /-- The bindings of two programs may be made in any two orders. -/
  | bindings {p q : Program} (hpairs : π.Pairs (.program p.handle) (.program q.handle))
      (hcache : q.cache = p.cache) {next : Unit → Script α} {next' : Unit → Script α'}
      (hnext : Alike π post (next ()) (next' ())) :
      Alike π post (Dialogue.bind p.bindAll next) (Dialogue.bind q.bindAll next')
  | note {n n' : Note} (hn : π.Matches [.note n] [.note n']) {next : Unit → Script α}
      {next' : Unit → Script α'} (hnext : Alike π post (next ()) (next' ())) :
      Alike π post (.ask (.note n) next) (.ask (.note n') next')

section Alike
variable {π : Pairing} {post : α → α' → Prop} {post' : γ → γ' → Prop}

theorem Alike.bind {x : Script α} {y : Script α'} (h : x.Alike π post y) {f : α → Script γ}
    {g : α' → Script γ'} (hf : ∀ a a', post a a' → (f a).Alike π post' (g a')) :
    Alike π post' (Dialogue.bind x f) (Dialogue.bind y g) := by
  induction h with
  | done h => exact hf _ _ h
  | shader stage _ ih => exact .shader stage ih
  | request hr _ ih => exact .request hr ih
  | drain _ ih => exact .drain ih
  | bindings hpairs hcache _ ih =>
    rw [Dialogue.bind_assoc, Dialogue.bind_assoc]
    exact .bindings hpairs hcache ih
  | note hn _ ih => exact .note hn ih

theorem alike_request {β : Type} {r r' : Request β} (h : r.Alike π r') :
    (request r).Alike π (· = ·) (request r') :=
  .request h fun _ => .done rfl

theorem Alike.request_bind {β : Type} {r r' : Request β} (hr : r.Alike π r')
    {f : β → Script α} {g : β → Script α'} (hnext : ∀ b, (f b).Alike π post (g b)) :
    Alike π post (Dialogue.bind (Script.request r) f) (Dialogue.bind (Script.request r') g) :=
  .request hr hnext

theorem Alike.note_bind {n n' : Note} (hn : π.Matches [.note n] [.note n'])
    {f : Unit → Script α} {g : Unit → Script α'} (hnext : (f ()).Alike π post (g ())) :
    Alike π post (Dialogue.bind (Script.note n) f) (Dialogue.bind (Script.note n') g) :=
  .note hn hnext

theorem alike_checkErrors (checkpoint : String) :
    (checkErrors checkpoint).Alike π (· = ·) (checkErrors checkpoint) :=
  .drain fun _ => .done rfl

theorem alike_ite {c : Prop} [Decidable c] {x x' : Script α} {y y' : Script α'}
    (h : c → x.Alike π post y) (h' : ¬ c → x'.Alike π post y') :
    (if c then x else x').Alike π post (if c then y else y') := by
  split
  · next hc => exact h hc
  · next hc => exact h' hc

variable {σ σ' : Type} [Device σ] [Device σ']

/-- **Alike scripts that are told the same go the same way.** -/
theorem Alike.run {x : Script α} {y : Script α'} (h : x.Alike π post y) (d : σ) (d' : σ')
    (htold : x.told d = y.told d')
    (hshaders : ∀ s s', (s, s') ∈ (Event.newShaders (x.run d).events).zip
      (Event.newShaders (y.run d').events) → π.shaders s s') :
    post (x.run d).value (y.run d').value ∧
      π.MatchesBarOrder (x.run d).events (y.run d').events := by
  induction h generalizing d d' with
  | done h => exact ⟨h, Pairing.Matches.nil.barOrder⟩
  | @shader stage next next' hnext ih =>
    -- The two new shaders stand at the same place of both runs, so they are paired.
    obtain ⟨hvalue, hevents⟩ := ih (Device.answer (.createShader stage) d).1
      (Device.answer (.createShader stage) d').1 (hshaders _ _ List.mem_cons_self) _ _ htold
      fun s s' hs => hshaders s s' (List.mem_cons_of_mem _ hs)
    have hfirst : π.Matches ((Act.request (.createShader stage)).perform d).events
        ((Act.request (.createShader stage)).perform d').events :=
      ⟨rfl, .cons (.shader (hshaders _ _ List.mem_cons_self)) .nil⟩
    exact ⟨hvalue, hfirst.barOrder.append hevents⟩
  | @request β r r' hr next next' hnext ih =>
    rcases hfirst : Device.answer r d with ⟨b, left⟩
    rcases hfirst' : Device.answer r' d' with ⟨b', left'⟩
    have hperform : (Act.request r).perform d = ⟨b, left, r.events b⟩ := by
      rw [Act.perform, hfirst]
      rfl
    have hperform' : (Act.request r').perform d' = ⟨b', left', r'.events b'⟩ := by
      rw [Act.perform, hfirst']
      rfl
    simp only [told, Act.told, hperform, hperform', hfirst, hfirst'] at htold
    -- What has been told gives the answers away, so both scripts go on with the same one.
    obtain ⟨rfl, hrest⟩ := hr.eq_of_told htold
    have hnone : Event.newShaders (r.events b) = [] := Request.newShaders_events b hr.old
    have hnone' : Event.newShaders (r'.events b) = [] := Request.newShaders_events b hr.old'
    simp only [run_ask, hperform, hperform', Event.newShaders_append, hnone, hnone',
      List.nil_append] at hshaders ⊢
    obtain ⟨hvalue, hevents⟩ := ih b left left' hrest hshaders
    exact ⟨hvalue, (hr.events b).barOrder.append hevents⟩
  | @drain next next' hnext ih =>
    simp only [told, Act.told, List.singleton_append, List.cons.injEq, Told.errors.injEq] at htold
    obtain ⟨⟨hcodes, hquestions⟩, hrest⟩ := htold
    have hsame : (Act.drain.perform d).events = (Act.drain.perform d').events :=
      congrArg (List.replicate · _) hquestions
    have hplain : (Act.drain.perform d).events.flatMap Event.mentions = [] := by
      simp [Act.perform, Event.mentions, Call.mentions]
    have hnone : Event.newShaders (Act.drain.perform d).events = [] := by
      simp [Act.perform, Event.newShaders, Event.calls, Call.newShader?]
    have hvalues : (Act.drain.perform d).value = (Act.drain.perform d').value := hcodes
    simp only [run_ask, ← hvalues, ← hsame, Event.newShaders_append, hnone,
      List.nil_append] at hshaders ⊢
    obtain ⟨hvalue, hevents⟩ := ih _ _ _ (hvalues ▸ hrest) hshaders
    exact ⟨hvalue, (Pairing.Matches.same hplain).barOrder.append hevents⟩
  | @bindings p q hpairs hcache next next' hnext ih =>
    simp only [told_bind, told_bindAll, List.nil_append, run_bind, Program.events_bindAll,
      Event.newShaders_append, Pairing.newShaders_bindings] at htold hshaders ⊢
    obtain ⟨hvalue, hevents⟩ := ih _ _ htold hshaders
    exact ⟨hvalue, (Pairing.matches_bindings hpairs hcache _ _).append hevents⟩
  | @note n n' hn next next' hnext ih =>
    obtain ⟨hvalue, hevents⟩ := ih _ _ htold hshaders
    exact ⟨hvalue, hn.barOrder.append hevents⟩

end Alike
end Script
end DrawStream
