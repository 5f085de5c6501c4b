import DrawStream.Proofs.Draws
import DrawStream.Proofs.Outcomes
import DrawStream.Proofs.Renumbering

/-! # A link that succeeds makes a program as good as new

A link that fails leaves the cache alone, but whatever needs a linked program is refused until
the next link that succeeds (`untilLink_of_unlinked`).  A link that succeeds starts the cache
afresh with what the device reports.  So after two links with equal reports two programs
differ in their handles only, whatever their pasts, and one of them may well be new.  From
then on they go the same way, as long as the devices tell them the same (`sameBut_past`), but
that each draw binds what is recorded in an order of its own. -/
namespace DrawStream.Program
variable {σ σ' : Type}

/-- Operations for which a program has to be linked. -/
def Operation.needsLink : Operation → Bool
  | assign _ | draw .. => true
  | setShaders .. | activate | deactivate => false

namespace Done

/-- An operation that was refused for want of a link: nothing has come about. -/
structure Refused (e : Done σ) : Prop where
  outcome : e.outcome = .error .programNotLinked
  events : e.events = []
  after : e.after = e.before
  left : e.left = e.device

/-- The same operation with the same outcome on two programs: afterwards they differ in their
handles only, and what came about differs in the numbers of programs and shaders and in the order
of bindings only. -/
structure SameBut (handle handle' : Handle) (e : Done σ) (e' : Done σ') : Prop where
  operation : e.operation = e'.operation
  outcome : e.outcome = e'.outcome
  after : e.after.Alike handle handle' e'.after
  events : (Pairing.ofEvents handle handle' e.events e'.events).MatchesBarOrder e.events e'.events

end Done

/-- The operations before the next successful link. -/
def untilLink (past : List (Done σ)) : List (Done σ) := past.takeWhile fun e => !e.links

section Device
variable [Device σ] [Device σ'] {p q : Program}

/-- What the device told while an operation was done. -/
def Done.told (e : Done σ) : List Told := (e.operation.perform e.before).told e.device

/-! ## Without a link -/

section Unlinked
variable {o : Operation} {d : σ}

theorem perform_of_unlinked (hp : p.linked = false) (ho : o.needsLink = true) :
    o.perform p = .done (.error .programNotLinked, p) := by
  cases o with
  | assign a => exact (perform_eq_assign p a).trans (assign_of_unlinked hp)
  | draw mode selection => exact draw_of_unlinked p hp
  | setShaders | activate | deactivate => cases ho

theorem refused_of_unlinked (hp : p.linked = false) (ho : o.needsLink = true) :
    (o.done p d).Refused := by
  constructor <;> simp only [Operation.done, perform_of_unlinked hp ho, Script.run_done]

/-- A program that is not linked stays as it is until it is linked. -/
theorem after_of_unlinked (hp : p.linked = false) (hlinks : (o.done p d).links = false) :
    (o.done p d).after = p := by
  cases o with
  | setShaders vertex fragment =>
    rcases done_setShaders p d vertex fragment with ⟨failure, -, hafter⟩ | ⟨hok, -⟩
    · rw [hafter, ← hp]
    · rw [Done.links, hok] at hlinks
      cases hlinks
  | assign a => exact (refused_of_unlinked hp rfl).after
  | draw mode selection => exact (refused_of_unlinked hp rfl).after
  | activate | deactivate => rfl

end Unlinked

/-- Until the next link nothing changes, and whatever needs one is refused. -/
theorem untilLink_of_unlinked (hp : p.linked = false) (uses : List (Operation × σ)) :
    ∀ e ∈ untilLink (p.past uses),
      e.before = p ∧ (e.operation.needsLink = true → e.Refused) := by
  induction uses with
  | nil =>
    intro e he
    cases he
  | cons use rest ih =>
    intro e he
    obtain ⟨o, d⟩ := use
    cases hlinks : (o.done p d).links with
    | true => simp [untilLink, past, hlinks] at he
    | false =>
      simp only [untilLink, past, List.takeWhile_cons, hlinks, Bool.not_false, if_true,
        after_of_unlinked hp hlinks] at he
      rcases List.mem_cons.mp he with rfl | hrest
      · exact ⟨rfl, refused_of_unlinked hp⟩
      · exact ih e hrest

/-! ## After a link -/

theorem links_of_ok {vertex fragment : String} {d : σ}
    (hok : ((Operation.setShaders vertex fragment).done p d).outcome = .ok ()) :
    ((Operation.setShaders vertex fragment).done p d).links = true := by
  rw [Done.links, hok]
  rfl

/-- An operation on programs that differ in their handles only goes the same way, if the
devices tell the same. -/
theorem sameBut_done {handle handle' : Handle} (h : p.Alike handle handle' q) (o : Operation)
    (d : σ) (d' : σ') (htold : (o.done p d).told = (o.done q d').told) :
    (o.done p d).SameBut handle handle' (o.done q d') := by
  have halike := alike_perform
    (π := Pairing.ofEvents handle handle' (o.done p d).events (o.done q d').events) h o
  obtain ⟨hresult, hevents⟩ := halike.run d d' htold fun s s' hs => hs
  exact ⟨rfl, hresult.outcome, hresult.program, hevents⟩

/-- **Programs that differ in their handles only go the same way**, whatever is done with
them, as long as the devices tell the same. -/
theorem sameBut_past {handle handle' : Handle} (h : p.Alike handle handle' q)
    {uses : List (Operation × σ)} {uses' : List (Operation × σ')}
    (hoperations : uses.map Prod.fst = uses'.map Prod.fst)
    (htold : (p.past uses).map Done.told = (q.past uses').map Done.told) :
    List.Forall₂ (Done.SameBut handle handle') (p.past uses) (q.past uses') := by
  induction uses generalizing p q uses' with
  | nil =>
    have hnil : uses' = [] := List.map_eq_nil_iff.mp hoperations.symm
    rw [hnil]
    exact .nil
  | cons use rest ih =>
    obtain ⟨o, d⟩ := use
    cases uses' with
    | nil => cases hoperations
    | cons use' rest' =>
      obtain ⟨o', d'⟩ := use'
      obtain ⟨rfl, hrest⟩ := List.cons.inj hoperations
      obtain ⟨hfirst, htold⟩ := List.cons.inj htold
      have hdone := sameBut_done h o d d' hfirst
      exact .cons hdone (ih hdone.after hrest htold)

/-! ## Both -/

namespace Done

/-- A link that failed: nothing has changed but that the program is not linked, and until the
next link that succeeds nothing changes and whatever needs one is refused. -/
structure Closes (e : Done σ) : Prop where
  after : e.after = { e.before with linked := false }
  refuses : ∀ (uses : List (Operation × σ)), ∀ later ∈ untilLink (e.after.past uses),
    later.before = e.after ∧ (later.operation.needsLink = true → later.Refused)

/-- Two links with equal reports: what the programs know is what was reported, and from then on
they go the same way, as long as the devices tell the same. -/
structure Renews (e : Done σ) (e' : Done σ') : Prop where
  after : e.after = { e.before with linked := true, cache := LinkCache.fresh e.reports }
  same : e.after.Alike e.before.handle e'.before.handle e'.after
  goesOn : ∀ (uses : List (Operation × σ)) (uses' : List (Operation × σ')),
    uses.map Prod.fst = uses'.map Prod.fst →
    (e.after.past uses).map told = (e'.after.past uses').map told →
    List.Forall₂ (SameBut e.before.handle e'.before.handle) (e.after.past uses)
      (e'.after.past uses')

end Done

/-- **A link leaves nothing of the past but the handle.**  If it fails, the program keeps what
it knows but cannot be used.  If it succeeds, the program is from then on like any other one,
such as a new one, with a link of equal reports. -/
theorem link_leaves_no_past (p q : Program) (d : σ) (d' : σ')
    (vertex fragment vertex' fragment' : String) :
    let e := (Operation.setShaders vertex fragment).done p d
    let e' := (Operation.setShaders vertex' fragment').done q d'
    (e.outcome ≠ .ok () → e.Closes) ∧
      (e.outcome = .ok () → e'.outcome = .ok () → e.reports = e'.reports → e.Renews e') := by
  intro e e'
  constructor
  · intro hfailed
    rcases done_setShaders p d vertex fragment with ⟨failure, -, hafter⟩ | ⟨hok, -⟩
    · refine ⟨hafter, fun uses => untilLink_of_unlinked ?_ uses⟩
      rw [hafter]
    · exact absurd hok hfailed
  · intro hok hok' hreports
    have hafter : e.after = { p with linked := true, cache := LinkCache.fresh e.reports } :=
      after_of_links (links_of_ok hok)
    have hafter' : e'.after = { q with linked := true, cache := LinkCache.fresh e'.reports } :=
      after_of_links (links_of_ok hok')
    have hsame : e.after.Alike p.handle q.handle e'.after := by
      rw [hafter, hafter', hreports]
      exact ⟨rfl, rfl⟩
    exact ⟨hafter, hsame, fun uses uses' => sameBut_past hsame⟩

end Device

/-! ## An example -/

/-- A recorder with an attribute, a whole number and two images, whose next number and whose
orders of tables are given. -/
def imageRecorder (lastHandle : Handle) (arrangements : List Arrangement) : Recorder where
  lastHandle
  arrangements
  attributes := [⟨"a_position", 0x8B50, 1⟩]
  uniforms := [⟨"u_count", 0x1404, 1⟩, ⟨"u_image", 0x8B5E, 1⟩, ⟨"u_mask", 0x8B5E, 1⟩]

/-- The same recorder when links fail. -/
def linklessRecorder : Recorder := { imageRecorder 20 [] with failLink := true }

/-- A program that remembers wrong things of an earlier link. -/
def wornProgram : Program where
  handle := 7
  linked := true
  cache :=
    { active := ["u_gone"]
      locations := [("u_count", 99)]
      invalid := ["u_image", "a_position"]
      samplers := [⟨"u_gone", Texture.target, 5, 0⟩]
      validated := true }

/-- Setting everything, drawing, and linking once more. -/
def imageOperations : List Operation :=
  [.assign (.uniform "u_count" .int (.ints [3])), .assign (.sampler "u_image" Texture.target 9),
    .assign (.sampler "u_mask" Texture.target 10),
    .assign (.attribute "a_position" .vec2 (.buffer 11 8 0)), .draw .triangles (.range 0 3),
    .setShaders "vertex" "fragment", .draw .triangles (.range 0 3), .deactivate]

/-- The worn program is linked again. -/
def wornLink : Done Recorder :=
  (Operation.setShaders "v" "f").done wornProgram (imageRecorder 20 [])

/-- A new program is linked, where numbers are smaller and the first table comes in the other
order. -/
def newLink : Done Recorder :=
  (Operation.setShaders "v" "f").done { handle := 2 } (imageRecorder 2 [[1]])

/-- The worn program cannot be linked. -/
def failedLink : Done Recorder :=
  (Operation.setShaders "v" "f").done wornProgram linklessRecorder

/-- After a failed link even an empty draw is refused; after a successful one the worn program
goes the way of the new one. -/
theorem wornProgram_as_new :
    (failedLink.outcome ≠ .ok () ∧ failedLink.Closes ∧
      ((Operation.draw .triangles (.range 0 0)).done failedLink.after failedLink.left).Refused) ∧
    (wornLink.outcome = .ok () ∧ newLink.outcome = .ok () ∧ wornLink.reports = newLink.reports) ∧
    List.Forall₂ (Done.SameBut 7 2)
      (wornLink.after.past (wornLink.after.course wornLink.left imageOperations))
      (newLink.after.past (newLink.after.course newLink.left imageOperations)) := by
  have hfailed : failedLink.outcome ≠ .ok () := by decide
  have hcloses : failedLink.Closes := (link_leaves_no_past wornProgram { handle := 2 }
    linklessRecorder (imageRecorder 2 []) "v" "f" "v" "f").1 hfailed
  have hfirst : (Operation.draw .triangles (.range 0 0)).done failedLink.after failedLink.left ∈
      untilLink (failedLink.after.past [(.draw .triangles (.range 0 0), failedLink.left)]) := by
    rw [untilLink, past, List.takeWhile_cons_of_pos rfl]
    exact List.mem_cons_self
  have hrefused := (hcloses.refuses _ _ hfirst).2 rfl
  have hok : wornLink.outcome = .ok () := by decide
  have hok' : newLink.outcome = .ok () := by decide
  have hreports : wornLink.reports = newLink.reports := by decide
  have hrenews : wornLink.Renews newLink := (link_leaves_no_past wornProgram { handle := 2 }
    (imageRecorder 20 []) (imageRecorder 2 [[1]]) "v" "f" "v" "f").2 hok hok' hreports
  have hoperations := (operations_course wornLink.after wornLink.left imageOperations).trans
    (operations_course newLink.after newLink.left imageOperations).symm
  have htold : (wornLink.after.past (wornLink.after.course wornLink.left imageOperations)).map
      Done.told = (newLink.after.past
        (newLink.after.course newLink.left imageOperations)).map Done.told := by
    decide +kernel
  exact ⟨⟨hfailed, hcloses, hrefused⟩, ⟨hok, hok', hreports⟩,
    hrenews.goesOn _ _ hoperations htold⟩

end DrawStream.Program
