import Mathlib.Data.Finset.Card
import DrawStream.Proofs.Resolution

/-! # The locations that a permissive recorder gives out

A permissive recorder has a location for every name.  Where its declarations have none, it gives
one out and writes it down, and uniforms and attributes share the table.  The `i`-th name in it
has the `i`-th location from 1024 on, and no name stands in it twice (`Recorder.Orderly`).  As
entries stay where they are, whatever was told in the past can be read off the table at the end
(`Recorder.Course.told`), and different names have different locations for as long as 32 bits
can tell the places apart (`Recorder.locations_given`). -/
namespace DrawStream.Recorder

open Program (Query)

/-- The `i`-th of the locations that are given out. -/
def givenLocation (i : Nat) : Int := Device.wrapLocation (firstAssigned + i)

theorem nextAssigned_eq (r : Recorder) : r.nextAssigned = givenLocation r.assigned.length := by
  unfold nextAssigned givenLocation
  rfl

/-- The first locations are not wrapped. -/
theorem givenLocation_of_lt {i : Nat} (h : i < 2147483648 - 1024) :
    givenLocation i = firstAssigned + i := by
  have hsmall : 2 * (1024 + i) < Nat.pow 2 32 := by
    have hpow : Nat.pow 2 32 = 4294967296 := rfl
    omega
  have hcast : firstAssigned + (i : Int) = ((1024 + i : Nat) : Int) := by
    unfold firstAssigned
    omega
  rw [givenLocation, hcast]
  exact Binary.signed_of_lt hsmall

/-- The table of a recorder is in order: every name stands in it once, and the locations are
those that are given out, one after the other. -/
structure Orderly (r : Recorder) : Prop where
  once : (r.assigned.map Prod.fst).Nodup
  inOrder : ∀ i e, r.assigned[i]? = some e → e.2 = givenLocation i

theorem orderly_of_new {r : Recorder} (h : r.assigned = []) : r.Orderly where
  once := h ▸ List.nodup_nil
  inOrder i e he := by simp [h] at he

section Orderly
variable {r : Recorder} {e e' : String × Int}

/-- What stands in a table of a length that 32 bits can count. -/
theorem Orderly.place (h : r.Orderly) (hlength : r.assigned.length < 2147483648 - 1024)
    (he : e ∈ r.assigned) : ∃ i : Nat, r.assigned[i]? = some e ∧ e.2 = firstAssigned + i := by
  obtain ⟨i, hi⟩ := List.mem_iff_getElem?.mp he
  have hlt := (List.getElem?_eq_some_iff.mp hi).1
  exact ⟨i, hi, (h.inOrder i e hi).trans (givenLocation_of_lt (hlt.trans hlength))⟩

/-- Locations are the same just for the same name. -/
theorem Orderly.location_eq_iff (h : r.Orderly) (hlength : r.assigned.length < 2147483648 - 1024)
    (he : e ∈ r.assigned) (he' : e' ∈ r.assigned) : e.2 = e'.2 ↔ e.1 = e'.1 := by
  constructor
  · intro hlocation
    obtain ⟨i, hi, hplace⟩ := h.place hlength he
    obtain ⟨k, hk, hplace'⟩ := h.place hlength he'
    obtain rfl : i = k := by omega
    rw [Option.some.inj (hi.symm.trans hk)]
  · intro hname
    rw [List.inj_on_of_nodup_map h.once he he' hname]

end Orderly

/-- The declarations of its kind do not resolve a name that was asked for. -/
def Undeclared (r : Recorder) (q : Query) : Prop :=
  Device.locate (r.declared q.kind) q.name < 0

/-- What was answered is what the declarations say, or else what stands in the table. -/
inductive Told (r : Recorder) (q : Query) : Prop
  | declared (found : 0 ≤ Device.locate (r.declared q.kind) q.name)
      (same : q.location = Device.locate (r.declared q.kind) q.name)
  | given (undeclared : r.Undeclared q) (entry : (q.name, q.location) ∈ r.assigned)

theorem Told.of_precedes {r s : Recorder} {q : Query} (h : r.Told q) (hrs : r.Precedes s) :
    s.Told q := by
  have hdeclared := hrs.declared q.kind
  cases h with
  | declared found same =>
    exact .declared (by rw [hdeclared]; exact found) (by rw [hdeclared]; exact same)
  | given undeclared entry =>
    refine .given ?_ (hrs.assigned.subset entry)
    rw [Undeclared, hdeclared]
    exact undeclared

/-- From one state of a recorder to a later one, with the locations that were asked for. -/
structure Course (r : Recorder) (asked : List Query) (s : Recorder) : Prop where
  precedes : r.Precedes s
  orderly : r.Orderly → s.Orderly
  told : ∀ q ∈ asked, s.Told q
  /-- No name gets into the table but those that were asked for. -/
  named : ∀ e ∈ s.assigned, e ∈ r.assigned ∨ e.1 ∈ asked.map Query.name

namespace Course
variable {r s t : Recorder} {asked later : List Query}

/-- Nothing was asked for, and the declarations and the table are the same. -/
theorem quiet (h : r.Precedes s) (hassigned : s.assigned = r.assigned) : r.Course [] s where
  precedes := h
  orderly hr := ⟨hassigned ▸ hr.once, hassigned ▸ hr.inOrder⟩
  told q hq := by cases hq
  named e he := .inl (hassigned ▸ he)

theorem refl (r : Recorder) : r.Course [] r := quiet (.refl r) rfl

theorem trans (h : r.Course asked s) (h' : s.Course later t) : r.Course (asked ++ later) t where
  precedes := h.precedes.trans h'.precedes
  orderly hr := h'.orderly (h.orderly hr)
  told q hq := by
    rcases List.mem_append.mp hq with hq | hq
    · exact (h.told q hq).of_precedes h'.precedes
    · exact h'.told q hq
  named e he := by
    rw [List.map_append, List.mem_append]
    rcases h'.named e he with hbefore | hlater
    · exact (h.named e hbefore).imp_right .inl
    · exact .inr (.inr hlater)

end Course

section Steps
variable {r : Recorder} {kind : VariableKind} {name : String}

/-- A new name gets the next location.  The table stays in order, for the name did not stand in
it. -/
theorem course_give (hundeclared : Device.locate (r.declared kind) name < 0)
    (hnew : name ∉ r.assigned.map Prod.fst) :
    r.Course [⟨kind, name, r.nextAssigned⟩]
      { r with assigned := r.assigned ++ [(name, r.nextAssigned)] } where
  precedes := ⟨rfl, rfl, rfl, List.prefix_append _ _⟩
  orderly h := by
    refine ⟨?_, fun i e he => ?_⟩
    · rw [List.map_append]
      exact h.once.append (List.nodup_singleton _) (by simpa using hnew)
    · rcases Nat.lt_trichotomy i r.assigned.length with hlt | rfl | hgt
      · rw [List.getElem?_append_left hlt] at he
        exact h.inOrder i e he
      · rw [List.getElem?_concat_length, Option.some.injEq] at he
        rw [← he]
        dsimp only
        exact r.nextAssigned_eq
      · have hlength := (List.getElem?_eq_some_iff.mp he).1
        rw [List.length_append, List.length_singleton] at hlength
        omega
  told := by
    refine List.forall_mem_singleton.mpr (.given ?_ ?_)
    · cases kind <;> exact hundeclared
    · dsimp only
      exact List.mem_append_right _ List.mem_cons_self
  named e he := by
    refine (List.mem_append.mp he).imp_right fun he => ?_
    cases List.mem_singleton.mp he
    exact List.mem_cons_self

variable (hpermissive : r.permissive = true)
include hpermissive

/-- **One question.** -/
theorem course_find (kind : VariableKind) (name : String) :
    r.Course [⟨kind, name, (r.find (r.declared kind) name).1⟩]
      (r.find (r.declared kind) name).2 := by
  by_cases hfound : 0 ≤ Device.locate (r.declared kind) name
  · rw [find_of_settled (.inl hfound)]
    exact
      { precedes := .refl r
        orderly := fun h => h
        told := List.forall_mem_singleton.mpr (.declared hfound rfl)
        named := fun e he => .inl he }
  have hundeclared : Device.locate (r.declared kind) name < 0 := Int.not_le.mp hfound
  have hopen : ¬ (0 ≤ Device.locate (r.declared kind) name ∨ ¬ r.permissive) := by
    rintro (h | h)
    · exact hfound h
    · exact h hpermissive
  cases hassigned : r.assigned.lookup name with
  | some location =>
    rw [find_of_assigned hopen hassigned]
    obtain ⟨front, back, hsplit, -⟩ := List.lookup_eq_some_iff.mp hassigned
    have hentry : (name, location) ∈ r.assigned := by simp [hsplit]
    exact
      { precedes := .refl r
        orderly := fun h => h
        told := List.forall_mem_singleton.mpr (.given hundeclared hentry)
        named := fun e he => .inl he }
  | none =>
    rw [find_of_new hopen hassigned]
    dsimp only
    refine course_give hundeclared fun hmem => ?_
    obtain ⟨e, he, rfl⟩ := List.mem_map.mp hmem
    have hne := List.lookup_eq_none_iff.mp hassigned e he
    simp at hne

theorem course_answer {β : Type} (q : Request β) :
    r.Course (q.query? (Device.answer q r).1).toList (Device.answer q r).2 := by
  cases q with
  | uniformLocation program name => exact course_find hpermissive .uniform name
  | attributeLocation program name => exact course_find hpermissive .attribute name
  | drawArrays | drawElements =>
    refine .quiet (precedes_answer _ r) ?_
    change r.raise.assigned = r.assigned
    unfold raise
    split <;> rfl
  | takeError =>
    refine .quiet (precedes_answer .takeError r) ?_
    change r.takeError.2.assigned = r.assigned
    unfold takeError
    split <;> rfl
  | _ => exact .quiet ⟨rfl, rfl, rfl, List.prefix_rfl⟩ rfl

/-- Whatever is run, the course of the recorder is known from what was asked for. -/
theorem course_run {α : Type} (x : Script α) :
    r.Course (x.gather Request.query? r) (x.run r).device := by
  induction x generalizing r with
  | done a => exact .refl r
  | ask act next ih =>
    have hact : r.Course (act.gather Request.query? r) (act.perform r).device := by
      cases act with
      | request q => exact course_answer hpermissive q
      | drain =>
        refine Device.keeps_drainFrom (fun s (hs : r.Course [] s) => ?_) _ _ (.refl r)
        exact hs.trans (course_answer (hs.precedes.permissive.trans hpermissive) .takeError)
      | arrange => exact .quiet ⟨rfl, rfl, rfl, List.prefix_rfl⟩ rfl
      | note n => exact .refl r
    exact hact.trans (ih _ (hact.precedes.permissive.trans hpermissive))

end Steps

/-- A table that was empty has as many entries as names were asked for, at most. -/
theorem Course.length_le {r s : Recorder} {asked : List Query} (h : r.Course asked s)
    (hnew : r.assigned = []) : s.assigned.length ≤ (asked.map Query.name).toFinset.card := by
  have hnames : (s.assigned.map Prod.fst).toFinset ⊆ (asked.map Query.name).toFinset := by
    intro name hname
    obtain ⟨e, he, rfl⟩ := List.mem_map.mp (List.mem_toFinset.mp hname)
    rcases h.named e he with hbefore | hasked
    · simp [hnew] at hbefore
    · exact List.mem_toFinset.mpr hasked
  calc s.assigned.length = (s.assigned.map Prod.fst).toFinset.card := by
        rw [List.toFinset_card_of_nodup (h.orderly (orderly_of_new hnew)).once, List.length_map]
    _ ≤ (asked.map Query.name).toFinset.card := Finset.card_le_card hnames

/-- The locations that a script asks for, with the answers. -/
def asked {α : Type} (r : Recorder) (x : Script α) : List Query := x.gather Request.query? r

/-- **The locations that a permissive recorder gives out.**  Whatever is run on a new one, it
finds a location for every name, and one from 1024 on where its declarations have none.  Names
of this sort have the same location, whenever and of whichever kind they are asked for, just if
they are the same name. -/
theorem locations_given {α : Type} (r : Recorder) (x : Script α)
    (hpermissive : r.permissive = true) (hnew : r.assigned = [])
    (hfew : ((r.asked x).map Query.name).toFinset.card < 2147483648 - 1024) :
    (∀ q ∈ r.asked x, 0 ≤ q.location) ∧
      (∀ q ∈ r.asked x, r.Undeclared q → firstAssigned ≤ q.location) ∧
      ∀ q ∈ r.asked x, ∀ q' ∈ r.asked x, r.Undeclared q → r.Undeclared q' →
        (q.location = q'.location ↔ q.name = q'.name) := by
  have hcourse : r.Course (r.asked x) (x.run r).device := course_run hpermissive x
  have horderly := hcourse.orderly (orderly_of_new hnew)
  have hlength := (hcourse.length_le hnew).trans_lt hfew
  -- The declarations are still those of the beginning, so the table at the end has the answers.
  have hentry : ∀ q ∈ r.asked x, r.Undeclared q →
      (q.name, q.location) ∈ (x.run r).device.assigned := by
    intro q hq hundeclared
    cases hcourse.told q hq with
    | declared found same =>
      rw [hcourse.precedes.declared q.kind] at found
      exact absurd hundeclared (Int.not_lt.mpr found)
    | given _ entry => exact entry
  have hbeyond : ∀ q ∈ r.asked x, r.Undeclared q → firstAssigned ≤ q.location := by
    intro q hq hundeclared
    obtain ⟨i, -, hplace⟩ := horderly.place hlength (hentry q hq hundeclared)
    dsimp only at hplace
    omega
  refine ⟨fun q hq => ?_, hbeyond, fun q hq q' hq' hundeclared hundeclared' => ?_⟩
  · cases hcourse.told q hq with
    | declared found same => exact same ▸ found
    | given undeclared entry =>
      rw [Undeclared, hcourse.precedes.declared q.kind] at undeclared
      exact Int.le_trans (by decide) (hbeyond q hq undeclared)
  · exact horderly.location_eq_iff hlength (hentry q hq hundeclared) (hentry q' hq' hundeclared')

/-- Asks for locations of both kinds, one name of which is declared. -/
def askedTwice : Script Unit := do
  let _ ← Script.request (.uniformLocation 1 "u_scale")
  let _ ← Script.request (.attributeLocation 1 "a_position")
  let _ ← Script.request (.uniformLocation 1 "u_mvp")
  let _ ← Script.request (.attributeLocation 1 "u_scale")
  return ()

/-- A name that is not declared is found at the same place as an attribute and as a uniform. -/
theorem askedTwice_located :
    let r : Recorder := { uniforms := [⟨"u_mvp", 0x8B5C, 4⟩], permissive := true }
    r.permissive = true ∧ r.assigned = [] ∧
      ((r.asked askedTwice).map Query.name).toFinset.card < 2147483648 - 1024 ∧
      r.asked askedTwice =
        [⟨.uniform, "u_scale", 1024⟩, ⟨.attribute, "a_position", 1025⟩, ⟨.uniform, "u_mvp", 0⟩,
          ⟨.attribute, "u_scale", 1024⟩] ∧
      ∀ q ∈ r.asked askedTwice, 0 ≤ q.location := by
  intro r
  have hfew : ((r.asked askedTwice).map Query.name).toFinset.card < 2147483648 - 1024 := by decide
  exact ⟨rfl, rfl, hfew, by decide, (r.locations_given askedTwice rfl rfl hfew).1⟩

end DrawStream.Recorder
