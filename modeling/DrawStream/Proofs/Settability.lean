import DrawStream.Proofs.Relinking
import DrawStream.Proofs.Subscripts
import DrawStream.Proofs.Validation

/-! # Every active name can be set

The names that a link makes active are spelled out by the program, which numbers the elements
of arrays, and are taken apart again by the recorder, which looks for the first variable that
has the name.  The two agree on variables as linkers spell them (`LinkerSpelled`): every active
name of a variable is one of an element (`called_of_nameOf`), and none is an index below 0 of
another variable (`not_calledBelow_of_nameOf`).  So the recorder finds a location
(`resolve_nonneg`), provided that the locations are 32-bit numbers (`Fits`).

It follows that a program all of whose active names have been set, each as what it is, has no
unset names left, and a draw has nothing to warn of (`settable`). -/
namespace DrawStream

open Text (isBlank Blanks)
open Json (Digits decimalValue)

/-! ### Names as linkers spell them -/

/-- A name without blanks, which ends in a bracket only if it is that of the first element of an
array. -/
structure LinkerSpelled (name : List Char) : Prop where
  ne_nil : name ≠ []
  solid : ∀ c ∈ name, isBlank c = false
  ending : name.getLast? ≠ some ']' ∨ ∃ base, base ≠ [] ∧ name = subscripted base ['0']

/-- The locations of all elements are 32-bit numbers, with that of the first one, which is there
whatever the size. -/
def Fits (declared : List Variable) : Prop :=
  ∀ (i : Nat) (v : Variable), declared[i]? = some v →
    (Device.locationStride * i + max v.size 0 : Int) ≤ 2147483647

theorem Fits.size_le {declared : List Variable} (h : Fits declared) {v : Variable}
    (hv : v ∈ declared) : v.size ≤ 2147483647 := by
  obtain ⟨i, hi⟩ := List.getElem?_of_mem hv
  have hfits := h i v hi
  unfold Device.locationStride at hfits
  omega

/-- Variables as a linker gives them. -/
structure Linkable (declared : List Variable) : Prop where
  spelled : ∀ v ∈ declared, LinkerSpelled v.name.toList
  fits : Fits declared

theorem getLast?_subscripted (array index : List Char) :
    (subscripted array index).getLast? = some ']' := by
  rw [subscripted, ← List.cons_append, ← List.append_assoc, List.getLast?_concat]

/-- Without an opening bracket inside, the brackets at the end are found again. -/
theorem subscripted_inj_of_not_mem {array array' index index' : List Char}
    (h : subscripted array index = subscripted array' index') (hindex : '[' ∉ index)
    (hindex' : '[' ∉ index') : array = array' ∧ index = index' := by
  have hno {front rest inside : List Char} (hinside : '[' ∉ inside)
      (hsplit : '[' :: (inside ++ [']']) = front ++ '[' :: rest) : front = [] := by
    rcases front with _ | ⟨c, front⟩
    · rfl
    · have hmem : '[' ∈ inside ++ [']'] := by simp [(List.cons.inj hsplit).2]
      exact absurd (by simpa using hmem) hinside
  have hsame : array = array' := by
    rcases List.append_eq_append_iff.1 h with ⟨front, rfl, hsplit⟩ | ⟨front, rfl, hsplit⟩
    · rw [hno hindex hsplit, List.append_nil]
    · rw [hno hindex' hsplit, List.append_nil]
  subst hsame
  exact ⟨rfl, subscripted_inj h⟩

theorem bracket_not_mem_of_index {index : List Char} {j : Int} (h : IndexText index j) :
    '[' ∉ index := by
  cases h.signed with
  | plain hdigits => exact Program.bracket_not_mem_of_digits hdigits
  | plus hdigits | minus hdigits =>
    rw [List.mem_cons, not_or]
    exact ⟨by decide, Program.bracket_not_mem_of_digits hdigits⟩

theorem forall_solid_of_all {cs : List Char} (h : (cs.all fun c => !isBlank c) = true) :
    ∀ c ∈ cs, isBlank c = false :=
  fun c hc => by simpa using List.all_eq_true.1 h c hc

theorem eq_nil_of_blanks {cs : List Char} (hsolid : ∀ c ∈ cs, isBlank c = false)
    (hblanks : Blanks cs) : cs = [] := by
  cases cs with
  | nil => rfl
  | cons c rest =>
    have hc := hsolid c List.mem_cons_self
    rw [hblanks c List.mem_cons_self] at hc
    cases hc

namespace LinkerSpelled
open Program (Subscripted)
variable {name base : List Char}

theorem subscript_zero (hne : base ≠ []) (hsolid : ∀ c ∈ base, isBlank c = false) :
    Subscripted base (subscripted base ['0']) := by
  refine ⟨⟨[], ['0'], [], by simp, fun c hc => ?_, digits_zero, fun c hc => ?_⟩, hne,
    fun c hc => hsolid c (List.mem_of_getLast? hc)⟩
  · cases hc
  · cases hc

/-- The only subscript is that of the first element. -/
theorem eq_of_subscripted (h : LinkerSpelled name) (hbase : Subscripted base name) :
    name = subscripted base ['0'] := by
  rcases h.ending with hlast | ⟨base', hne, rfl⟩
  · obtain ⟨⟨gap, digits, tail, rfl, -, -, htail⟩, -, -⟩ := hbase
    obtain rfl : tail = [] :=
      eq_nil_of_blanks (fun c hc => h.solid c (List.mem_append_right _ hc)) htail
    rw [List.append_nil, getLast?_subscripted] at hlast
    exact absurd rfl hlast
  · have hsolid : ∀ c ∈ base', isBlank c = false :=
      fun c hc => h.solid c (List.mem_append_left _ hc)
    rw [hbase.unique (subscript_zero hne hsolid)]

/-- Without a subscript, there is no bracket at the end. -/
theorem getLast?_of_bare (h : LinkerSpelled name) (hbare : ∀ base, ¬ Subscripted base name) :
    name.getLast? ≠ some ']' := by
  rcases h.ending with hlast | ⟨base, hne, rfl⟩
  · exact hlast
  · have hsolid : ∀ c ∈ base, isBlank c = false :=
      fun c hc => h.solid c (List.mem_append_left _ hc)
    exact absurd (subscript_zero hne hsolid) (hbare base)

end LinkerSpelled

/-! ### What active names denote -/

namespace Program
variable {v u : Variable} {name : String}

theorem toList_elementName (base : String) (i : Nat) :
    (elementName base i).toList = subscripted base.toList (Nat.toDigits 10 i) := by
  simp [elementName, subscripted]

theorem indexText_toDigits {i : Nat} (h : (i : Int) ≤ 2147483647) :
    IndexText (Nat.toDigits 10 i) i := by
  have hsigned := SignedDigits.plain (Json.wholeDigits_toDigits i).1
  rw [Json.decimalValue_toDigits] at hsigned
  exact ⟨hsigned, by omega, h⟩

/-- An active name of a variable is that of an element. -/
theorem called_of_nameOf (hspelled : LinkerSpelled v.name.toList) (hsize : v.size ≤ 2147483647)
    (h : NameOf v name) : ∃ j, v.Called name.toList j := by
  cases h with
  | plain => exact ⟨0, .declared rfl⟩
  | @whole hbare hseveral i hinside =>
    have harray : v.array = v.name.toList := by
      refine Device.arrayName_of_ne fun base hname => ?_
      refine hspelled.getLast?_of_bare hbare ?_
      rw [hname]
      exact getLast?_subscripted base ['0']
    refine ⟨i, .element ?_ (indexText_toDigits (by omega)) (by omega) hinside⟩
    rw [toList_elementName, harray]
  | @element base hsubscript i hinside =>
    have hname := hspelled.eq_of_subscripted hsubscript
    have harray : v.array = base := by
      rw [Variable.array, hname]
      exact Device.arrayName_append base
    by_cases hsize' : (i : Int) < v.size
    · refine ⟨i, .element ?_ (indexText_toDigits (by omega)) (by omega) hsize'⟩
      rw [toList_elementName, String.toList_ofList, harray]
    · obtain rfl : i = 0 := by omega
      refine ⟨0, .declared ?_⟩
      rw [toList_elementName, String.toList_ofList, hname]
      rfl

/-- It is no index below 0, of no variable at all. -/
theorem not_calledBelow_of_nameOf (hspelled : LinkerSpelled v.name.toList) (h : NameOf v name) :
    ¬ u.CalledBelow name.toList := by
  rintro ⟨index, j, hname, hindex, hneg, -⟩
  have hnumber (base : String) (i : Nat)
      (hname : (elementName base i).toList = subscripted u.array index) : False := by
    have hdigits := (Json.wholeDigits_toDigits i).1
    rw [toList_elementName] at hname
    obtain ⟨-, rfl⟩ := subscripted_inj_of_not_mem hname (bracket_not_mem_of_digits hdigits)
      (bracket_not_mem_of_index hindex)
    have hvalue := hindex.signed.unique (.plain hdigits)
    omega
  cases h with
  | plain hbare =>
    refine hspelled.getLast?_of_bare hbare ?_
    rw [hname, getLast?_subscripted]
  | whole => exact hnumber _ _ hname
  | element => exact hnumber _ _ hname

end Program

/-! ### What a recorder says of active names -/

namespace Recorder
open Program (NameOf)

/-- The name is active because of a variable of the kind. -/
def Activates (r : Recorder) (kind : VariableKind) (name : String) : Prop :=
  ∃ v ∈ r.declared kind, NameOf v name

/-- A location of 32 bits is the one that is counted. -/
theorem elementLocation_nonneg {i : Nat} {j : Int} (hleast : 0 ≤ j)
    (hgreatest : (Device.locationStride * i + j : Int) ≤ 2147483647) :
    0 ≤ Device.elementLocation i j := by
  have hpos : (0 : Int) ≤ Device.locationStride * i + j := by
    unfold Device.locationStride
    omega
  obtain ⟨n, hn⟩ := Int.eq_ofNat_of_zero_le hpos
  have hsmall : 2 * n < 4294967296 := by omega
  have hlocation : Device.elementLocation i j = n := by
    rw [Device.elementLocation, hn]
    exact Binary.signed_of_lt hsmall
  omega

variable {r : Recorder} {kind : VariableKind} {name : String}

/-- **Every active name has a location**, as what it is. -/
theorem resolve_nonneg (hstrict : ¬ r.permissive) (hlinkable : Linkable (r.declared kind))
    (h : r.Activates kind name) : 0 ≤ r.resolve kind name := by
  obtain ⟨v, hv, hname⟩ := h
  have hspelled := hlinkable.spelled v hv
  obtain ⟨j, hcalled⟩ := Program.called_of_nameOf hspelled (hlinkable.fits.size_le hv) hname
  obtain ⟨i, k, hdenotes⟩ := exists_denotes hv hcalled
  rw [resolve_of_denotes hstrict
    (fun _ _ => Program.not_calledBelow_of_nameOf hspelled hname) hdenotes]
  -- The name may belong to an earlier variable as well, and it is found there.
  obtain ⟨u, hu, hcalled'⟩ := hdenotes.called
  have hfits := hlinkable.fits i u hu
  have hlt := hcalled'.lt_size
  exact elementLocation_nonneg hcalled'.nonneg (by omega)

/-- A later recorder that finds declared names only says the same. -/
theorem resolve_of_precedes {s : Recorder} (hstrict : ¬ r.permissive) (h : r.Precedes s)
    (kind : VariableKind) (name : String) : s.resolve kind name = r.resolve kind name := by
  have hstrict' : ¬ s.permissive := by rwa [h.permissive]
  rw [resolve_of_strict hstrict, resolve_of_strict hstrict', h.declared]

end Recorder

/-! ### Setting every active name -/

namespace Program
variable {σ : Type}

section Device
variable [Device σ] {p : Program} {o : Operation} {a : Assignment} {d : σ}
  {uses : List (Operation × σ)}

/-- A program stays linked as long as it gets no new code. -/
theorem linked_before (hlinked : p.linked = true) (huses : ∀ use ∈ uses, use.1.relinks = false) :
    ∀ e ∈ p.past uses, e.before.linked = true := by
  induction uses generalizing p with
  | nil =>
    rintro e he
    cases he
  | cons use rest ih =>
    obtain ⟨hfirst, hrest⟩ := List.forall_mem_cons.1 huses
    intro e he
    rcases List.mem_cons.1 he with rfl | he
    · exact hlinked
    · exact ih ((linked_of_not_relinks hfirst).trans hlinked) hrest e he

/-- A value that is not refused is accepted by a linked program. -/
theorem outcome_of_accepted (hlinked : p.linked = true) (h : a.refusal? = none) :
    ((Operation.assign a).done p d).outcome = .ok () := by
  obtain ⟨result, asked, missing, uploads, hassigned, hresult, -, -, -⟩ := exists_assigned p a d
  have houtcome : ((Operation.assign a).done p d).outcome = result.1 := congrArg Prod.fst hresult
  rw [houtcome]
  cases hassigned with
  | unlinked hunlinked =>
    rw [hlinked] at hunlinked
    cases hunlinked
  | invalid | missing => rfl
  | located | found => simp only [settled, h]

end Device

/-- Operations on recorders after a link by which all that is active gets a value, each name as
what it is. -/
structure Sets (r : Recorder) (active : List String) (uses : List (Operation × Recorder)) :
    Prop where
  /-- The recorders are the one of the link at later times. -/
  later : ∀ use ∈ uses, r.Precedes use.2
  relinks : ∀ use ∈ uses, use.1.relinks = false
  kinds : ∀ a, .assign a ∈ uses.map Prod.fst → a.name ∈ active → r.Activates a.kind a.name
  accepted : ∀ name ∈ active, ∃ a, .assign a ∈ uses.map Prod.fst ∧ a.name = name ∧
    a.refusal? = none

section Recorder
variable {r : Recorder} {p : Program} {uses : List (Operation × Recorder)} {q : Query}

/-- With nothing but these operations done with the recorder, it only gets later. -/
theorem precedes_of_mem_uses {d : Recorder} {operations : List Operation} (hlater : r.Precedes d) :
    ∀ use ∈ p.course d operations, r.Precedes use.2 := by
  induction operations generalizing p d with
  | nil =>
    rintro use huse
    cases huse
  | cons o rest ih =>
    intro use huse
    rcases List.mem_cons.1 huse with rfl | hrest
    · exact hlater
    · exact ih (hlater.trans (Recorder.precedes_run _ d)) use hrest

/-- What was asked for was asked for by an assignment, and the recorder of the link says the
same. -/
theorem exists_assign_of_query (hstrict : ¬ r.permissive) (hlater : ∀ use ∈ uses, r.Precedes use.2)
    (hq : q ∈ queries (p.past uses)) : ∃ a, .assign a ∈ uses.map Prod.fst ∧ q.name = a.name ∧
      q.location = r.resolve a.kind a.name := by
  obtain ⟨e, he, hq⟩ := List.mem_flatMap.1 hq
  obtain ⟨p', o, d, huse, rfl⟩ := exists_use_of_mem_past he
  cases o with
  | setShaders | draw | activate | deactivate =>
    rw [queries_eq_nil p' d _ rfl] at hq
    cases hq
  | assign a =>
    refine ⟨a, List.mem_map_of_mem huse, ?_⟩
    rcases queries_assign p' a d with ⟨-, hnone⟩ | ⟨-, -, hqueries⟩
    · rw [hnone] at hq
      cases hq
    · rw [hqueries] at hq
      cases List.mem_singleton.1 hq
      rw [answer_locationRequest]
      exact ⟨rfl, Recorder.resolve_of_precedes hstrict (hlater _ huse) a.kind a.name⟩

/-- **Names that are set each as what they are are covered**, once all are set. -/
theorem covered_of_sets {active : List String} (hstrict : ¬ r.permissive)
    (hlinkable : ∀ kind, Linkable (r.declared kind)) (hlinked : p.linked = true)
    (h : Sets r active uses) {c : LinkCache} (hkept : Kept (p.past uses) c) {name : String}
    (hname : name ∈ active) : Covered (p.past uses) name := by
  obtain ⟨a, hassign, rfl, haccepted⟩ := h.accepted name hname
  obtain ⟨e, he, hoperation⟩ := exists_mem_past_of_use p uses hassign
  have hok : e.outcome = .ok () := by
    have hbefore := linked_before hlinked h.relinks e he
    obtain ⟨p', o, d, -, rfl⟩ := exists_use_of_mem_past he
    obtain rfl : o = .assign a := hoperation
    exact outcome_of_accepted hbefore haccepted
  -- It may have been looked up by another assignment of the name, but as what it is all the same.
  obtain ⟨q, hq, hsame⟩ := List.mem_map.1 (hkept.asked e he a hoperation hok)
  obtain ⟨a', hassign', hname', hlocation⟩ := exists_assign_of_query hstrict h.later hq
  have hactive : a'.name ∈ active := by rwa [← hname', hsame]
  have hpos : 0 ≤ q.location := by
    rw [hlocation]
    exact Recorder.resolve_nonneg hstrict (hlinkable a'.kind) (h.kinds a' hassign' hactive)
  exact ⟨e, he, a, hoperation, hok, ⟨q, hq, hsame, hpos⟩, List.mem_cons_self⟩

/-- What is active is so because of an attribute or a uniform. -/
theorem mem_active_iff_activates {o : Operation} (hlinks : (o.done p r).links = true)
    (name : String) :
    name ∈ (o.done p r).after.cache.active ↔ ∃ kind, r.Activates kind name := by
  rw [mem_active_iff hlinks, reports_of_recorder hlinks]
  constructor
  · rintro ⟨v, hv, hname⟩
    rcases List.mem_append.1 hv with hattribute | huniform
    · exact ⟨.attribute, v, hattribute, hname⟩
    · exact ⟨.uniform, v, huniform, hname⟩
  · rintro ⟨kind, v, hv, hname⟩
    refine ⟨v, List.mem_append.2 ?_, hname⟩
    cases kind with
    | «attribute» => exact .inl hv
    | uniform => exact .inr hv

theorem unset_eq_nil_of_sets {o : Operation} (hstrict : ¬ r.permissive)
    (hlinkable : ∀ kind, Linkable (r.declared kind)) (hlinks : (o.done p r).links = true)
    (h : Sets r (o.done p r).after.cache.active uses) :
    ((o.done p r).after.now uses).cache.unset = [] := by
  have hlinked : (o.done p r).after.linked = true := by
    rw [after_of_links hlinks]
  have hrest : ∀ e ∈ (o.done p r).after.past uses, e.links = false := by
    intro e he
    obtain ⟨p', o', d, huse, rfl⟩ := exists_use_of_mem_past he
    exact links_of_not_relinks (h.relinks _ huse)
  obtain ⟨hsince, hlast⟩ := lastLink_cons hlinks hrest
  obtain ⟨haccounted, hkept⟩ := accounted_past_of_links hlinks uses
  rw [hsince] at hkept
  refine List.eq_nil_iff_forall_not_mem.2 fun name hunset => ?_
  obtain ⟨hreported, hnot⟩ := (haccounted.unset name).1 hunset
  rw [hsince] at hnot
  refine hnot (covered_of_sets hstrict hlinkable hlinked h hkept ?_)
  rw [reportedNames, hlast] at hreported
  rw [after_of_links hlinks]
  exact mem_activeNames.2 hreported

end Recorder

/-- **Every active name can be set.**  A recorder that finds declared names only, of variables as
linkers give them, has a location for every name that a link makes active, as what it is active.
So when all active names have been set after a link, each as what it is, none is unset, and a draw
does not warn of any. -/
theorem settable {r : Recorder} (hstrict : ¬ r.permissive)
    (hlinkable : ∀ kind, Linkable (r.declared kind)) :
    (∀ kind name, r.Activates kind name → 0 ≤ r.resolve kind name) ∧
      ∀ (p : Program) (o : Operation), (o.done p r).links = true →
        (∀ name, name ∈ (o.done p r).after.cache.active ↔ ∃ kind, r.Activates kind name) ∧
          ∀ uses, Sets r (o.done p r).after.cache.active uses →
            ((o.done p r).after.now uses).cache.unset = [] ∧
              ∀ (mode : DrawMode) (selection : Selection) (d : Recorder),
                ((Operation.draw mode selection).done ((o.done p r).after.now uses) d).warnings =
                  [] := by
  refine ⟨fun kind name => Recorder.resolve_nonneg hstrict (hlinkable kind),
    fun p o hlinks => ⟨mem_active_iff_activates hlinks, fun uses hsets => ?_⟩⟩
  have hnone := unset_eq_nil_of_sets hstrict hlinkable hlinks hsets
  refine ⟨hnone, fun mode selection d => ?_⟩
  have hnodup : ((o.done p r).after.now uses).cache.unset.Nodup := by
    rw [hnone]
    exact List.nodup_nil
  exact (validates_draw hnodup).warns_not fun hwarns => hwarns.2.2 hnone

/-! ### An array and an image -/

/-- A recorder with an attribute, an array and an image. -/
def spelledRecorder : Recorder where
  attributes := [⟨"a_position", 0x8B50, 1⟩]
  uniforms := [⟨"u_counts[0]", 0x1404, 2⟩, ⟨"u_image", 0x8B5E, 1⟩]

def spelledLink : Done Recorder :=
  (Operation.setShaders "v" "f").done { handle := 1 } spelledRecorder

/-- Everything active is set, the last element first. -/
def spelledAssignments : List Assignment :=
  [.uniform "u_counts[1]" .int (.ints [7]), .sampler "u_image" Texture.target 9,
    .attribute "a_position" .vec2 (.buffer 11 8 0), .uniform "u_counts[0]" .int (.ints [5])]

/-- It is done right after the link. -/
def spelledUses : List (Operation × Recorder) :=
  spelledLink.after.course spelledLink.left (spelledAssignments.map .assign)

theorem linkable_spelledRecorder (kind : VariableKind) :
    Linkable (spelledRecorder.declared kind) := by
  cases kind with
  | «attribute» =>
    refine ⟨List.forall_mem_singleton.2 ?_, ?_⟩
    · exact ⟨by decide, forall_solid_of_all (by decide), .inl (by decide)⟩
    · rintro (_ | i) v hv <;> cases hv
      decide
  | uniform =>
    refine ⟨List.forall_mem_cons.2 ⟨?_, List.forall_mem_singleton.2 ?_⟩, ?_⟩
    · exact ⟨by decide, forall_solid_of_all (by decide),
        .inr ⟨"u_counts".toList, by decide, by decide⟩⟩
    · exact ⟨by decide, forall_solid_of_all (by decide), .inl (by decide)⟩
    · rintro (_ | _ | i) v hv <;> cases hv <;> decide

/-- All is set as it should be. -/
theorem sets_spelledUses : Sets spelledRecorder spelledLink.after.cache.active spelledUses := by
  have hoperations : spelledUses.map Prod.fst = spelledAssignments.map .assign :=
    operations_course _ _ _
  have hkinds : ∀ a ∈ spelledAssignments,
      ∃ v ∈ spelledRecorder.declared a.kind, a.name ∈ variableNames v := by decide
  have haccepted : ∀ name ∈ spelledLink.after.cache.active,
      ∃ a ∈ spelledAssignments, a.name = name ∧ a.refusal?.isNone := by decide
  refine ⟨precedes_of_mem_uses (Recorder.precedes_run _ spelledRecorder), fun use huse => ?_,
    fun a ha _ => ?_, fun name hname => ?_⟩
  · have hmem := List.mem_map_of_mem (f := Prod.fst) huse
    rw [hoperations] at hmem
    obtain ⟨a, -, ha⟩ := List.mem_map.1 hmem
    rw [← ha]
    rfl
  · rw [hoperations] at ha
    obtain ⟨a', ha', heq⟩ := List.mem_map.1 ha
    cases heq
    obtain ⟨v, hv, hname⟩ := hkinds a ha'
    exact ⟨v, hv, mem_variableNames_iff.1 hname⟩
  · obtain ⟨a, ha, hsame, hnone⟩ := haccepted name hname
    rw [hoperations]
    exact ⟨a, List.mem_map_of_mem ha, hsame, Option.isNone_iff_eq_none.1 hnone⟩

/-- **Nothing is unset, and nothing is warned of.** -/
theorem spelledUses_settle : spelledLink.links = true ∧
    0 ≤ spelledRecorder.resolve .uniform "u_counts[1]" ∧
    (spelledLink.after.now spelledUses).cache.unset = [] ∧
    ((Operation.draw .triangles (.range 0 3)).done (spelledLink.after.now spelledUses)
      spelledLink.left).warnings = [] := by
  have hlinks : spelledLink.links = true := by decide
  have hstrict : ¬ spelledRecorder.permissive := by decide
  obtain ⟨hresolve, hsets⟩ := settable hstrict linkable_spelledRecorder
  have hactivates : spelledRecorder.Activates .uniform "u_counts[1]" :=
    ⟨_, List.mem_cons_self, mem_variableNames_iff.1 (by decide)⟩
  obtain ⟨-, huses⟩ := hsets { handle := 1 } (.setShaders "v" "f") hlinks
  obtain ⟨hunset, hwarnings⟩ := huses spelledUses sets_spelledUses
  exact ⟨hlinks, hresolve _ _ hactivates, hunset, hwarnings _ _ _⟩

end Program
end DrawStream
