import DrawStream.Proofs.Coverage
import DrawStream.Proofs.Locations

/-! # The names that a link makes active

A name ends in a subscript if digits stand in brackets at its end, with blanks allowed around
the brackets, and something else in front (`Subscripted`).  A reported variable stands for its
own name, if that has no subscript and there is no more than one element.  Otherwise it stands
for its elements, the first of which is always there (`NameOf`).  After a link the active names
are the names that the reported variables stand for, and a recorder reports its attributes and
its uniforms (`active_iff_nameOf`). -/
namespace DrawStream

namespace Text

/-! ### Blanks at the end -/

/-- Nothing but blanks. -/
def Blanks (cs : List Char) : Prop := ∀ c ∈ cs, isBlank c = true

/-- There is no blank at the end. -/
def Trimmed (cs : List Char) : Prop := ∀ c ∈ cs.getLast?, isBlank c = false

theorem trimmed_concat {cs : List Char} {c : Char} (h : isBlank c = false) :
    Trimmed (cs ++ [c]) := by
  intro d hd
  rw [List.getLast?_concat] at hd
  cases hd
  exact h

/-- The blanks at the end are left out, and no other characters. -/
theorem trimEnd_eq_iff {cs front : List Char} :
    trimEnd cs = front ↔ Trimmed front ∧ ∃ tail, Blanks tail ∧ cs = front ++ tail := by
  constructor
  · rintro rfl
    refine ⟨fun c hc => ?_, (cs.reverse.takeWhile isBlank).reverse, fun c hc => ?_, ?_⟩
    · have hhead := List.head?_dropWhile_not isBlank cs.reverse
      rw [trimEnd, List.getLast?_reverse] at hc
      rwa [Option.mem_def.1 hc] at hhead
    · exact List.mem_takeWhile_imp (List.mem_reverse.1 hc)
    · rw [trimEnd, ← List.reverse_append, List.takeWhile_append_dropWhile, List.reverse_reverse]
  · rintro ⟨htrimmed, tail, htail, rfl⟩
    have hblanks : ∀ c ∈ tail.reverse, isBlank c = true :=
      fun c hc => htail c (List.mem_reverse.1 hc)
    have hfront : front.reverse.dropWhile isBlank = front.reverse := by
      rcases hlast : front.reverse with _ | ⟨c, rest⟩
      · rfl
      · have hc : isBlank c = false := htrimmed c (by
          rw [← List.head?_reverse, hlast]
          rfl)
        rw [List.dropWhile_cons_of_neg (by simp [hc])]
    rw [trimEnd, List.reverse_append, List.dropWhile_append_of_pos hblanks, hfront,
      List.reverse_reverse]

end Text

namespace Program
open Text (Blanks Trimmed trimEnd trimEnd_eq_iff trimmed_concat isBlank)
open Json (Digits)

/-! ### Subscripts -/

/-- The name consists of `base` and a subscript. -/
structure Subscripted (base name : List Char) : Prop where
  spelled : ∃ gap digits tail, name = subscripted (base ++ gap) digits ++ tail ∧
    Blanks gap ∧ Digits digits ∧ Blanks tail
  base_ne_nil : base ≠ []
  trimmed : Trimmed base

theorem bracket_not_mem_of_digits {digits : List Char} (h : Digits digits) : '[' ∉ digits :=
  fun hmem => absurd (h.2 '[' hmem) (by decide)

/-- The brackets at the end of a name and what is in front. -/
theorem arrayBase?_of_brackets {name front inside : List Char}
    (hname : trimEnd name = subscripted front inside) (hinside : '[' ∉ inside) :
    arrayBase? name = if (trimEnd front).isEmpty || inside.reverse.isEmpty ||
      !inside.reverse.all Char.isDigit then none else some (trimEnd front) := by
  have hreverse : (trimEnd name).reverse = ']' :: (inside.reverse ++ '[' :: front.reverse) := by
    rw [hname]
    simp [subscripted]
  have hall : ∀ c ∈ inside.reverse, (c != '[') = true := by
    intro c hc
    rw [bne_iff_ne]
    rintro rfl
    exact hinside (List.mem_reverse.1 hc)
  have htake : (inside.reverse ++ '[' :: front.reverse).takeWhile (· != '[') = inside.reverse := by
    rw [List.takeWhile_append_of_pos hall]
    simp
  have hdrop : (inside.reverse ++ '[' :: front.reverse).dropWhile (· != '[') =
      '[' :: front.reverse := by
    rw [List.dropWhile_append_of_pos hall]
    simp
  simp only [arrayBase?, hreverse, htake, hdrop, List.reverse_reverse]

/-- Without brackets at the end there is no subscript. -/
theorem brackets_of_arrayBase? {name base : List Char} (h : arrayBase? name = some base) :
    ∃ front inside, trimEnd name = subscripted front inside ∧ '[' ∉ inside := by
  unfold arrayBase? at h
  split at h
  · next rest hrest =>
    dsimp only at h
    split at h
    · next front hfront =>
      refine ⟨front.reverse, (rest.takeWhile (· != '[')).reverse, ?_, fun hmem => ?_⟩
      · have hsplit := List.takeWhile_append_dropWhile (p := (· != '[')) (l := rest)
        rw [hfront] at hsplit
        calc trimEnd name = (']' :: rest).reverse := List.reverse_eq_iff.1 hrest
          _ = (']' :: (rest.takeWhile (· != '[') ++ '[' :: front)).reverse := by rw [hsplit]
          _ = subscripted front.reverse (rest.takeWhile (· != '[')).reverse := by
            simp [subscripted]
      · have hne := List.mem_takeWhile_imp (List.mem_reverse.1 hmem)
        simp at hne
    · cases h
  · cases h

/-- **A name has a subscript if there are digits in brackets at its end.** -/
theorem arrayBase?_eq_some_iff {name base : List Char} :
    arrayBase? name = some base ↔ Subscripted base name := by
  constructor
  · intro h
    obtain ⟨front, inside, hname, hinside⟩ := brackets_of_arrayBase? h
    rw [arrayBase?_of_brackets hname hinside, Option.ite_none_left_eq_some, Option.some.injEq] at h
    obtain ⟨hgood, hbase⟩ := h
    simp only [Bool.or_eq_true, List.isEmpty_iff, Bool.not_eq_true', not_or, Bool.not_eq_false,
      List.all_eq_true, List.reverse_eq_nil_iff, List.mem_reverse, hbase] at hgood
    obtain ⟨⟨hne, hnonempty⟩, hall⟩ := hgood
    obtain ⟨htrimmed, gap, hgap, rfl⟩ := trimEnd_eq_iff.1 hbase
    obtain ⟨-, tail, htail, rfl⟩ := trimEnd_eq_iff.1 hname
    exact ⟨⟨gap, inside, tail, rfl, hgap, ⟨hnonempty, hall⟩, htail⟩, hne, htrimmed⟩
  · rintro ⟨⟨gap, digits, tail, rfl, hgap, hdigits, htail⟩, hne, htrimmed⟩
    have hbase : trimEnd (base ++ gap) = base := trimEnd_eq_iff.2 ⟨htrimmed, gap, hgap, rfl⟩
    have hlast : Trimmed (subscripted (base ++ gap) digits) := by
      rw [subscripted, ← List.cons_append, ← List.append_assoc]
      exact trimmed_concat (by decide)
    rw [arrayBase?_of_brackets (trimEnd_eq_iff.2 ⟨hlast, tail, htail, rfl⟩)
      (bracket_not_mem_of_digits hdigits), hbase]
    refine if_neg ?_
    simp only [Bool.or_eq_true, List.isEmpty_iff, Bool.not_eq_true', not_or, Bool.not_eq_false,
      List.all_eq_true, List.reverse_eq_nil_iff, List.mem_reverse]
    exact ⟨⟨hne, hdigits.1⟩, hdigits.2⟩

/-- A name has one base at most. -/
theorem Subscripted.unique {base base' name : List Char} (h : Subscripted base name)
    (h' : Subscripted base' name) : base = base' :=
  Option.some.inj ((arrayBase?_eq_some_iff.2 h).symm.trans (arrayBase?_eq_some_iff.2 h'))

theorem arrayBase?_eq_none_iff {name : List Char} :
    arrayBase? name = none ↔ ∀ base, ¬ Subscripted base name := by
  rw [Option.eq_none_iff_forall_ne_some]
  exact forall_congr' fun base => not_congr arrayBase?_eq_some_iff

/-! ### Names of variables -/

/-- The names that a reported variable stands for. -/
inductive NameOf (v : Variable) : String → Prop
  | plain (bare : ∀ base, ¬ Subscripted base v.name.toList) (single : v.size ≤ 1) : NameOf v v.name
  | whole (bare : ∀ base, ¬ Subscripted base v.name.toList) (several : 1 < v.size) {i : Nat}
      (inside : (i : Int) < v.size) : NameOf v (elementName v.name i)
  | element {base : List Char} (subscript : Subscripted base v.name.toList) {i : Nat}
      (inside : (i : Int) < max v.size 1) : NameOf v (elementName (String.ofList base) i)

theorem mem_elements {base name : String} {n : Int} :
    name ∈ (List.range n.toNat).map (elementName base) ↔
      ∃ i : Nat, (i : Int) < n ∧ elementName base i = name := by
  simp only [List.mem_map, List.mem_range, Int.lt_toNat]

theorem mem_variableNames_iff {v : Variable} {name : String} :
    name ∈ variableNames v ↔ NameOf v name := by
  unfold variableNames
  rcases hbase : arrayBase? v.name.toList with _ | base
  · have hbare := arrayBase?_eq_none_iff.1 hbase
    by_cases hsize : v.size ≤ 1
    · simp only [Option.isNone_none, hsize, and_self, if_true, List.mem_singleton]
      constructor
      · rintro rfl
        exact .plain hbare hsize
      · intro h
        cases h with
        | plain => rfl
        | whole _ several => exact absurd hsize (Int.not_le.2 several)
        | element subscript => exact absurd subscript (hbare _)
    · have hseveral := Int.not_le.1 hsize
      have hmax : max v.size 1 = v.size := max_eq_left hseveral.le
      simp only [hsize, and_false, if_false, Option.map_none, Option.getD_none, hmax, mem_elements]
      constructor
      · rintro ⟨i, hi, rfl⟩
        exact .whole hbare hseveral hi
      · intro h
        cases h with
        | plain _ single => exact absurd single hsize
        | whole _ _ inside => exact ⟨_, inside, rfl⟩
        | element subscript => exact absurd subscript (hbare _)
  · have hsubscript := arrayBase?_eq_some_iff.1 hbase
    simp only [Option.isNone_some, Bool.false_eq_true, false_and, if_false, Option.map_some,
      Option.getD_some, mem_elements]
    constructor
    · rintro ⟨i, hi, rfl⟩
      exact .element hsubscript hi
    · intro h
      cases h with
      | plain bare | whole bare => exact absurd hsubscript (bare _)
      | element subscript inside =>
        obtain rfl := subscript.unique hsubscript
        exact ⟨_, inside, rfl⟩

/-! ### What a recorder reports -/

theorem map_variableAt (declared : List Variable) :
    (List.range' 0 declared.length).map (Recorder.variableAt declared) = declared := by
  refine List.ext_getElem (by simp) fun i hi hlength => ?_
  simp [Recorder.variableAt, hlength]

theorem run_collect {r : Recorder} {declared : List Variable} (ask : Nat → Request Variable)
    (hask : ∀ i, Device.answer (ask i) r = (Recorder.variableAt declared i, r)) (count i : Nat) :
    ((collect ask count i).run r).value =
        (List.range' i count).map (Recorder.variableAt declared) ∧
      ((collect ask count i).run r).device = r := by
  induction count generalizing i with
  | zero => exact ⟨rfl, rfl⟩
  | succ count ih =>
    obtain ⟨hvalue, hdevice⟩ := ih (i + 1)
    have hrequest : ((Script.request (ask i)).run r).device = r := congrArg Prod.snd (hask i)
    simp only [collect, Dialogue.bind_eq, Script.run_bind, value_request, hask, hrequest, hvalue,
      hdevice, Dialogue.pure_eq_done, Script.run_done, List.range'_succ, List.map_cons]
    exact ⟨trivial, trivial⟩

theorem value_reported (p : Program) (r : Recorder) :
    (p.reported.run r).value = r.attributes ++ r.uniforms := by
  have hask (i : Nat) : Device.answer (.activeAttribute p.handle i) r =
      (Recorder.variableAt r.attributes i, r) := rfl
  have hask' (i : Nat) : Device.answer (.activeUniform p.handle i) r =
      (Recorder.variableAt r.uniforms i, r) := rfl
  obtain ⟨hattributes, hleft⟩ := run_collect _ hask r.attributes.length 0
  obtain ⟨huniforms, -⟩ := run_collect _ hask' r.uniforms.length 0
  rw [map_variableAt] at hattributes huniforms
  have hcount : (Script.request (.attributeCount p.handle)).run r =
      ⟨r.attributes.length, r, _⟩ := rfl
  have hcount' : (Script.request (.uniformCount p.handle)).run r =
      ⟨r.uniforms.length, r, _⟩ := rfl
  simp only [reported, Dialogue.bind_eq, Script.run_bind, hcount, hattributes, hleft, hcount',
    huniforms, Dialogue.pure_eq_done, Script.run_done]

/-- A recorder reports its attributes and its uniforms. -/
theorem reports_of_recorder {p : Program} {o : Operation} {r : Recorder}
    (h : (o.done p r).links = true) : (o.done p r).reports = r.attributes ++ r.uniforms := by
  obtain ⟨vertex, fragment, rfl, hok⟩ := exists_of_links h
  have hbuild : (p.buildAlone vertex fragment).gather Request.report? r = [] :=
    (p.within_buildAlone vertex fragment).gather_of_not_mem r (by decide) report?_eq_none
  have hprecedes := Recorder.precedes_run (p.buildAlone vertex fragment) r
  simp only [Operation.done, Operation.perform, setShaders_eq, Script.run_bind,
    Script.gather_bind, hbuild, List.nil_append] at hok ⊢
  generalize (p.buildAlone vertex fragment).run r = built at *
  cases hbuilt : built.value with
  | error failure =>
    rw [hbuilt] at hok
    cases hok
  | ok =>
    simp [setBuilt, Script.gather_bind, gather_reported, value_reported, hprecedes.attributes,
      hprecedes.uniforms]

/-! ### The active names -/

section
variable {σ : Type} [Device σ] {p : Program} {o : Operation} {d : σ}

theorem mem_active_iff (h : (o.done p d).links = true) (name : String) :
    name ∈ (o.done p d).after.cache.active ↔ ∃ v ∈ (o.done p d).reports, NameOf v name := by
  rw [after_of_links h]
  refine mem_activeNames.trans ?_
  simp only [List.mem_flatMap, mem_variableNames_iff]

end

/-- **The active names are those that the reported variables stand for**, on every device and for
every report.  A recorder reports its attributes and its uniforms. -/
theorem active_iff_nameOf {σ : Type} [Device σ] :
    (∀ name base, arrayBase? name = some base ↔ Subscripted base name) ∧
      (∀ name base base', Subscripted base name → Subscripted base' name → base = base') ∧
      (∀ (p : Program) (o : Operation) (d : σ), (o.done p d).links = true → ∀ name,
        name ∈ (o.done p d).after.cache.active ↔ ∃ v ∈ (o.done p d).reports, NameOf v name) ∧
      ∀ (p : Program) (o : Operation) (r : Recorder), (o.done p r).links = true → ∀ name,
        name ∈ (o.done p r).after.cache.active ↔
          ∃ v ∈ r.attributes ++ r.uniforms, NameOf v name := by
  refine ⟨fun _ _ => arrayBase?_eq_some_iff, fun _ _ _ => Subscripted.unique,
    fun _ _ _ => mem_active_iff, fun p o r h name => ?_⟩
  rw [mem_active_iff h, reports_of_recorder h]

/-- An attribute without elements and with blanks around its brackets, and an array. -/
def blankRecorder : Recorder where
  attributes := [⟨"a [7]\t", 0x8B50, -3⟩]
  uniforms := [⟨"b", 0x1406, 2⟩]

def blankLink : Done Recorder := (Operation.setShaders "v" "f").done { handle := 1 } blankRecorder

theorem blankLink_active :
    blankLink.links = true ∧ "a[0]" ∈ blankLink.after.cache.active ∧
      "b[1]" ∈ blankLink.after.cache.active ∧ "b" ∉ blankLink.after.cache.active := by
  have hlinks : blankLink.links = true := by decide
  obtain ⟨hbase, -, -, hactive⟩ := active_iff_nameOf (σ := Recorder)
  have hmem := hactive { handle := 1 } (.setShaders "v" "f") blankRecorder hlinks
  have hsubscript : Subscripted ['a'] "a [7]\t".toList := (hbase _ _).1 (by decide)
  have hbare : ∀ base, ¬ Subscripted base "b".toList := arrayBase?_eq_none_iff.1 (by decide)
  have hzero : elementName (String.ofList ['a']) 0 = "a[0]" := by decide
  have hfirst : NameOf ⟨"a [7]\t", 0x8B50, -3⟩ "a[0]" := by
    rw [← hzero]
    exact .element hsubscript (by decide)
  have hsecond : NameOf ⟨"b", 0x1406, 2⟩ "b[1]" := .whole hbare (by decide) (i := 1) (by decide)
  refine ⟨hlinks, (hmem "a[0]").2 ⟨_, List.mem_cons_self, hfirst⟩,
    (hmem "b[1]").2 ⟨_, List.mem_cons_of_mem _ List.mem_cons_self, hsecond⟩, fun hb => ?_⟩
  obtain ⟨v, hv, hname⟩ := (hmem "b").1 hb
  have hno : ∀ v ∈ blankRecorder.attributes ++ blankRecorder.uniforms, "b" ∉ variableNames v := by
    decide
  exact hno v hv (mem_variableNames_iff.2 hname)

end Program
end DrawStream
