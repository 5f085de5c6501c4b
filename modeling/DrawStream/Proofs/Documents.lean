import DrawStream.Toml.Document
import Mathlib.Data.List.Nodup

/-! # What statements say about the outermost table

A statement changes one name of the outermost table: the first on the path to what it is about.
Either the name had no value and gets one, or it has a table, and that is changed
(`Document.Puts`, `Document.puts_of_carryOut?`).  So a name that no statement is about stays
without a value, and a value that is no table is there to the end, because a document with a
second value for it is none.  Hence what a document says of a name does not depend on the order of
its statements, nor on what they say of other names (`Document.lookup_ofStatements?`). -/
namespace DrawStream.Toml

/-- Whether a value is no table, so that nothing can be added to it. -/
def isLeaf : Toml → Bool
  | .table .. | .tables _ => false
  | _ => true

namespace Statement

/-- The names of the outermost table that statements are about, when the pairs that come first
are in the table at the end of `current`. -/
def outermost : (current : List String) → List Statement → List String
  | _, [] => []
  | current, .pair key _ :: rest =>
    (current ++ key.path).headD key.name :: outermost current rest
  | _, .table key :: rest | _, .tables key :: rest =>
    key.path.headD key.name :: outermost (key.path ++ [key.name]) rest

/-- The value that statements give a name of the outermost table.  The pairs of that table come
before all headers. -/
def given? (name : String) : List Statement → Option Toml
  | .pair ⟨[], other⟩ v :: rest => if other = name then some v else given? name rest
  | .pair _ _ :: rest => given? name rest
  | _ => none

end Statement

namespace Document

/-! ## Members that a change leaves alone -/

theorem lookup_concat (ms : Members) (name : String) (v : Toml) (k : String) :
    (ms ++ [(name, v)]).lookup k = (ms.lookup k).or (if k = name then some v else none) := by
  rw [List.lookup_append]
  by_cases hk : k = name
  · rw [hk, if_pos rfl, List.lookup_cons_self]
  · rw [if_neg hk, List.lookup_cons, beq_false_of_ne hk]
    rfl

theorem lookup_replace_of_ne {name k : String} (h : k ≠ name) (ms : Members) (v : Toml) :
    (replace ms name v).lookup k = ms.lookup k := by
  induction ms with
  | nil => rfl
  | cons m ms ih =>
    obtain ⟨other, w⟩ := m
    rw [replace, List.map_cons]
    by_cases hother : other = name
    · rw [if_pos hother, hother, List.lookup_cons, List.lookup_cons, beq_false_of_ne h]
      exact ih
    · rw [if_neg hother, List.lookup_cons, List.lookup_cons]
      cases k == other
      · exact ih
      · rfl

/-- What a statement does to members: one name that had no value gets one, or the table that it
has is changed. -/
inductive Puts (name : String) (ms : Members) : Members → Prop
  | new (h : ms.lookup name = none) (v : Toml) : Puts name ms (ms ++ [(name, v)])
  | changed {v : Toml} (h : ms.lookup name = some v) (hleaf : v.isLeaf = false) (w : Toml) :
    Puts name ms (replace ms name w)

namespace Puts
variable {name k : String} {ms ms' : Members} {v : Toml}

theorem elsewhere (h : Puts name ms ms') (hk : k ≠ name) : ms'.lookup k = ms.lookup k := by
  cases h with
  | new h v => rw [lookup_concat, if_neg hk, Option.or_none]
  | changed h hleaf w => exact lookup_replace_of_ne hk ms w

/-- A value that is no table stays. -/
theorem leaf (h : Puts name ms ms') (hv : ms.lookup k = some v) (hleaf : v.isLeaf) :
    ms'.lookup k = some v := by
  by_cases hk : k = name
  · subst hk
    cases h with
    | new h => rw [hv] at h; cases h
    | changed h htable =>
      rw [hv] at h
      cases h
      rw [hleaf] at htable
      cases htable
  · rw [h.elsewhere hk, hv]

end Puts

/-- A change behind a path is about the first name of the path. -/
theorem puts_of_change? {fresh : TableOrigin} {f : TableOrigin → Members → Option Members}
    {key : String} {path : List String} {origin : TableOrigin} {ms ms' : Members}
    (h : change? fresh f (key :: path) origin ms = some ms') : Puts key ms ms' := by
  rw [change?] at h
  split at h
  · rename_i hnone
    obtain ⟨inner, -, h⟩ := Option.bind_eq_some_iff.mp h
    cases h
    exact .new hnone _
  · rename_i htable
    split at h
    · cases h
    · obtain ⟨inner, -, h⟩ := Option.bind_eq_some_iff.mp h
      cases h
      exact .changed htable rfl _
  · rename_i htables
    obtain ⟨last, -, h⟩ := Option.bind_eq_some_iff.mp h
    cases h
    exact .changed htables rfl _
  · cases h

theorem puts_of_addTable? {name : String} {ms ms' : Members} (h : addTable? name ms = some ms') :
    Puts name ms ms' := by
  unfold addTable? at h
  split at h
  · rename_i hnone
    cases h
    exact .new hnone _
  · rename_i htable
    cases h
    exact .changed htable rfl _
  · cases h

theorem puts_of_addTables? {name : String} {ms ms' : Members}
    (h : addTables? name ms = some ms') : Puts name ms ms' := by
  unfold addTables? at h
  split at h
  · rename_i hnone
    cases h
    exact .new hnone _
  · rename_i htables
    cases h
    exact .changed htables rfl _
  · cases h

theorem addPair?_eq_some {key : Key} {v : Toml} {origin : TableOrigin} {ms ms' : Members}
    (h : addPair? key v origin ms = some ms') :
    ms.lookup key.name = none ∧ ms' = ms ++ [(key.name, v)] := by
  unfold addPair? at h
  split at h
  · cases h
  · split at h
    · cases h
    · rename_i hnone
      cases h
      exact ⟨Option.not_isSome_iff_eq_none.mp hnone, rfl⟩

/-- A change behind a path is about the first name of the path, or about the name that it is about
itself if there is no path. -/
theorem puts_of_change?_of_puts {fresh : TableOrigin} {f : TableOrigin → Members → Option Members}
    {name : String} (hf : ∀ {origin ms ms'}, f origin ms = some ms' → Puts name ms ms')
    {path : List String} {origin : TableOrigin} {ms ms' : Members}
    (h : change? fresh f path origin ms = some ms') : Puts (path.headD name) ms ms' := by
  cases path with
  | nil => exact hf h
  | cons key path => exact puts_of_change? h

/-- What a statement is about. -/
theorem puts_of_carryOut? {d d' : Document} {s : Statement} (h : d.carryOut? s = some d')
    (rest : List Statement) :
    ∃ name, Puts name d.members d'.members ∧
      Statement.outermost d.current (s :: rest) = name :: Statement.outermost d'.current rest := by
  cases s with
  | pair key v =>
    obtain ⟨members, hmembers, h⟩ := Option.bind_eq_some_iff.mp h
    cases h
    have hinner {origin : TableOrigin} {ms ms' : Members}
        (h : change? .dotted (addPair? key v) key.path origin ms = some ms') :
        Puts (key.path.headD key.name) ms ms' :=
      puts_of_change?_of_puts (fun h => by
        obtain ⟨hnone, rfl⟩ := addPair?_eq_some h
        exact .new hnone v) h
    refine ⟨_, puts_of_change?_of_puts hinner hmembers, ?_⟩
    rw [Statement.outermost]
    cases d.current <;> rfl
  | table key =>
    obtain ⟨members, hmembers, h⟩ := Option.bind_eq_some_iff.mp h
    cases h
    exact ⟨_, puts_of_change?_of_puts puts_of_addTable? hmembers, rfl⟩
  | tables key =>
    obtain ⟨members, hmembers, h⟩ := Option.bind_eq_some_iff.mp h
    cases h
    exact ⟨_, puts_of_change?_of_puts puts_of_addTables? hmembers, rfl⟩

/-! ## Members after a run of statements -/

section Runs
variable {statements : List Statement} {d d' : Document} {name : String} {v : Toml}

/-- A value that is no table stays to the end. -/
theorem lookup_of_leaf (h : statements.foldlM carryOut? d = some d')
    (hv : d.members.lookup name = some v) (hleaf : v.isLeaf) : d'.members.lookup name = some v := by
  induction statements generalizing d with
  | nil =>
    cases h
    exact hv
  | cons s rest ih =>
    obtain ⟨next, hnext, h⟩ := Option.bind_eq_some_iff.mp h
    obtain ⟨_, hputs, -⟩ := puts_of_carryOut? hnext rest
    exact ih h (hputs.leaf hv hleaf)

/-- A name that no statement is about stays as it is. -/
theorem lookup_of_notMem (h : statements.foldlM carryOut? d = some d')
    (hname : name ∉ Statement.outermost d.current statements) :
    d'.members.lookup name = d.members.lookup name := by
  induction statements generalizing d with
  | nil =>
    cases h
    rfl
  | cons s rest ih =>
    obtain ⟨next, hnext, h⟩ := Option.bind_eq_some_iff.mp h
    obtain ⟨about, hputs, houtermost⟩ := puts_of_carryOut? hnext rest
    rw [houtermost, List.mem_cons, not_or] at hname
    rw [ih h hname.2, hputs.elsewhere hname.1]

/-- A name has the value that the statements give it. -/
theorem lookup_of_given? (h : statements.foldlM carryOut? d = some d') (hcurrent : d.current = [])
    (hgiven : Statement.given? name statements = some v) (hleaf : v.isLeaf) :
    d'.members.lookup name = some v := by
  induction statements generalizing d with
  | nil => cases hgiven
  | cons s rest ih =>
    obtain ⟨next, hnext, hrest⟩ := Option.bind_eq_some_iff.mp h
    cases s with
    | table | tables => cases hgiven
    | pair key w =>
      obtain ⟨members, hmembers, hnext⟩ := Option.bind_eq_some_iff.mp hnext
      cases hnext
      obtain ⟨path, other⟩ := key
      cases path with
      | cons first path => exact ih hrest hcurrent hgiven
      | nil =>
        rw [Statement.given?] at hgiven
        split at hgiven
        case isFalse => exact ih hrest hcurrent hgiven
        case isTrue hother =>
          cases hgiven
          rw [hcurrent] at hmembers
          obtain ⟨hnone, hmembers⟩ :=
            addPair?_eq_some (show addPair? ⟨[], other⟩ v .header d.members = _ from hmembers)
          refine lookup_of_leaf hrest ?_ hleaf
          rw [hmembers, lookup_concat, ← hother, hnone, if_pos rfl, Option.none_or]

end Runs

/-- **What a document says about a name of the outermost table**: the value that its statements
give the name if that is no table, and nothing if no statement is about the name. -/
theorem lookup_ofStatements? {statements : List Statement} {ms : Members}
    (h : ofStatements? statements = some ms) (name : String) :
    (∀ v, Statement.given? name statements = some v → v.isLeaf → ms.lookup name = some v) ∧
      (name ∉ Statement.outermost [] statements → ms.lookup name = none) := by
  obtain ⟨d, hd, h⟩ := Option.bind_eq_some_iff.mp h
  cases h
  exact ⟨fun v hgiven hleaf => lookup_of_given? hd rfl hgiven hleaf,
    fun hname => lookup_of_notMem hd hname⟩

/-- Pairs with different names are a document, whatever their order. -/
theorem ofStatements?_pairs {ms : Members} (h : (ms.map Prod.fst).Nodup) :
    ofStatements? (ms.map fun m => .pair ⟨[], m.1⟩ m.2) = some ms := by
  have hrun (front : Members) (hfront : ((front ++ ms).map Prod.fst).Nodup) :
      (ms.map fun m => Statement.pair ⟨[], m.1⟩ m.2).foldlM carryOut? ⟨front, []⟩ =
        some ⟨front ++ ms, []⟩ := by
    clear h
    induction ms generalizing front with
    | nil => simp
    | cons m ms ih =>
      have hnone : front.lookup m.1 = none := by
        rw [List.lookup_eq_none_iff]
        intro other hother
        rw [List.map_append, List.nodup_append] at hfront
        have hne := hfront.2.2 _ (List.mem_map_of_mem hother) m.1 (by simp)
        exact bne_iff_ne.mpr hne.symm
      have hstep : carryOut? ⟨front, []⟩ (.pair ⟨[], m.1⟩ m.2) = some ⟨front ++ [m], []⟩ := by
        show (addPair? ⟨[], m.1⟩ m.2 .header front).bind _ = _
        simp [addPair?, hnone]
      rw [List.append_cons] at hfront ⊢
      rw [List.map_cons, List.foldlM_cons, hstep]
      exact ih _ hfront
  rw [ofStatements?, hrun [] h]
  rfl

end Document
end DrawStream.Toml
