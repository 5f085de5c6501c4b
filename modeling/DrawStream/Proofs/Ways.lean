import DrawStream.Files.Tree
import Mathlib.Data.List.Infix
import Mathlib.Tactic.ByContra

/-! # Ways through a tree of files

A path is followed part by part, and each part needs a directory to start from.  So where a path
leads depends on directories only, and a tree that has more in it (`t ≤ u`) lets every path lead
where it led (`FileTree.find?_mono`).  From this follows what making directories amounts to.  What
was there stays (`le_makeWay?`); a way that was made is there, and stays there whatever else is
put into the tree (`makeWay?_of_le`); and on the way to a path that leads somewhere there is
nothing to make (`makeWay?_of_find?`).  For the last of these the directory of a path has to be
compared with the path: the one is made of the first parts of the other
(`Files.exists_parts_eq`), without the parts that lead nowhere else.  A path whose steps are names
can be reached as soon as no file is in its way (`exists_makeWay?`), from the root or from the
place where relative paths start. -/
namespace DrawStream

namespace Files

/-! ## Paths and their parts -/

theorem exists_split (cs : List Char) : ∃ part parts, split cs = part :: parts := by
  induction cs with
  | nil => exact ⟨_, _, rfl⟩
  | cons c cs ih =>
    obtain ⟨part, parts, hsplit⟩ := ih
    simp only [split, hsplit]
    split
    · exact ⟨_, _, rfl⟩
    · exact ⟨_, _, rfl⟩

theorem split_cons_slash (cs : List Char) : split ('/' :: cs) = [] :: split cs := by
  obtain ⟨part, parts, hsplit⟩ := exists_split cs
  simp only [split, hsplit, if_true]

theorem split_cons {c : Char} {cs part : List Char} {parts : List (List Char)} (hc : c ≠ '/')
    (hsplit : split cs = part :: parts) : split (c :: cs) = (c :: part) :: parts := by
  simp only [split, hsplit, if_neg hc]

theorem slash_notMem_split {cs part : List Char} (h : part ∈ split cs) : '/' ∉ part := by
  induction cs generalizing part with
  | nil =>
    rw [split, List.mem_singleton] at h
    exact h ▸ List.not_mem_nil
  | cons c cs ih =>
    obtain ⟨first, rest, hsplit⟩ := exists_split cs
    by_cases hc : c = '/'
    · rw [hc, split_cons_slash] at h
      rcases List.mem_cons.mp h with rfl | h
      · exact List.not_mem_nil
      · exact ih h
    · rw [split_cons hc hsplit] at h
      rcases List.mem_cons.mp h with rfl | h
      · intro hmem
        rcases List.mem_cons.mp hmem with heq | hmem
        · exact hc heq.symm
        · exact ih (hsplit ▸ List.mem_cons_self) hmem
      · exact ih (hsplit ▸ List.mem_cons_of_mem _ h)

theorem split_of_notMem {part : List Char} (h : '/' ∉ part) : split part = [part] := by
  induction part with
  | nil => rfl
  | cons c part ih =>
    rw [List.mem_cons, not_or] at h
    exact split_cons (Ne.symm h.1) (ih h.2)

theorem split_append_slash {part : List Char} (h : '/' ∉ part) (cs : List Char) :
    split (part ++ '/' :: cs) = part :: split cs := by
  induction part with
  | nil => exact split_cons_slash cs
  | cons c part ih =>
    rw [List.mem_cons, not_or] at h
    exact split_cons (Ne.symm h.1) (ih h.2)

/-- Joined parts are split into the parts again. -/
theorem split_intercalate {parts : List (List Char)} (hne : parts ≠ [])
    (h : ∀ part ∈ parts, '/' ∉ part) : split (['/'].intercalate parts) = parts := by
  induction parts with
  | nil => exact absurd rfl hne
  | cons part parts ih =>
    cases parts with
    | nil => rw [List.intercalate_singleton, split_of_notMem (h part List.mem_cons_self)]
    | cons next rest =>
      rw [List.intercalate_cons_cons, List.append_assoc, List.singleton_append,
        split_append_slash (h part List.mem_cons_self), ih (List.cons_ne_nil _ _)
        fun part hpart => h part (List.mem_cons_of_mem _ hpart)]

theorem intercalate_split (cs : List Char) : ['/'].intercalate (split cs) = cs := by
  induction cs with
  | nil => rfl
  | cons c cs ih =>
    obtain ⟨part, parts, hsplit⟩ := exists_split cs
    rw [hsplit] at ih
    by_cases hc : c = '/'
    · rw [hc, split_cons_slash, hsplit, List.intercalate_cons_cons, List.nil_append, ih,
        List.singleton_append]
    · rw [split_cons hc hsplit]
      cases parts with
      | nil =>
        rw [List.intercalate_singleton] at ih ⊢
        rw [ih]
      | cons next rest =>
        rw [List.intercalate_cons_cons] at ih ⊢
        rw [← ih]
        rfl

theorem parts_ne_nil (path : String) : parts path ≠ [] := by
  obtain ⟨part, rest, hsplit⟩ := exists_split path.toList
  rw [parts, hsplit]
  exact List.cons_ne_nil _ _

theorem slash_notMem_parts {path part : String} (h : part ∈ parts path) : '/' ∉ part.toList := by
  obtain ⟨cs, hcs, rfl⟩ := List.mem_map.mp h
  rw [String.toList_ofList]
  exact slash_notMem_split hcs

theorem toList_slash : "/".toList = ['/'] := rfl

theorem parts_intercalate {names : List String} (hne : names ≠ [])
    (h : ∀ name ∈ names, '/' ∉ name.toList) : parts ("/".intercalate names) = names := by
  have hslash : ∀ part ∈ names.map String.toList, '/' ∉ part := by
    intro part hpart
    obtain ⟨name, hname, rfl⟩ := List.mem_map.mp hpart
    exact h name hname
  have hmap : (String.ofList ∘ String.toList) = id := by
    funext s
    exact String.ofList_toList
  rw [parts, String.toList_intercalate, toList_slash,
    split_intercalate (by simpa using hne) hslash, List.map_map, hmap, List.map_id]

theorem intercalate_parts (path : String) : "/".intercalate (parts path) = path := by
  have hmap : (String.toList ∘ String.ofList) = id := by
    funext cs
    exact String.toList_ofList
  rw [← String.toList_inj, String.toList_intercalate, toList_slash, parts, List.map_map, hmap,
    List.map_id, intercalate_split]

/-! ## The way to a path -/

/-- A part that names something. -/
structure Names (part : String) : Prop where
  moves : staysPut part = false
  descends : part ≠ ".."
  isName : FileTree.isName part

/-- The parts of a path that lead somewhere else. -/
def steps (path : String) : List String := (parts path).filter fun part => !staysPut part

/-- A path of names, absolute or not, that ends in one and is short enough to be followed. -/
structure Plain (path : String) : Prop where
  isFollowed : FileTree.isFollowed path
  names : ∀ part ∈ steps path, Names part
  ends : ∃ front last, parts path = front ++ [last] ∧ staysPut last = false

theorem Plain.ne_empty {path : String} (h : Plain path) : path ≠ "" := by
  rintro rfl
  obtain ⟨front, last, hparts, hlast⟩ := h.ends
  have hempty : parts "" = [""] := by decide
  have hmem : last ∈ [""] := by
    rw [← hempty, hparts]
    exact List.mem_concat_self
  cases List.mem_singleton.mp hmem
  cases hlast

/-- The parts of a path that its directory has. -/
def lead (path : String) : List String :=
  ((((parts path).reverse.dropWhile staysPut).drop 1).dropWhile staysPut).reverse

theorem directory_eq (path : String) : directory path = "/".intercalate (lead path) := rfl

/-- The directory takes parts off the end, and one at least. -/
theorem exists_parts_eq (path : String) : ∃ more, more ≠ [] ∧ parts path = lead path ++ more := by
  have hnamed := List.dropWhile_suffix staysPut (l := (parts path).reverse)
  have hbefore := List.drop_suffix 1 ((parts path).reverse.dropWhile staysPut)
  have hlead := List.dropWhile_suffix staysPut
    (l := ((parts path).reverse.dropWhile staysPut).drop 1)
  obtain ⟨more, hmore⟩ := (hlead.trans hbefore).trans hnamed
  refine ⟨more.reverse, ?_, ?_⟩
  · rintro hnil
    have hpos := List.length_pos_of_ne_nil (parts_ne_nil path)
    have hlength := congrArg List.length hmore
    have hle := hlead.length_le
    have hle' := hnamed.length_le
    rw [List.reverse_eq_nil_iff.mp hnil, List.nil_append] at hlength
    rw [List.length_drop] at hle
    rw [List.length_reverse] at hlength hle'
    omega
  · rw [lead, ← List.reverse_append, hmore, List.reverse_reverse]

theorem way_eq (path : String) : way path = (lead path).filter fun part => !staysPut part := by
  rw [way, directory_eq]
  by_cases hlead : lead path = []
  · rw [hlead]
    rfl
  · obtain ⟨more, -, hmore⟩ := exists_parts_eq path
    rw [parts_intercalate hlead]
    intro name hname
    have hpart : name ∈ parts path := hmore ▸ List.mem_append_left _ hname
    exact slash_notMem_parts hpart

/-- What leads nowhere else does so at the end as well. -/
theorem filter_dropWhile (parts : List String) :
    (parts.dropWhile staysPut).filter (fun part => !staysPut part) =
      parts.filter fun part => !staysPut part := by
  induction parts with
  | nil => rfl
  | cons part parts ih =>
    by_cases hpart : staysPut part
    · rw [List.dropWhile_cons_of_pos hpart, ih, List.filter_cons_of_neg (by simp [hpart])]
    · rw [List.dropWhile_cons_of_neg hpart]

/-- The way to a path that ends in a name has its steps but for the last. -/
theorem steps_eq_way {path last : String} {front : List String}
    (hparts : parts path = front ++ [last]) (hlast : staysPut last = false) :
    steps path = way path ++ [last] := by
  have hlead : lead path = (front.reverse.dropWhile staysPut).reverse := by
    rw [lead, hparts, List.reverse_concat, List.dropWhile_cons_of_neg (by simp [hlast]),
      List.drop_one, List.tail_cons]
  have hway : way path = front.filter fun part => !staysPut part := by
    rw [way_eq, hlead, List.filter_reverse, filter_dropWhile, List.filter_reverse,
      List.reverse_reverse]
  rw [steps, hparts, List.filter_append, hway, List.filter_cons_of_pos (by simp [hlast]),
    List.filter_nil]

/-- The directory of a path is no longer than the path. -/
theorem utf8ByteSize_directory_le (path : String) :
    (directory path).utf8ByteSize ≤ path.utf8ByteSize := by
  obtain ⟨more, hmore, hparts⟩ := exists_parts_eq path
  rw [directory_eq]
  by_cases hlead : lead path = []
  · rw [hlead]
    exact Nat.zero_le _
  · conv_rhs => rw [← intercalate_parts path, hparts,
      String.intercalate_append_of_ne_nil hlead hmore, String.utf8ByteSize_append,
      String.utf8ByteSize_append]
    omega

end Files

namespace FileTree
variable {t u v : FileTree} {place next : Place} {path part : String} {parts : List String}

/-! ## What a tree keeps -/

/-- Everything in the first tree is in the second, and relative paths start where they did. -/
structure Kept (t u : FileTree) : Prop where
  entry : ∀ {place e}, t.entry place = some e → u.entry place = some e
  here : u.here = t.here

instance : LE FileTree := ⟨Kept⟩

theorem le_refl (t : FileTree) : t ≤ t := ⟨id, rfl⟩

theorem le_trans (htu : t ≤ u) (huv : u ≤ v) : t ≤ v :=
  ⟨fun h => huv.entry (htu.entry h), huv.here.trans htu.here⟩

theorem start_of_le (h : t ≤ u) (path : String) : u.start path = t.start path := by
  rw [start, start, h.here]

theorem le_put (h : t.entry place = none) (e : FileEntry) : t ≤ t.put place e := by
  refine ⟨fun {other e'} hother => ?_, rfl⟩
  have hne : other ≠ place := by
    rintro rfl
    rw [h] at hother
    cases hother
  simp only [put, if_neg hne, hother]

@[simp] theorem entry_put_self (t : FileTree) (place : Place) (e : FileEntry) :
    (t.put place e).entry place = some e := if_pos rfl

theorem entry_put_of_ne (t : FileTree) {place other : Place} (h : other ≠ place) (e : FileEntry) :
    (t.put place e).entry other = t.entry other := if_neg h

/-! ## Following a path -/

theorem isFollowed_directory (h : isFollowed path) : isFollowed (Files.directory path) := by
  have hshort : path.utf8ByteSize ≤ greatestPath := of_decide_eq_true h
  exact decide_eq_true ((Files.utf8ByteSize_directory_le path).trans hshort)

theorem directory_of_step? (h : t.step? place part = some next) :
    t.entry place = some .directory := by
  by_contra hnot
  rw [step?, if_pos hnot] at h
  cases h

/-- From a directory, where a part leads does not depend on the tree. -/
theorem step?_congr (ht : t.entry place = some .directory) (hu : u.entry place = some .directory) :
    t.step? place part = u.step? place part := by
  simp only [step?, ht, hu, ne_eq, not_true_eq_false, if_false]

theorem step?_mono (h : t ≤ u) (hstep : t.step? place part = some next) :
    u.step? place part = some next := by
  have hdirectory := directory_of_step? hstep
  rw [← step?_congr hdirectory (h.entry hdirectory), hstep]

/-- Where parts can be followed from there is a directory. -/
theorem directory_of_foldlM (hne : parts ≠ []) (h : parts.foldlM t.step? place = some next) :
    t.entry place = some .directory := by
  obtain ⟨part, rest, rfl⟩ := List.exists_cons_of_ne_nil hne
  rw [List.foldlM_cons] at h
  obtain ⟨_, hstep, -⟩ := Option.bind_eq_some_iff.mp h
  exact directory_of_step? hstep

theorem step?_of_staysPut (h : t.step? place part = some next) (hpart : Files.staysPut part) :
    next = place := by
  rw [step?, if_neg (not_not.mpr (directory_of_step? h)), if_pos hpart] at h
  exact (Option.some.inj h).symm

theorem foldlM_step?_mono (h : t ≤ u) (hfold : parts.foldlM t.step? place = some next) :
    parts.foldlM u.step? place = some next := by
  induction parts generalizing place with
  | nil => exact hfold
  | cons part parts ih =>
    rw [List.foldlM_cons] at hfold ⊢
    obtain ⟨between, hstep, hfold⟩ := Option.bind_eq_some_iff.mp hfold
    exact Option.bind_eq_some_iff.mpr ⟨between, step?_mono h hstep, ih hfold⟩

/-- A path that ends in a step leads where its steps do. -/
theorem foldlM_step?_of_steps {last : String} (hlast : Files.staysPut last = false)
    (h : ((parts ++ [last]).filter fun part => !Files.staysPut part).foldlM t.step? place =
      some next) :
    (parts ++ [last]).foldlM t.step? place = some next := by
  induction parts generalizing place with
  | nil => rwa [List.nil_append, List.filter_cons_of_pos (by simp [hlast])] at h
  | cons part parts ih =>
    rw [List.cons_append] at h ⊢
    rw [List.foldlM_cons]
    by_cases hpart : Files.staysPut part
    · rw [List.filter_cons_of_neg (by simpa using hpart)] at h
      have hne : ((parts ++ [last]).filter fun part => !Files.staysPut part) ≠ [] :=
        List.ne_nil_of_mem (List.mem_filter.mpr ⟨List.mem_concat_self, by simp [hlast]⟩)
      have hstep : t.step? place part = some place := by
        rw [step?, if_neg (not_not.mpr (directory_of_foldlM hne h)), if_pos hpart]
      exact Option.bind_eq_some_iff.mpr ⟨place, hstep, ih h⟩
    · rw [List.filter_cons_of_pos (by simpa using hpart), List.foldlM_cons] at h
      obtain ⟨between, hstep, h⟩ := Option.bind_eq_some_iff.mp h
      exact Option.bind_eq_some_iff.mpr ⟨between, hstep, ih h⟩

/-- A path leads where it did as long as nothing is taken away. -/
theorem find?_mono (h : t ≤ u) (hfind : t.find? path = some place) : u.find? path = some place := by
  unfold find? at hfind ⊢
  split at hfind
  · cases hfind
  · rename_i hfollowed
    rw [if_neg hfollowed, start_of_le h]
    exact foldlM_step?_mono h hfind

/-! ## Making directories -/

/-- Directories are made where nothing is. -/
theorem le_makeDirectories? (h : t.makeDirectories? place parts = some u) : t ≤ u := by
  induction parts generalizing t place with
  | nil =>
    cases h
    exact le_refl _
  | cons part parts ih =>
    rw [makeDirectories?] at h
    obtain ⟨next, hstep, h⟩ := Option.bind_eq_some_iff.mp h
    split at h
    · exact ih h
    · cases h
    · rename_i hnone
      exact le_trans (le_put hnone .directory) (ih h)

/-- No file comes about. -/
theorem file_of_makeDirectories? {other : Place} {bytes : List UInt8}
    (h : t.makeDirectories? place parts = some u) (hfile : u.entry other = some (.file bytes)) :
    t.entry other = some (.file bytes) := by
  induction parts generalizing t place with
  | nil =>
    cases h
    exact hfile
  | cons part parts ih =>
    rw [makeDirectories?] at h
    obtain ⟨next, -, h⟩ := Option.bind_eq_some_iff.mp h
    split at h
    · exact ih h
    · cases h
    · have hput := ih h
      by_cases hother : other = next
      · rw [hother, entry_put_self] at hput
        cases hput
      · rwa [entry_put_of_ne t hother] at hput

/-- Directories that were made are there, also when more has been made since. -/
theorem makeDirectories?_of_le (h : t.makeDirectories? place parts = some u) (huv : u ≤ v) :
    v.makeDirectories? place parts = some v := by
  induction parts generalizing t place with
  | nil => rfl
  | cons part parts ih =>
    have hle := le_makeDirectories? h
    rw [makeDirectories?] at h ⊢
    obtain ⟨next, hstep, h⟩ := Option.bind_eq_some_iff.mp h
    refine Option.bind_eq_some_iff.mpr ⟨next, step?_mono (le_trans hle huv) hstep, ?_⟩
    split at h
    · rename_i hentry
      rw [huv.entry (hle.entry hentry)]
      exact ih h
    · cases h
    · rw [huv.entry ((le_makeDirectories? h).entry (entry_put_self t next .directory))]
      exact ih h

/-- Where a path can be followed further, no directory is missing. -/
theorem makeDirectories?_of_foldlM {more : List String} (hmore : more ≠ [])
    (h : (parts ++ more).foldlM t.step? place = some next) :
    t.makeDirectories? place (parts.filter fun part => !Files.staysPut part) = some t := by
  induction parts generalizing place with
  | nil => rfl
  | cons part parts ih =>
    rw [List.cons_append, List.foldlM_cons] at h
    obtain ⟨between, hstep, h⟩ := Option.bind_eq_some_iff.mp h
    by_cases hpart : Files.staysPut part
    · rw [step?_of_staysPut hstep hpart] at h
      rw [List.filter_cons_of_neg (by simpa using hpart)]
      exact ih h
    · rw [List.filter_cons_of_pos (by simpa using hpart), makeDirectories?]
      refine Option.bind_eq_some_iff.mpr ⟨between, hstep, ?_⟩
      rw [directory_of_foldlM (List.append_ne_nil_of_right_ne_nil parts hmore) h]
      exact ih h

theorem makeWay?_eq_some_iff : t.makeWay? path = some u ↔
    isFollowed (Files.directory path) ∧
      t.makeDirectories? (t.start path) (Files.way path) = some u := by
  unfold makeWay?
  split
  case isTrue hfollowed => exact ⟨fun h => ⟨hfollowed, h⟩, And.right⟩
  case isFalse hlong =>
    constructor
    · intro h
      cases h
    · rintro ⟨hfollowed, -⟩
      exact absurd hfollowed hlong

theorem le_makeWay? (h : t.makeWay? path = some u) : t ≤ u :=
  le_makeDirectories? (makeWay?_eq_some_iff.mp h).2

theorem file_of_makeWay? {other : Place} {bytes : List UInt8} (h : t.makeWay? path = some u)
    (hfile : u.entry other = some (.file bytes)) : t.entry other = some (.file bytes) :=
  file_of_makeDirectories? (makeWay?_eq_some_iff.mp h).2 hfile

/-- A way that was made is there, also when more has been made since. -/
theorem makeWay?_of_le (h : t.makeWay? path = some u) (huv : u ≤ v) :
    v.makeWay? path = some v := by
  obtain ⟨hfollowed, hmade⟩ := makeWay?_eq_some_iff.mp h
  refine makeWay?_eq_some_iff.mpr ⟨hfollowed, ?_⟩
  rw [start_of_le (le_trans (le_makeWay? h) huv)]
  exact makeDirectories?_of_le hmade huv

/-- There is nothing to make on the way to a path that leads somewhere. -/
theorem makeWay?_of_find? (h : t.find? path = some place) : t.makeWay? path = some t := by
  unfold find? at h
  split at h
  · cases h
  · rename_i hfollowed
    rw [not_or] at hfollowed
    obtain ⟨more, hmore, hparts⟩ := Files.exists_parts_eq path
    have hshort : isFollowed path := by simpa using hfollowed.2
    refine makeWay?_eq_some_iff.mpr ⟨isFollowed_directory hshort, ?_⟩
    rw [Files.way_eq]
    rw [hparts] at h
    exact makeDirectories?_of_foldlM hmore h

theorem step?_of_names (h : t.entry place = some .directory) (hpart : Files.Names part) :
    t.step? place part = some (place ++ [part]) := by
  rw [step?, if_neg (not_not.mpr h), if_neg (by simp [hpart.moves]), if_neg hpart.descends,
    if_pos hpart.isName]

/-- Where no file is in the way, a way of names can be made.  It leads to its end then, and nothing
has changed beside it. -/
theorem exists_makeDirectories? (hplace : t.entry place = some .directory)
    (hnames : ∀ part ∈ parts, Files.Names part)
    (hfree : ∀ front, front <+: parts → ∀ bytes, t.entry (place ++ front) ≠ some (.file bytes)) :
    ∃ u, t.makeDirectories? place parts = some u ∧
      parts.foldlM u.step? place = some (place ++ parts) ∧
      u.entry (place ++ parts) = some .directory ∧
      ∀ other, (∀ front, front <+: parts → other ≠ place ++ front) →
        u.entry other = t.entry other := by
  induction parts generalizing t place with
  | nil => exact ⟨t, rfl, by simp, by simpa using hplace, fun _ _ => rfl⟩
  | cons part parts ih =>
    have happend (front : List String) : place ++ part :: front = place ++ [part] ++ front := by
      rw [List.append_assoc, List.singleton_append]
    have hstep := step?_of_names hplace (hnames part List.mem_cons_self)
    have hrest : ∀ part ∈ parts, Files.Names part :=
      fun part hpart => hnames part (List.mem_cons_of_mem _ hpart)
    have hopen := hfree [part] ⟨parts, rfl⟩
    -- Behind this part the way starts in `w`, which has a directory more if it was missing.
    obtain ⟨w, hw, htw, hnext, hother⟩ : ∃ w : FileTree,
        t.makeDirectories? place (part :: parts) = w.makeDirectories? (place ++ [part]) parts ∧
        t ≤ w ∧ w.entry (place ++ [part]) = some .directory ∧
        ∀ other, other ≠ place ++ [part] → w.entry other = t.entry other := by
      simp only [makeDirectories?, hstep, Option.bind_eq_bind, Option.bind_some]
      rcases hentry : t.entry (place ++ [part]) with _ | _ | bytes
      · exact ⟨_, rfl, le_put hentry .directory, entry_put_self .., fun _ h =>
          entry_put_of_ne t h .directory⟩
      · exact ⟨t, rfl, le_refl t, hentry, fun _ _ => rfl⟩
      · exact absurd hentry (hopen bytes)
    obtain ⟨u, hmade, hfold, hend, hbeside⟩ := ih hnext hrest (by
      intro front hfront bytes
      by_cases hfirst : front = []
      · rw [hfirst, List.append_nil, hnext]
        exact fun h => by cases h
      · rw [hother _ (by simpa using hfirst), ← happend]
        exact hfree _ (List.cons_prefix_cons.mpr ⟨rfl, hfront⟩) bytes)
    refine ⟨u, hw.trans hmade, ?_, by rw [happend, hend], ?_⟩
    · rw [List.foldlM_cons, step?_mono (le_trans htw (le_makeDirectories? hmade)) hstep,
        happend parts]
      exact hfold
    · intro other hother'
      rw [hbeside other, hother other (hother' [part] ⟨parts, rfl⟩)]
      intro front hfront
      rw [← happend]
      exact hother' _ (List.cons_prefix_cons.mpr ⟨rfl, hfront⟩)

/-- Where a plain path starts from a directory and no file is in the way, it can be reached. -/
theorem exists_makeWay? (hpath : Files.Plain path)
    (hstart : t.entry (t.start path) = some .directory)
    (hfree : ∀ front, front <+: (Files.steps path).dropLast →
      ∀ bytes, t.entry (t.start path ++ front) ≠ some (.file bytes)) :
    ∃ u, t.makeWay? path = some u ∧ u.find? path = some (t.start path ++ Files.steps path) ∧
      u.entry (t.start path ++ Files.steps path) = t.entry (t.start path ++ Files.steps path) := by
  obtain ⟨front, last, hparts, hlast⟩ := hpath.ends
  have hsteps := Files.steps_eq_way hparts hlast
  rw [hsteps, List.dropLast_concat] at hfree
  have hway : ∀ part ∈ Files.way path, Files.Names part := fun part hpart =>
    hpath.names part (hsteps ▸ List.mem_append_left _ hpart)
  have hname : Files.Names last := hpath.names last (hsteps ▸ List.mem_concat_self)
  obtain ⟨u, hmade, hfold, hend, hbeside⟩ := exists_makeDirectories? hstart hway hfree
  have hmakes : t.makeWay? path = some u :=
    makeWay?_eq_some_iff.mpr ⟨isFollowed_directory hpath.isFollowed, hmade⟩
  refine ⟨u, hmakes, ?_, ?_⟩
  · have hreached : (Files.steps path).foldlM u.step? (t.start path) =
        some (t.start path ++ Files.steps path) := by
      rw [hsteps, List.foldlM_append, hfold, Option.bind_eq_bind, Option.bind_some,
        List.foldlM_cons, step?_of_names hend hname, List.append_assoc]
      rfl
    rw [find?, if_neg (by simp [hpath.ne_empty, hpath.isFollowed]),
      start_of_le (le_makeWay? hmakes), hparts]
    rw [Files.steps, hparts] at hreached ⊢
    exact foldlM_step?_of_steps hlast hreached
  · refine hbeside _ fun front hfront heq => ?_
    have hlength := congrArg List.length (List.append_cancel_left heq)
    have hle := hfront.length_le
    rw [hsteps, List.length_append, List.length_singleton] at hlength
    omega

/-! ## What is at a path -/

theorem exists_of_contains (h : t.contains path) :
    ∃ place e, t.find? path = some place ∧ t.entry place = some e := by
  obtain ⟨e, he⟩ := Option.isSome_iff_exists.mp h
  obtain ⟨place, hplace, hentry⟩ := Option.bind_eq_some_iff.mp he
  exact ⟨place, e, hplace, hentry⟩

theorem contains_of_entry {e : FileEntry} (hplace : t.find? path = some place)
    (hentry : t.entry place = some e) : t.contains path := by
  rw [contains, hplace, Option.bind_some, hentry, Option.isSome_some]

theorem read?_eq_some_iff {bytes : List UInt8} : t.read? path = some bytes ↔
    ∃ place, t.find? path = some place ∧ t.entry place = some (.file bytes) := by
  rw [read?]
  constructor
  · intro h
    obtain ⟨place, hplace, h⟩ := Option.bind_eq_some_iff.mp h
    obtain ⟨e, hentry, h⟩ := Option.bind_eq_some_iff.mp h
    cases e with
    | directory => cases h
    | file bytes' =>
      cases h
      exact ⟨place, hplace, hentry⟩
  · rintro ⟨place, hplace, hentry⟩
    rw [hplace, Option.bind_eq_bind, Option.bind_some, hentry]
    rfl

/-! ## What a tree answers -/

section Play
variable {α : Type} (path : String) (t : FileTree)

theorem play_makeWay (next : Bool → Dialogue FileRequest α) :
    (Dialogue.ask (.makeWay path) next).play answer t =
      (next (t.makeWay? path).isSome).play answer ((t.makeWay? path).getD t) := by
  rw [Dialogue.play_ask, answer]

theorem play_exists (next : Bool → Dialogue FileRequest α) :
    (Dialogue.ask (.exists path) next).play answer t =
      (next (t.contains path)).play answer t := by
  rw [Dialogue.play_ask, answer]

theorem play_write (text : String) (next : Bool → Dialogue FileRequest α) :
    (Dialogue.ask (.write path text) next).play answer t =
      (next (t.write? path (Text.Utf8.encode text)).isSome).play answer
        ((t.write? path (Text.Utf8.encode text)).getD t) := by
  rw [Dialogue.play_ask, answer]

theorem play_read (next : Option (List UInt8) → Dialogue FileRequest α) :
    (Dialogue.ask (.read path) next).play answer t =
      (next (t.read? path)).play answer t := by
  rw [Dialogue.play_ask, answer]

end Play

end FileTree
end DrawStream
