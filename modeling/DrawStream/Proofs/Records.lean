import DrawStream.Record
import Mathlib.Data.List.Nodup

/-! # When a record is read from an object

Members are taken in by their keys, so of an object only the values under the name of each
field matter: none, if the field has a stand-in, or one that the field reads.  This is all
that it takes (`Slots.ofMembers_iff`).  Hence the order of the members does not matter, nor
what stands under other keys, but a second value under the name of a field is refused,
whatever it is.

So the fields may be written in any order, those with a stand-in or without
(`Slots.ofMembers_of_written`), and a required field without a member makes the reading fail
(`Slots.ofMembers_of_missing`), which is how a union tells its records apart. -/
namespace DrawStream

/-- The keys of an object's members. -/
def keys (members : List (String × Json)) : List String := members.map Prod.fst

/-- The values under a key. -/
def valuesUnder (key : String) (members : List (String × Json)) : List Json :=
  (members.filter fun m => m.1 = key).map Prod.snd

@[simp] theorem valuesUnder_nil (key : String) : valuesUnder key [] = [] := rfl

@[simp] theorem valuesUnder_cons_self (key : String) (v : Json) (members : List (String × Json)) :
    valuesUnder key ((key, v) :: members) = v :: valuesUnder key members := by
  simp [valuesUnder]

theorem valuesUnder_cons_of_ne {key other : String} (h : other ≠ key) (v : Json)
    (members : List (String × Json)) :
    valuesUnder key ((other, v) :: members) = valuesUnder key members := by
  simp [valuesUnder, h]

/-- As many values are under a key as it occurs among the keys. -/
theorem length_valuesUnder (key : String) (members : List (String × Json)) :
    (valuesUnder key members).length = (keys members).count key := by
  induction members with
  | nil => rfl
  | cons m members ih =>
    obtain ⟨other, v⟩ := m
    by_cases h : other = key
    · subst h
      rw [valuesUnder_cons_self, List.length_cons, ih]
      exact List.count_cons_self.symm
    · rw [valuesUnder_cons_of_ne h, ih]
      exact (List.count_cons_of_ne h).symm

/-- Members of other keys may be left out. -/
theorem valuesUnder_filter {key : String} (p : String → Prop) [DecidablePred p] (h : p key)
    {members : List (String × Json)} :
    valuesUnder key (members.filter fun m => p m.1) = valuesUnder key members := by
  unfold valuesUnder
  rw [List.filter_filter]
  refine congrArg _ (List.filter_congr ?_)
  intro m _
  by_cases hkey : m.1 = key
  · simp [hkey, h]
  · simp [hkey]

theorem valuesUnder_append (key : String) (xs ys : List (String × Json)) :
    valuesUnder key (xs ++ ys) = valuesUnder key xs ++ valuesUnder key ys := by
  simp only [valuesUnder, List.filter_append, List.map_append]

theorem valuesUnder_perm (key : String) {xs ys : List (String × Json)} (h : xs.Perm ys) :
    (valuesUnder key xs).Perm (valuesUnder key ys) :=
  (h.filter _).map _

theorem mem_valuesUnder {key : String} {v : Json} {members : List (String × Json)} :
    v ∈ valuesUnder key members ↔ (key, v) ∈ members := by
  simp only [valuesUnder, List.mem_map, List.mem_filter, decide_eq_true_eq]
  constructor
  · rintro ⟨⟨other, w⟩, ⟨hm, hkey⟩, hv⟩
    cases hkey
    cases hv
    exact hm
  · intro h
    exact ⟨(key, v), ⟨h, rfl⟩, rfl⟩

theorem valuesUnder_of_not_mem {key : String} {members : List (String × Json)}
    (h : key ∉ keys members) : valuesUnder key members = [] := by
  refine List.eq_nil_of_length_eq_zero ?_
  rw [length_valuesUnder]
  exact List.count_eq_zero_of_not_mem h

/-- A field reads a value. -/
def Field.Reads (f : Field) (v : Json) (a : f.Value) : Prop := f.read v = .ok a

/-- What a field makes of the values under its name. -/
def Field.Takes (f : Field) : List Json → f.Value → Prop
  | [], a => f.absent = some a
  | [v], a => f.Reads v a
  | _ :: _ :: _, _ => False

theorem Field.Takes.perm {f : Field} {vs ws : List Json} {a : f.Value} (h : f.Takes vs a)
    (horder : vs.Perm ws) : f.Takes ws a := by
  match vs with
  | [] => rwa [horder.nil_eq] at h
  | [v] => rwa [List.singleton_perm.1 horder] at h
  | _ :: _ :: _ => exact h.elim

/-! ### Taking members in -/
namespace Filled

/-- What values make of a slot that takes one value only, if it is one that `reads`. -/
def Fills {α : Type} (reads : Json → α → Prop) : Option α → List Json → Option α → Prop
  | slot, [], slot' => slot' = slot
  | slot, v :: vs, slot' => slot = none ∧ ∃ a, reads v a ∧ Fills reads (some a) vs slot'

theorem fills_some_iff {α : Type} {reads : Json → α → Prop} {vs : List Json} {a : α} :
    Fills reads none vs (some a) ↔ ∃ v, vs = [v] ∧ reads v a := by
  match vs with
  | [] =>
    constructor
    · intro h
      cases h
    · rintro ⟨v, h, -⟩
      cases h
  | [v] =>
    constructor
    · rintro ⟨-, b, hb, h⟩
      cases h
      exact ⟨v, rfl, hb⟩
    · rintro ⟨w, h, ha⟩
      cases h
      exact ⟨rfl, a, ha, rfl⟩
  | _ :: _ :: _ =>
    constructor
    · rintro ⟨-, b, -, hb, -⟩
      cases hb
    · rintro ⟨v, h, -⟩
      cases h

theorem put_of_not_mem {fs : List Field} {key : String} (h : key ∉ fs.map Field.name)
    (filled : Filled fs) (v : Json) : put fs filled key v = .ok filled := by
  induction fs with
  | nil => rfl
  | cons f fs ih =>
    obtain ⟨slot, rest⟩ := filled
    simp only [List.map_cons, List.mem_cons, not_or] at h
    obtain ⟨hne, hmem⟩ := h
    simp only [put, hne, ih hmem]
    rfl

/-- What the first field has so far, and what the others have. -/
def cons {f : Field} {fs : List Field} (slot : Option f.Value) (rest : Filled fs) :
    Filled (f :: fs) := (slot, rest)

theorem putAll_cons (fs : List Field) (filled : Filled fs) (key : String) (v : Json)
    (members : List (String × Json)) : putAll fs filled ((key, v) :: members) =
      (put fs filled key v >>= fun filled => putAll fs filled members) := rfl

section
variable {f : Field} {fs : List Field}

theorem put_first (rest : Filled fs) (v : Json) :
    put (f :: fs) (cons none rest) f.name v = (f.read v >>= fun a => .ok (cons (some a) rest)) :=
  if_pos rfl

theorem put_again (a : f.Value) (rest : Filled fs) (v : Json) :
    put (f :: fs) (cons (some a) rest) f.name v = .error (.repeated f.name) :=
  if_pos rfl

theorem put_other {key : String} (h : key ≠ f.name) (slot : Option f.Value) (rest : Filled fs)
    (v : Json) : put (f :: fs) (cons slot rest) key v =
      (put fs rest key v >>= fun rest => .ok (cons slot rest)) :=
  if_neg h

/-- The first field takes the values under its name, and the others do not see them. -/
theorem putAll_cons_iff (hname : f.name ∉ fs.map Field.name) {members : List (String × Json)} :
    ∀ {slot slot' : Option f.Value} {rest rest' : Filled fs},
      putAll (f :: fs) (cons slot rest) members = .ok (cons slot' rest') ↔
        Fills f.Reads slot (valuesUnder f.name members) slot' ∧
          putAll fs rest members = .ok rest' := by
  induction members with
  | nil =>
    intro slot slot' rest rest'
    constructor
    · intro h
      cases h
      exact ⟨rfl, rfl⟩
    · rintro ⟨hslot, hrest⟩
      cases hslot
      cases hrest
      rfl
  | cons m members ih =>
    obtain ⟨key, v⟩ := m
    intro slot slot' rest rest'
    by_cases hkey : key = f.name
    · subst hkey
      rw [valuesUnder_cons_self, putAll_cons, putAll_cons, put_of_not_mem hname, ok_bind]
      rcases slot with _ | a
      · rw [put_first]
        rcases hread : f.read v with cause | a
        · constructor
          · intro h
            cases h
          · rintro ⟨⟨-, a, ha, -⟩, -⟩
            rw [Field.Reads, hread] at ha
            cases ha
        · refine Iff.trans ih ?_
          constructor
          · rintro ⟨hfills, hrest⟩
            exact ⟨⟨rfl, a, hread, hfills⟩, hrest⟩
          · rintro ⟨⟨-, b, hb, hfills⟩, hrest⟩
            rw [Field.Reads, hread] at hb
            cases hb
            exact ⟨hfills, hrest⟩
      · rw [put_again]
        constructor
        · intro h
          cases h
        · rintro ⟨⟨h, -⟩, -⟩
          cases h
    · rw [valuesUnder_cons_of_ne hkey, putAll_cons, putAll_cons, put_other hkey]
      rcases put fs rest key v with cause | rest₁
      · constructor
        · intro h
          cases h
        · rintro ⟨-, h⟩
          cases h
      · exact ih

/-- With its stand-in, a field has the value that it takes. -/
theorem takes_iff {vs : List Json} {a : f.Value} :
    f.Takes vs a ↔ ∃ slot, Fills f.Reads none vs slot ∧ (slot <|> f.absent) = some a := by
  match vs with
  | [] =>
    constructor
    · intro h
      exact ⟨none, rfl, h⟩
    · rintro ⟨slot, rfl, h⟩
      exact h
  | [v] =>
    constructor
    · intro h
      exact ⟨some a, ⟨rfl, a, h, rfl⟩, rfl⟩
    · rintro ⟨slot, ⟨-, b, hb, rfl⟩, h⟩
      cases h
      exact hb
  | v :: w :: vs =>
    constructor
    · intro h
      exact h.elim
    · rintro ⟨slot, ⟨-, b, -, hb, -⟩, -⟩
      cases hb

theorem finish_cons (slot : Option f.Value) (rest : Filled fs) :
    finish (f :: fs) (cons slot rest) =
      match slot <|> f.absent with
      | some a => finish fs rest >>= fun slots => .ok (a, slots)
      | none => .error (.missing f.name) := by
  rcases hvalue : (slot <|> f.absent) with _ | a
  · simp only [finish, cons, hvalue]
    rfl
  · simp only [finish, cons, hvalue]
    rfl

theorem finish_cons_iff {slot : Option f.Value} {rest : Filled fs} {a : f.Value}
    {slots : Slots fs} : finish (f :: fs) (cons slot rest) = .ok (a, slots) ↔
      (slot <|> f.absent) = some a ∧ finish fs rest = .ok slots := by
  rw [finish_cons]
  rcases slot <|> f.absent with _ | b
  · constructor
    · intro h
      cases h
    · rintro ⟨h, -⟩
      cases h
  · constructor
    · intro h
      obtain ⟨slots', hrest, h⟩ := ok_of_bind h
      cases h
      exact ⟨rfl, hrest⟩
    · rintro ⟨h, hrest⟩
      cases h
      rw [hrest]
      rfl

end
end Filled

/-! ### Records -/
namespace Slots
open Filled

/-- Every field takes its value from the values under its name. -/
def Taken : (fs : List Field) → Slots fs → List (String × Json) → Prop
  | [], (), _ => True
  | f :: fs, (a, rest), members => f.Takes (valuesUnder f.name members) a ∧ Taken fs rest members

theorem ofMembers_cons_iff {f : Field} {fs : List Field} (hname : f.name ∉ fs.map Field.name)
    {members : List (String × Json)} {a : f.Value} {rest : Slots fs} :
    ofMembers (f :: fs) members = .ok (a, rest) ↔
      f.Takes (valuesUnder f.name members) a ∧ ofMembers fs members = .ok rest := by
  rw [takes_iff]
  constructor
  · intro h
    obtain ⟨⟨slot, filled⟩, hput, hfinish⟩ := ok_of_bind h
    obtain ⟨hslot, hrest⟩ := finish_cons_iff.1 hfinish
    obtain ⟨hfills, hput⟩ := (putAll_cons_iff hname).1 hput
    exact ⟨⟨slot, hfills, hslot⟩, by rw [ofMembers, hput]; exact hrest⟩
  · rintro ⟨⟨slot, hfills, hslot⟩, h⟩
    obtain ⟨filled, hput, hfinish⟩ := ok_of_bind h
    have hput := (putAll_cons_iff hname).2 ⟨hfills, hput⟩
    have hfinish := finish_cons_iff.2 ⟨hslot, hfinish⟩
    exact (congrArg (· >>= Filled.finish (f :: fs)) hput).trans hfinish

/-- **A record is read just if each field takes what is under its name.** -/
theorem ofMembers_iff {fs : List Field} (hnames : (fs.map Field.name).Nodup)
    {members : List (String × Json)} {slots : Slots fs} :
    ofMembers fs members = .ok slots ↔ Taken fs slots members := by
  induction fs with
  | nil =>
    have hput : putAll [] () members = .ok () := by
      induction members with
      | nil => rfl
      | cons m members ih => exact ih
    constructor
    · intro _
      trivial
    · intro _
      exact congrArg (· >>= Filled.finish []) hput
  | cons f fs ih =>
    obtain ⟨a, rest⟩ := slots
    obtain ⟨hname, hnames⟩ := List.nodup_cons.1 hnames
    rw [ofMembers_cons_iff hname, ih hnames]
    rfl

/-- Fields do not see more of the members than the values under their names. -/
theorem Taken.of_valuesUnder {fs : List Field} {slots : Slots fs}
    {given members : List (String × Json)} (h : Taken fs slots members)
    (horder : ∀ f ∈ fs, (valuesUnder f.name members).Perm (valuesUnder f.name given)) :
    Taken fs slots given := by
  induction fs with
  | nil => trivial
  | cons f fs ih =>
    obtain ⟨a, rest⟩ := slots
    obtain ⟨hfield, hrest⟩ := h
    exact ⟨hfield.perm (horder f List.mem_cons_self),
      ih hrest fun g hg => horder g (List.mem_cons_of_mem _ hg)⟩

/-- A name that occurs twice is refused. -/
theorem Taken.count_le_one {fs : List Field} {slots : Slots fs}
    {members : List (String × Json)} (h : Taken fs slots members) {key : String}
    (hkey : key ∈ fs.map Field.name) : (keys members).count key ≤ 1 := by
  induction fs with
  | nil => cases hkey
  | cons f fs ih =>
    obtain ⟨a, rest⟩ := slots
    obtain ⟨hfield, hrest⟩ := h
    rcases List.mem_cons.1 hkey with rfl | hkey
    · rw [← length_valuesUnder]
      match hvalues : valuesUnder f.name members with
      | [] | [_] => simp
      | _ :: _ :: _ =>
        rw [hvalues] at hfield
        exact hfield.elim
    · exact ih hrest hkey

/-! ### Written fields -/

/-- The fields in the order of declaration, where those with a stand-in may be left out. -/
inductive Written : (fs : List Field) → Slots fs → List (String × Json) → Prop
  | nil : Written [] () []
  | member {f : Field} {fs : List Field} {a : f.Value} {rest : Slots fs} {v : Json}
      {members : List (String × Json)} (read : f.read v = .ok a)
      (fields : Written fs rest members) : Written (f :: fs) (a, rest) ((f.name, v) :: members)
  | omitted {f : Field} {fs : List Field} {a : f.Value} {rest : Slots fs}
      {members : List (String × Json)} (absent : f.absent = some a)
      (fields : Written fs rest members) : Written (f :: fs) (a, rest) members

theorem Written.keys_sublist {fs : List Field} {slots : Slots fs}
    {members : List (String × Json)} (h : Written fs slots members) :
    (keys members).Sublist (fs.map Field.name) := by
  induction h with
  | nil => exact .slnil
  | member _ _ ih => exact ih.cons_cons _
  | omitted _ _ ih => exact ih.cons _

theorem Written.taken {fs : List Field} {slots : Slots fs} {members : List (String × Json)}
    (h : Written fs slots members) (hnames : (fs.map Field.name).Nodup) :
    Taken fs slots members := by
  induction h with
  | nil => trivial
  | @member f fs a rest v members read fields ih =>
    obtain ⟨hname, hnames⟩ := List.nodup_cons.1 hnames
    have hmissing : f.name ∉ keys members := fun hmem => hname (fields.keys_sublist.subset hmem)
    refine ⟨?_, (ih hnames).of_valuesUnder ?_⟩
    · rw [valuesUnder_cons_self, valuesUnder_of_not_mem hmissing]
      exact read
    · intro g hg
      have hne : f.name ≠ g.name := fun hsame => hname (hsame ▸ List.mem_map_of_mem hg)
      rw [valuesUnder_cons_of_ne hne]
  | @omitted f fs a rest members absent fields ih =>
    obtain ⟨hname, hnames⟩ := List.nodup_cons.1 hnames
    have hmissing : f.name ∉ keys members := fun hmem => hname (fields.keys_sublist.subset hmem)
    refine ⟨?_, ih hnames⟩
    rw [valuesUnder_of_not_mem hmissing]
    exact absent

/-- A record is read from its fields in any order. -/
theorem ofMembers_of_written {fs : List Field} (hnames : (fs.map Field.name).Nodup)
    {slots : Slots fs} {members given : List (String × Json)} (h : Written fs slots members)
    (horder : given.Perm members) : ofMembers fs given = .ok slots :=
  (ofMembers_iff hnames).2
    ((h.taken hnames).of_valuesUnder fun f _ => valuesUnder_perm f.name horder.symm)

/-- A record that lacks a required field is refused. -/
theorem ofMembers_of_missing {f : Field} {fs : List Field} {members : List (String × Json)}
    (hname : f.name ∉ fs.map Field.name) (habsent : f.absent = none)
    (h : f.name ∉ keys members) : ∃ cause, ofMembers (f :: fs) members = .error cause := by
  rcases hread : ofMembers (f :: fs) members with cause | ⟨a, rest⟩
  · exact ⟨cause, rfl⟩
  · obtain ⟨htakes, -⟩ := (ofMembers_cons_iff hname).1 hread
    rw [valuesUnder_of_not_mem h] at htakes
    have hsome : f.absent = some a := htakes
    rw [habsent] at hsome
    cases hsome

end Slots
end DrawStream
