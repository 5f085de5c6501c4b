import DrawStream.Command.Reader
import DrawStream.Proofs.Forms
import DrawStream.Proofs.JsonText

/-! # Command text is read back

`Stands v c` says that the JSON value `v` stands for the command `c`: an object with the tag
under `cmd` and every field under its name, or a list of the tag and the fields.  Every text
of a list of such values is read as the commands (`readAll_of_stands`).

A command is not read through its JSON value: its tag is looked at on the way.  What members
and items make of a command that is read is therefore followed one by one
(`foldlM_takeMember?`, `foldlM_takeItem?`), the tag standing anywhere among the members.

`SpelledBy commands text` says that the text spells a list of forms of the commands.  Forms
stand for their commands, so every such text is read as just these commands
(`readAll_of_spelledBy`). -/
namespace DrawStream.Command
open DrawStream.Json

/-! ### What stands for a command -/

/-- A value stands for a tag if it is its word. -/
def TagReads (v : Json) (t : Tag) : Prop := ∃ s, v = .text s ∧ Choice.ofWord? s = some t

/-- The value stands for the command. -/
def Stands : Json → Command → Prop
  | .object members, c => ∃ (t : Tag) (slots : Slots t.fields) (v : Json),
      valuesUnder tagKey members = [v] ∧ TagReads v t ∧ Slots.Taken t.fields slots members ∧
        ofSlots t slots = c
  | .list items, c => ∃ (t : Tag) (slots : Slots t.fields) (v : Json) (values : List Json),
      items = v :: values ∧ TagReads v t ∧ Slots.ofItems (owner t) t.fields values = .ok slots ∧
        ofSlots t slots = c
  | _, _ => False

/-! ### Members and items -/

/-- What taking a member in makes of a command that is read. -/
def takeMember? (p : Partial (String × Json)) (m : String × Json) :
    Option (Partial (String × Json)) :=
  if m.1 = tagKey then
    match p.tag, m.2 with
    | none, .text s => (Choice.ofWord? s).map fun t => { p with tag := some t }
    | _, _ => none
  else some { p with values := m :: p.values }

/-- What taking an item in makes of a command that is read: the first one is the tag. -/
def takeItem? (p : Partial Json) (v : Json) : Option (Partial Json) :=
  match p.tag, v with
  | none, .text s => (Choice.ofWord? s).map fun t => { p with tag := some t }
  | none, _ => none
  | some _, v => some { p with values := v :: p.values }

theorem takeMember?_tag_iff {p p' : Partial (String × Json)} {v : Json} :
    takeMember? p (tagKey, v) = some p' ↔
      p.tag = none ∧ ∃ t, TagReads v t ∧ p' = { p with tag := some t } := by
  rw [takeMember?, if_pos rfl]
  constructor
  · intro h
    split at h
    · next s htag hv =>
      obtain ⟨t, ht, rfl⟩ := Option.map_eq_some_iff.1 h
      exact ⟨htag, t, ⟨s, hv, ht⟩, rfl⟩
    · cases h
  · rintro ⟨htag, t, ⟨s, hv, ht⟩, rfl⟩
    simp only [htag, hv, ht, Option.map_some]

theorem takeMember?_of_ne {p : Partial (String × Json)} {m : String × Json}
    (h : m.1 ≠ tagKey) : takeMember? p m = some { p with values := m :: p.values } :=
  if_neg h

/-- The members are taken in if the tag is, at most once; the others are kept, the last one
first. -/
theorem foldlM_takeMember? {members : List (String × Json)} :
    ∀ {p p' : Partial (String × Json)}, members.foldlM takeMember? p = some p' ↔
      Filled.Fills TagReads p.tag (valuesUnder tagKey members) p'.tag ∧
        p'.values = (members.filter fun m => m.1 ≠ tagKey).reverse ++ p.values := by
  induction members with
  | nil =>
    intro p p'
    constructor
    · intro h
      cases h
      exact ⟨rfl, rfl⟩
    · rintro ⟨htag, hvalues⟩
      obtain ⟨tag, values⟩ := p
      obtain ⟨tag', values'⟩ := p'
      cases htag
      cases hvalues
      rfl
  | cons m members ih =>
    intro p p'
    obtain ⟨key, v⟩ := m
    rw [List.foldlM_cons, Option.bind_eq_bind, Option.bind_eq_some_iff]
    by_cases hkey : key = tagKey
    · subst hkey
      have hothers : ((tagKey, v) :: members).filter (fun m => m.1 ≠ tagKey) =
          members.filter fun m => m.1 ≠ tagKey := by simp
      rw [valuesUnder_cons_self, hothers]
      constructor
      · rintro ⟨p₁, hfirst, hrest⟩
        obtain ⟨htag, t, ht, rfl⟩ := takeMember?_tag_iff.1 hfirst
        obtain ⟨hfills, hvalues⟩ := ih.1 hrest
        exact ⟨⟨htag, t, ht, hfills⟩, hvalues⟩
      · rintro ⟨⟨htag, t, ht, hfills⟩, hvalues⟩
        exact ⟨_, takeMember?_tag_iff.2 ⟨htag, t, ht, rfl⟩, ih.2 ⟨hfills, hvalues⟩⟩
    · have hothers : ((key, v) :: members).filter (fun m => m.1 ≠ tagKey) =
          (key, v) :: members.filter fun m => m.1 ≠ tagKey := by simp [hkey]
      rw [valuesUnder_cons_of_ne hkey, hothers, List.reverse_cons, List.append_assoc]
      constructor
      · rintro ⟨p₁, hfirst, hrest⟩
        rw [takeMember?_of_ne hkey] at hfirst
        cases hfirst
        exact ih.1 hrest
      · intro h
        exact ⟨_, takeMember?_of_ne hkey, ih.2 h⟩

/-- The members of an object that holds the tag just once are kept, the last one first. -/
theorem taken_members_iff {members kept : List (String × Json)} {t : Tag} :
    members.foldlM takeMember? ⟨none, []⟩ = some ⟨some t, kept⟩ ↔
      (∃ v, valuesUnder tagKey members = [v] ∧ TagReads v t) ∧
        kept = (members.filter fun m => m.1 ≠ tagKey).reverse := by
  rw [foldlM_takeMember?, Filled.fills_some_iff, List.append_nil]

theorem takeItem?_none_iff {values : List Json} {v : Json} {p : Partial Json} :
    takeItem? ⟨none, values⟩ v = some p ↔ ∃ t, TagReads v t ∧ p = ⟨some t, values⟩ := by
  constructor
  · intro h
    unfold takeItem? at h
    split at h
    · next s _ =>
      obtain ⟨t, ht, rfl⟩ := Option.map_eq_some_iff.1 h
      exact ⟨t, ⟨s, rfl, ht⟩, rfl⟩
    · cases h
    · next hsome => cases hsome
  · rintro ⟨t, ⟨s, rfl, ht⟩, rfl⟩
    simp only [takeItem?, ht, Option.map_some]

/-- Behind the tag, the items are kept, the last one first. -/
theorem foldlM_takeItem?_some {t : Tag} {items : List Json} : ∀ {values : List Json},
    items.foldlM takeItem? ⟨some t, values⟩ = some ⟨some t, items.reverse ++ values⟩ := by
  induction items with
  | nil =>
    intro values
    rfl
  | cons v items ih =>
    intro values
    rw [List.foldlM_cons, List.reverse_cons, List.append_assoc]
    exact ih

theorem taken_items_iff {items kept : List Json} {t : Tag} :
    items.foldlM takeItem? ⟨none, []⟩ = some ⟨some t, kept⟩ ↔
      ∃ v values, items = v :: values ∧ TagReads v t ∧ kept = values.reverse := by
  rcases items with _ | ⟨v, values⟩
  · constructor
    · intro h
      cases h
    · rintro ⟨v, values, h, -⟩
      cases h
  · rw [List.foldlM_cons, Option.bind_eq_bind, Option.bind_eq_some_iff]
    constructor
    · rintro ⟨p, hfirst, hrest⟩
      obtain ⟨u, hu, rfl⟩ := takeItem?_none_iff.1 hfirst
      rw [foldlM_takeItem?_some, List.append_nil] at hrest
      cases hrest
      exact ⟨v, values, rfl, hu, rfl⟩
    · rintro ⟨w, ws, h, ht, rfl⟩
      cases h
      refine ⟨⟨some t, []⟩, takeItem?_none_iff.2 ⟨t, ht, rfl⟩, ?_⟩
      rw [foldlM_takeItem?_some, List.append_nil]

/-! ### Reading one command -/

theorem readTag_of_reads {v : Json} {t : Tag} (ht : TagReads v t) {depth : Nat} {cs : List Char}
    (h : Padded (Spells depth v) cs) (rest : List Char) :
    ∃ left, readTag (cs ++ rest) = .ok (t, left) ∧ skipBlank left = skipBlank rest := by
  obtain ⟨s, rfl, ht⟩ := ht
  obtain ⟨front, _, back, hfront, htext, hback, rfl⟩ := h
  simp only [Spells] at htext
  obtain ⟨body, hbody, rfl⟩ := htext
  have hread := readText?_of_spells hbody (back ++ rest)
  refine ⟨back ++ rest, ?_, skipBlank_append hback rest⟩
  simp only [readTag, List.append_assoc, List.cons_append, List.nil_append,
    skipBlank_append hfront, skipBlank_cons (show isBlank '"' = false from rfl), hread]
  simp [orMalformed, ht]
  rfl

theorem readsItems_member (depth : Nat) :
    ReadsItems '}' (readMember depth) takeMember? (SpellsMember (Spells depth)) where
  bracket := .inr rfl
  opens hcs := hcs.opens
  skip p cs := by simp only [readMember, readKey_skipBlank]
  reads {p m p' cs} rest hcs hnext hrest := by
    obtain ⟨key, v⟩ := m
    obtain ⟨left, value, hvalue, hkey, hcolon⟩ := readKey_of_member hcs rest
    by_cases htag : key = tagKey
    · subst htag
      obtain ⟨hnone, t, ht, rfl⟩ := takeMember?_tag_iff.1 hnext
      obtain ⟨left', hread, hleft⟩ := readTag_of_reads ht hvalue rest
      exact ⟨left', by simp [readMember, hkey, hnone, hcolon, hread], hleft⟩
    · rw [takeMember?_of_ne htag] at hnext
      cases hnext
      obtain ⟨left', hread, hleft⟩ := ReadsValue.padded (readsValue depth v) hvalue hrest
      exact ⟨left', by simp [readMember, hkey, htag, hcolon, hread], hleft⟩

theorem readTag_skipBlank (cs : List Char) : readTag (skipBlank cs) = readTag cs := by
  unfold readTag
  rw [skipBlank_skipBlank]

theorem readsItems_item (depth : Nat) :
    ReadsItems ']' (readItem depth) takeItem? (fun v => Padded (Spells depth v)) where
  bracket := .inl rfl
  opens hcs := by
    obtain ⟨c, tail, hopen, hc, -⟩ := hcs.opens fun _ => opens_of_spells
    exact ⟨c, tail, hopen, hc⟩
  skip p cs := by simp only [readItem, readTag_skipBlank, readValue_skipBlank]
  reads {p v p' cs} rest hcs hnext hrest := by
    obtain ⟨_ | u, values⟩ := p
    · obtain ⟨t, ht, rfl⟩ := takeItem?_none_iff.1 hnext
      obtain ⟨left, hread, hleft⟩ := readTag_of_reads ht hcs rest
      exact ⟨left, by simp [readItem, hread], hleft⟩
    · cases hnext
      obtain ⟨left, hread, hleft⟩ := ReadsValue.padded (readsValue depth v) hcs hrest
      exact ⟨left, by simp [readItem, hread], hleft⟩

theorem name_ne_tagKey {t : Tag} {f : Field} (hf : f ∈ t.fields) : f.name ≠ tagKey := by
  intro hsame
  exact tagKey_not_mem_fields t (hsame ▸ List.mem_map_of_mem hf)

/-- The tag is no field, so the fields do not miss it. -/
theorem taken_filter_iff {t : Tag} {slots : Slots t.fields} {members : List (String × Json)} :
    Slots.Taken t.fields slots (members.filter fun m => m.1 ≠ tagKey) ↔
      Slots.Taken t.fields slots members := by
  have hvalues : ∀ f ∈ t.fields, valuesUnder f.name (members.filter fun m => m.1 ≠ tagKey) =
      valuesUnder f.name members := by
    intro f hf
    exact valuesUnder_filter (· ≠ tagKey) (name_ne_tagKey hf)
  constructor
  · intro h
    exact h.of_valuesUnder fun f hf => hvalues f hf ▸ .refl _
  · intro h
    exact h.of_valuesUnder fun f hf => (hvalues f hf).symm ▸ .refl _

theorem readCommand_skipBlank (depth : Nat) (cs : List Char) :
    readCommand depth (skipBlank cs) = readCommand depth cs := by
  simp only [readCommand, skipBlank_skipBlank]

/-- A text of a value that stands for a command is read as the command. -/
theorem readCommand_of_stands {v : Json} {c : Command} (h : Stands v c) (depth : Nat)
    {cs : List Char} (hcs : Padded (Spells (depth + 1) v) cs) (rest : List Char) :
    ∃ left, readCommand depth (cs ++ rest) = .ok (c, left) ∧
      skipBlank left = skipBlank rest := by
  obtain ⟨front, core, back, hfront, hcore, hback, rfl⟩ := hcs
  refine ⟨back ++ rest, ?_, skipBlank_append hback rest⟩
  match v with
  | .object members =>
    obtain ⟨t, slots, w, htag, ht, htaken, rfl⟩ := h
    simp only [Spells] at hcore
    obtain ⟨inner, hinner, rfl⟩ := hcore
    have hread := (readsItems_member depth).enclosed_of_items hinner
      (taken_members_iff.2 ⟨⟨w, htag, ht⟩, rfl⟩) (back ++ rest)
    have hslots := (Slots.ofMembers_iff (nodup_fields t)).2 (taken_filter_iff.2 htaken)
    simp only [readCommand, List.append_assoc, List.cons_append, List.nil_append,
      skipBlank_append hfront, skipBlank_cons (show isBlank '\x7b' = false from rfl), hread]
    simp only [ok_bind, ofPartial, List.reverse_reverse, hslots]
    rfl
  | .list items =>
    obtain ⟨t, slots, w, values, rfl, ht, hslots, rfl⟩ := h
    simp only [Spells] at hcore
    obtain ⟨inner, hinner, rfl⟩ := hcore
    have hread := (readsItems_item depth).enclosed_of_items hinner
      (taken_items_iff.2 ⟨w, values, rfl, ht, rfl⟩) (back ++ rest)
    simp only [readCommand, List.append_assoc, List.cons_append, List.nil_append,
      skipBlank_append hfront, skipBlank_cons (show isBlank '[' = false from rfl), hread]
    simp only [ok_bind, ofPartial, List.reverse_reverse, hslots]
    rfl
  | .null | .bool _ | .number _ | .text _ => exact h.elim

/-! ### Reading a list of commands -/

/-- Takes a command into the list that is read. -/
def takeCommand (commands : List Command) : Reading (List Command) := fun cs => do
  let (c, rest) ← readCommand (maxDepth - 2) cs
  return (c :: commands, rest)

theorem readsItems_commands :
    ReadsItems ']' takeCommand (fun commands c => some (c :: commands))
      (fun c cs => ∃ v, Stands v c ∧ Padded (Spells (maxDepth - 1) v) cs) where
  bracket := .inl rfl
  opens hcs := by
    obtain ⟨v, -, hcs⟩ := hcs
    obtain ⟨c, tail, hopen, hc, -⟩ := hcs.opens fun _ => opens_of_spells
    exact ⟨c, tail, hopen, hc⟩
  skip commands cs := by simp only [takeCommand, readCommand_skipBlank]
  reads {commands c _ cs} rest hcs hnext _ := by
    obtain rfl := Option.some.inj hnext
    obtain ⟨v, hstands, hcs⟩ := hcs
    obtain ⟨left, hread, hleft⟩ := readCommand_of_stands hstands (maxDepth - 2) hcs rest
    exact ⟨left, by simp [takeCommand, hread], hleft⟩

theorem readAll_list {text : String} {cs : List Char} (h : skipBlank text.toList = '[' :: cs) :
    readAll text = (do
      let (commands, rest) ← enclosed ']' takeCommand [] cs
      if (skipBlank rest).isEmpty then return commands.reverse else .error .malformed) := by
  rw [readAll, h]
  rfl

/-- Every text of a list of values that stand for commands is read as these. -/
theorem readAll_of_stands {values : List Json} {commands : List Command} {text : String}
    (hstands : List.Forall₂ (fun c v => Stands v c) commands values)
    (hnests : Nests maxDepth (.list values))
    (htext : Padded (Spelled (.list values)) text.toList) : readAll text = .ok commands := by
  obtain ⟨front, _, back, hfront, ⟨depth, hcore⟩, hback, htext⟩ := htext
  obtain ⟨inner, hinner, rfl⟩ : ∃ inner,
      Items (fun v => Padded (Spells (maxDepth - 1) v)) values inner ∧ _ :=
    spells_of_nests depth maxDepth _ hcore hnests
  have hread := readsItems_commands.enclosed_of_items (hinner.of_forall₂ hstands)
    (foldlM_cons commands []) back
  have hbegin : skipBlank text.toList = '[' :: (inner ++ ']' :: back) := by
    rw [htext, skipBlank_append hfront]
    simp [skipBlank_cons (show isBlank '[' = false from rfl)]
  have hend : skipBlank back = [] := by
    have h := skipBlank_append hback []
    rwa [List.append_nil] at h
  rw [readAll_list hbegin, hread]
  simp [hend]
  rfl

/-! ### Forms -/

/-- A form of a command stands for it. -/
theorem Form.stands {c : Command} {v : Json} (h : Form c v) : Stands v c := by
  cases h with
  | @object members given form order =>
    obtain ⟨fields, rfl, hwritten⟩ := form.written
    have hmissing : tagKey ∉ keys fields := fun hmem =>
      tagKey_not_mem_fields _ (hwritten.keys_sublist.subset hmem)
    have hvalues (key : String) :
        (valuesUnder key ((tagKey, word c.tag) :: fields)).Perm (valuesUnder key given) :=
      valuesUnder_perm key order.symm
    have htag := hvalues tagKey
    rw [valuesUnder_cons_self, valuesUnder_of_not_mem hmissing] at htag
    refine ⟨c.tag, c.slots, word c.tag, List.perm_singleton.1 htag.symm, ?_, ?_, ofSlots_slots c⟩
    · exact ⟨Choice.word c.tag, rfl, Choice.Faithful.ofWord?_word _⟩
    · refine (hwritten.taken (nodup_fields _)).of_valuesUnder ?_
      intro f hf
      rw [← valuesUnder_cons_of_ne (name_ne_tagKey hf).symm (word c.tag)]
      exact hvalues f.name

theorem nests_whole {k : WordKind} (depth : Nat) (w : Word k) : Nests depth (whole w) := by
  simp [whole, Nests]

theorem nests_word {α : Type} [Choice α] (depth : Nat) (a : α) : Nests depth (word a) := by
  simp [word, Nests]

theorem nests_pair (depth : Nat) (p : Count × Count) : Nests (depth + 1) (pair p) := by
  simp [pair, Nests, nests_whole]

theorem NumbersForm.nests {xs : List Single} {v : Json} (h : NumbersForm xs v) (depth : Nat) :
    Nests (depth + 1) v := by
  cases h
  simp [Nests]

/-- An object goes one deeper than its values, in whatever order they stand. -/
theorem nests_object {depth : Nat} {members given : List (String × Json)}
    (order : given.Perm members) (h : ∀ m ∈ members, Nests depth m.2) :
    Nests (depth + 1) (.object given) := by
  simpa only [Nests, order.mem_iff] using h

theorem StorageForm.nests {storage : Storage} {v : Json} (h : StorageForm storage v)
    (depth : Nat) : Nests (depth + 2) v := by
  cases h with
  | bytes n => exact nests_whole _ n
  | texture shape format order =>
    exact nests_object order (by simp [nests_pair, nests_word])

theorem OffsetMember.nests {offset : Offset} {members : List (String × Json)}
    (h : OffsetMember offset members) (depth : Nat) : ∀ m ∈ members, Nests (depth + 1) m.2 := by
  cases h with
  | written form => cases form <;> simp [nests_whole, nests_pair]
  | omitted => simp

theorem ShapeMember.nests {shape : Option (Count × Count)} {members : List (String × Json)}
    (h : ShapeMember shape members) (depth : Nat) : ∀ m ∈ members, Nests (depth + 1) m.2 := by
  cases h <;> simp [nests_pair, Nests]

theorem ElementsForm.nests {elements : Elements} {v : Json} (h : ElementsForm elements v)
    (depth : Nat) : Nests (depth + 2) v := by
  cases h with
  | f32 form => simp [Nests, form.nests]
  | _ xs => simp [Nests, nests_whole]

theorem SourceForm.nests {source : Source} {v : Json} (h : SourceForm source v) (depth : Nat) :
    Nests (depth + 1) v := by
  cases h with
  | buffer id stride offset order => exact nests_object order (by simp [nests_whole])
  | constant form => exact form.nests depth

theorem SelectionForm.nests {selection : Selection} {v : Json} (h : SelectionForm selection v)
    (depth : Nat) : Nests (depth + 1) v := by
  cases h with
  | elements indices type count order =>
    exact nests_object order (by simp [nests_whole, nests_word])
  | range first count order => exact nests_object order (by simp [nests_whole])

theorem Members.nests {c : Command} {members : List (String × Json)} (h : Members c members)
    (depth : Nat) : ∀ m ∈ members, Nests (depth + 2) m.2 := by
  have htext (s : String) : Nests (depth + 2) (.text s) := by simp [Nests]
  cases h with
  | create _ _ | delete _ | shaders _ _ _ | texture _ _ _ | interpolation _ _ _ =>
    simp [htext, nests_whole, nests_word]
  | size _ form => simp [htext, nests_whole, form.nests]
  | data _ offsetForm shapeForm form =>
    simp only [List.mem_cons, List.mem_append, List.not_mem_nil, or_false]
    rintro m (rfl | rfl | hm | hm | rfl)
    · exact htext _
    · exact nests_whole _ _
    · exact offsetForm.nests (depth + 1) m hm
    · exact shapeForm.nests (depth + 1) m hm
    · exact form.nests depth
  | «attribute» _ _ _ form => simp [htext, nests_whole, nests_word, form.nests (depth + 1)]
  | uniform _ _ _ form => simp [htext, nests_whole, nests_word, form.nests (depth + 1)]
  | wrapping _ _ => simp [nests_whole, nests_word, Nests]
  | draw _ _ form => simp [htext, nests_whole, nests_word, form.nests (depth + 1)]

/-- Forms of commands are three deep at most. -/
theorem Form.nests {c : Command} {v : Json} (h : Form c v) (depth : Nat) :
    Nests (depth + 3) v := by
  cases h with
  | object form order => exact nests_object order (form.nests depth)

/-- The text spells a list of values that stand for the commands. -/
def SpelledBy (commands : List Command) (text : String) : Prop :=
  ∃ values, List.Forall₂ Form commands values ∧ Padded (Spelled (.list values)) text.toList

theorem nests_forms {commands : List Command} {values : List Json}
    (h : List.Forall₂ Form commands values) (depth : Nat) :
    Nests (depth + 4) (.list values) := by
  simp only [Nests]
  induction h with
  | nil => simp
  | cons form _ ih => simpa [form.nests] using ih

/-- Every text of a list of commands is read as that list. -/
theorem readAll_of_spelledBy {commands : List Command} {text : String}
    (h : SpelledBy commands text) : readAll text = .ok commands := by
  obtain ⟨values, hforms, htext⟩ := h
  exact readAll_of_stands (hforms.imp fun _ _ => Form.stands) (nests_forms hforms 123) htext

end DrawStream.Command
