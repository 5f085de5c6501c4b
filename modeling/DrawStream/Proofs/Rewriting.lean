import DrawStream.Proofs.CommandRead
import DrawStream.Proofs.Gaps

/-! # Rewriting the object of a command

A value is read as a command by what stands under its known keys, the tag and the names of
the fields of that tag (`Stands`).  So an object may be rewritten without a difference
wherever these are left alone: its members in another order, members under other keys put in
or left out (`Rearranged`).  The list of the tag and of the values of all fields is read as
the same command (`Listed`).  But no known key may occur twice (`Repeats`): of two values
under one key neither is taken.

As text is read as commands through the values that it spells, and spells no more than one,
all this holds of text (`readAll_rewritten`).  A value that a text spells is well-formed: all
its numbers are in the range of doubles, and its escapes are of characters. -/
namespace DrawStream

namespace Slots

/-- Every field reads its item, in the order of declaration. -/
def InOrder : (fs : List Field) → Slots fs → List Json → Prop
  | [], (), vs => vs = []
  | _ :: _, _, [] => False
  | f :: fs, (a, rest), v :: vs => f.Reads v a ∧ InOrder fs rest vs

theorem takeItems_of_inOrder {wanted : String} {fs : List Field} :
    ∀ {slots : Slots fs} {vs : List Json} {i : Nat}, InOrder fs slots vs →
      takeItems wanted fs i vs = .ok (slots, []) := by
  induction fs with
  | nil =>
    rintro ⟨⟩ vs i h
    cases h
    rfl
  | cons f fs ih =>
    rintro ⟨a, rest⟩ (_ | ⟨v, vs⟩) i h
    · exact h.elim
    · obtain ⟨hread, hrest⟩ := h
      have hread : f.read v = .ok a := hread
      have hrest := ih (i := i + 1) hrest
      simp only [takeItems, hread, ok_bind, hrest]
      rfl

theorem ofItems_of_inOrder {owner : String} {fs : List Field} {slots : Slots fs}
    {vs : List Json} (h : InOrder fs slots vs) : ofItems owner fs vs = .ok slots := by
  simp only [ofItems, takeItems_of_inOrder h, ok_bind]
  rfl

/-- The items that stand for the fields of an object: their values, and for those without
one, something that is read as the stand-in. -/
theorem Taken.inOrder {fs : List Field} {slots : Slots fs} {members : List (String × Json)}
    {vs : List Json} (h : Taken fs slots members)
    (hvs : List.Forall₂ (fun f v => (f.name, v) ∈ members ∨
      f.name ∉ keys members ∧ ∃ a, f.absent = some a ∧ f.Reads v a) fs vs) :
    InOrder fs slots vs := by
  induction hvs with
  | nil => rfl
  | @cons f v fs vs hv _ ih =>
    obtain ⟨a, rest⟩ := slots
    obtain ⟨htakes, hrest⟩ := h
    refine ⟨?_, ih hrest⟩
    rcases hv with hmem | ⟨hmissing, b, habsent, hread⟩
    · have hmem := mem_valuesUnder.2 hmem
      match hvalues : valuesUnder f.name members with
      | [] =>
        rw [hvalues] at hmem
        cases hmem
      | [w] =>
        rw [hvalues] at hmem htakes
        obtain rfl := List.mem_singleton.1 hmem
        exact htakes
      | _ :: _ :: _ =>
        rw [hvalues] at htakes
        exact htakes.elim
    · rw [valuesUnder_of_not_mem hmissing] at htakes
      have hsame : some b = some a := habsent.symm.trans htakes
      cases hsame
      exact hread

end Slots

namespace Command
open DrawStream.Json

/-! ### Ways to rewrite an object -/

/-- The keys that mean something in the object of a command. -/
def Tag.knownKeys (t : Tag) : List String := tagKey :: t.fields.map Field.name

/-- The members under known keys are the same, in any order.  Other members come and go; the
values of new ones must not nest too deep. -/
structure Rearranged (t : Tag) (members given : List (String × Json)) : Prop where
  known : (given.filter fun m => m.1 ∈ t.knownKeys).Perm
    (members.filter fun m => m.1 ∈ t.knownKeys)
  nests : ∀ m ∈ given, m ∉ members → Nests (maxDepth - 2) m.2

/-- The items are the tag and the values of all fields in the order of declaration.  For a
field without a member there stands something that is read as its stand-in. -/
structure Listed (t : Tag) (members : List (String × Json)) (items : List Json) : Prop where
  listed : ∃ v values, items = v :: values ∧ (tagKey, v) ∈ members ∧
    List.Forall₂ (fun f v => (f.name, v) ∈ members ∨
      f.name ∉ keys members ∧ ∃ a, f.absent = some a ∧ f.Reads v a) t.fields values
  nests : ∀ v ∈ items, v ∉ members.map Prod.snd → Nests (maxDepth - 2) v

/-- More members have been put in, in any place, and now a known key occurs twice. -/
structure Repeats (t : Tag) (members given : List (String × Json)) : Prop where
  more : ∃ extra, given.Perm (extra ++ members)
  twice : ∃ key ∈ t.knownKeys, 2 ≤ (keys given).count key

theorem tag_ofSlots (t : Tag) (slots : Slots t.fields) : (ofSlots t slots).tag = t := by
  cases t <;> rfl

variable {c : Command} {members given : List (String × Json)} {items : List Json}

theorem Rearranged.stands (h : Rearranged c.tag members given)
    (hstands : Stands (.object members) c) : Stands (.object given) c := by
  obtain ⟨t, slots, v, htag, ht, htaken, rfl⟩ := hstands
  rw [tag_ofSlots] at h
  have hvalues (key : String) (hkey : key ∈ t.knownKeys) :
      (valuesUnder key members).Perm (valuesUnder key given) := by
    have hknown := valuesUnder_perm key h.known.symm
    rwa [valuesUnder_filter (· ∈ t.knownKeys) hkey, valuesUnder_filter (· ∈ t.knownKeys) hkey]
      at hknown
  have htag' := hvalues tagKey List.mem_cons_self
  rw [htag] at htag'
  refine ⟨t, slots, v, List.perm_singleton.1 htag'.symm, ht, htaken.of_valuesUnder ?_, rfl⟩
  intro f hf
  exact hvalues f.name (List.mem_cons_of_mem _ (List.mem_map_of_mem hf))

theorem Rearranged.nests_object {t : Tag} (h : Rearranged t members given)
    (hnests : Nests (maxDepth - 1) (.object members)) : Nests (maxDepth - 1) (.object given) := by
  have hdepth : maxDepth - 1 = (maxDepth - 2) + 1 := rfl
  rw [hdepth] at hnests ⊢
  simp only [Nests] at hnests ⊢
  intro m hm
  by_cases hmem : m ∈ members
  · exact hnests m hmem
  · exact h.nests m hm hmem

theorem Listed.stands (h : Listed c.tag members items) (hstands : Stands (.object members) c) :
    Stands (.list items) c := by
  obtain ⟨t, slots, v, htag, ht, htaken, rfl⟩ := hstands
  rw [tag_ofSlots] at h
  obtain ⟨w, values, rfl, hw, hvalues⟩ := h.listed
  have hw := mem_valuesUnder.2 hw
  rw [htag] at hw
  obtain rfl := List.mem_singleton.1 hw
  exact ⟨t, slots, w, values, rfl, ht, Slots.ofItems_of_inOrder (htaken.inOrder hvalues), rfl⟩

theorem Listed.nests_list {t : Tag} (h : Listed t members items)
    (hnests : Nests (maxDepth - 1) (.object members)) : Nests (maxDepth - 1) (.list items) := by
  have hdepth : maxDepth - 1 = (maxDepth - 2) + 1 := rfl
  rw [hdepth] at hnests ⊢
  simp only [Nests] at hnests ⊢
  intro v hv
  by_cases hmem : v ∈ members.map Prod.snd
  · obtain ⟨m, hm, rfl⟩ := List.mem_map.1 hmem
    exact hnests m hm
  · exact h.nests v hv hmem

/-- With a known key twice, the object stands for no command at all. -/
theorem Repeats.not_stands (h : Repeats c.tag members given)
    (hstands : Stands (.object members) c) (other : Command) : ¬ Stands (.object given) other := by
  obtain ⟨t, slots, v, htag, ht, htaken, rfl⟩ := hstands
  rw [tag_ofSlots] at h
  rintro ⟨t', slots', v', htag', ht', htaken', rfl⟩
  obtain ⟨⟨extra, horder⟩, key, hkey, htwice⟩ := h
  -- The only value under `cmd` is the one that was there, so the tag is still the same.
  have hvalues := valuesUnder_perm tagKey horder
  rw [htag', valuesUnder_append, htag] at hvalues
  have hmem : v ∈ [v'] := hvalues.symm.subset (List.mem_append_right _ (List.mem_singleton_self v))
  obtain rfl := List.mem_singleton.1 hmem
  obtain ⟨s, rfl, hs⟩ := ht
  obtain ⟨s', hsame, hs'⟩ := ht'
  cases hsame
  rw [hs] at hs'
  cases hs'
  rcases List.mem_cons.1 hkey with rfl | hkey
  · rw [← length_valuesUnder, htag'] at htwice
    exact absurd htwice (by simp)
  · have honce := htaken'.count_le_one hkey
    omega

/-! ### Rewriting one command of many -/

theorem nests_replaced {depth : Nat} {before after : List Json} {v w : Json}
    (h : Nests (depth + 1) (.list (before ++ v :: after))) (hw : Nests depth w) :
    Nests (depth + 1) (.list (before ++ w :: after)) := by
  simp only [Nests, List.mem_append, List.mem_cons] at h ⊢
  rintro u (hu | rfl | hu)
  · exact h u (.inl hu)
  · exact hw
  · exact h u (.inr (.inr hu))

variable {text : String} {commands : List Command} {before after : List Json} {v : Json}

/-- The values of a text that is read are those that stand for the commands. -/
theorem readAll_values (h : readAll text = .ok commands) {values : List Json}
    (htext : TextOf (.list values) text) :
    List.Forall₂ (fun c v => Stands v c) commands values ∧ Nests maxDepth (.list values) := by
  obtain ⟨values', hstands, hnests, hvalues⟩ := readAll_iff.1 h
  obtain hsame : Json.list values' = .list values := hvalues.unique htext
  cases hsame
  exact ⟨hstands, hnests⟩

/-- A value in text that is read as commands stands for one of them.  Text with another value
in its place, that stands for another command, is read with this command in its place. -/
theorem readAll_exchanged (h : readAll text = .ok commands)
    (htext : TextOf (.list (before ++ v :: after)) text) :
    ∃ c, commands[before.length]? = some c ∧ Stands v c ∧ Nests (maxDepth - 1) v ∧
      ∀ w c' text', Stands w c' → Nests (maxDepth - 1) w →
        TextOf (.list (before ++ w :: after)) text' →
          readAll text' = .ok (commands.set before.length c') := by
  obtain ⟨hstands, hnests⟩ := readAll_values h htext
  obtain ⟨c, hc, hv, hreplaced⟩ := forall₂_middle hstands
  have hdepth : maxDepth = (maxDepth - 1) + 1 := rfl
  rw [hdepth] at hnests
  have hnestsV : Nests (maxDepth - 1) v := by
    simp only [Nests] at hnests
    exact hnests v (List.mem_append_right _ List.mem_cons_self)
  refine ⟨c, hc, hv, hnestsV, ?_⟩
  intro w c' text' hw hnestsW htext'
  refine readAll_iff.2 ⟨_, hreplaced w c' hw, ?_, htext'⟩
  rw [hdepth]
  exact nests_replaced hnests hnestsW

/-- If it stands for the same command, the commands are the same. -/
theorem readAll_replaced (h : readAll text = .ok commands)
    (htext : TextOf (.list (before ++ v :: after)) text) :
    ∃ c, commands[before.length]? = some c ∧ Stands v c ∧ Nests (maxDepth - 1) v ∧
      ∀ w text', Stands w c → Nests (maxDepth - 1) w →
        TextOf (.list (before ++ w :: after)) text' → readAll text' = .ok commands := by
  obtain ⟨c, hc, hv, hnests, hexchanged⟩ := readAll_exchanged h htext
  refine ⟨c, hc, hv, hnests, ?_⟩
  intro w text' hw hnestsW htext'
  obtain ⟨hlt, hget⟩ := List.getElem?_eq_some_iff.1 hc
  have hsame : commands.set before.length c = commands := by
    rw [← hget]
    exact List.set_getElem_self hlt
  rw [hexchanged w c text' hw hnestsW htext', hsame]

/-- Text in which a value stands for no command is refused. -/
theorem readAll_refused (h : ∀ c, ¬ Stands v c)
    (htext : TextOf (.list (before ++ v :: after)) text) :
    ∃ fault, readAll text = .error fault := by
  rcases hread : readAll text with fault | commands
  · exact ⟨fault, rfl⟩
  · obtain ⟨c, -, hstands, -⟩ := readAll_replaced hread htext
    exact absurd hstands (h c)

/-- **Rewriting the object of a command.**  Command text that is read is a text of a list.
If an object of it is rearranged, or makes room for the list of its tag and fields, the
commands are the same; if a known key is repeated, the text is refused. -/
theorem readAll_rewritten (h : readAll text = .ok commands) :
    (∃ values, TextOf (.list values) text) ∧
      ∀ before members after, TextOf (.list (before ++ .object members :: after)) text →
        ∃ c, commands[before.length]? = some c ∧
          (∀ given text', Rearranged c.tag members given →
            TextOf (.list (before ++ .object given :: after)) text' →
              readAll text' = .ok commands) ∧
          (∀ items text', Listed c.tag members items →
            TextOf (.list (before ++ .list items :: after)) text' →
              readAll text' = .ok commands) ∧
          ∀ given text', Repeats c.tag members given →
            TextOf (.list (before ++ .object given :: after)) text' →
              ∃ fault, readAll text' = .error fault := by
  obtain ⟨values, -, -, hvalues⟩ := readAll_iff.1 h
  refine ⟨⟨values, hvalues⟩, ?_⟩
  intro before members after htext
  obtain ⟨c, hc, hstands, hnests, hreplaced⟩ := readAll_replaced h htext
  refine ⟨c, hc, ?_, ?_, ?_⟩
  · intro given text' hgiven
    exact hreplaced _ _ (hgiven.stands hstands) (hgiven.nests_object hnests)
  · intro items text' hitems
    exact hreplaced _ _ (hitems.stands hstands) (hitems.nests_list hnests)
  · intro given text' hgiven
    exact readAll_refused (hgiven.not_stands hstands)

/-! ### An upload -/

/-- Nothing is uploaded to the start of a buffer. -/
def emptyUpload : Command := .data ⟨2, by decide, by decide⟩ .start none (.u8 [])

def emptyUploadText : String :=
  "[\x7b\"cmd\":\"data\",\"id\":2,\"data\":\x7b\"u8\":[]\x7d\x7d]"

/-- The tag comes last, and an unknown key is put in twice. -/
def rearrangedUploadText : String :=
  "[\x7b\"x\":true,\"data\":\x7b\"u8\":[]\x7d,\"id\":2,\"x\":null,\"cmd\":\"data\"\x7d]"

/-- Offset and shape are listed as well. -/
def listedUploadText : String := "[[\"data\",2,0,null,\x7b\"u8\":[]\x7d]]"

/-- The object is addressed twice. -/
def repeatedUploadText : String :=
  "[\x7b\"cmd\":\"data\",\"id\":2,\"data\":\x7b\"u8\":[]\x7d,\"id\":null\x7d]"

theorem readAll_emptyUpload_rewritten :
    readAll emptyUploadText = .ok [emptyUpload] ∧
      readAll rearrangedUploadText = .ok [emptyUpload] ∧
      readAll listedUploadText = .ok [emptyUpload] ∧
      ∃ fault, readAll repeatedUploadText = .error fault := by
  -- The values that the texts are made of.
  have hcmd : Spells 2 (.text "data") _ := ⟨_, spellsChars_plain (by decide), rfl⟩
  have htwo : Spells 2 (whole (⟨2, by decide, by decide⟩ : Id)) ['2'] :=
    ⟨by decide, by decide, by decide⟩
  have hzero : Spells 2 (whole (.zero _ : Count)) ['0'] := ⟨by decide, by decide, by decide⟩
  have hnone : Spells 1 (.list []) ['[', ']'] := ⟨[], .none blank_nil, rfl⟩
  have helements : Spells 2 (.object [("u8", .list [])]) _ :=
    ⟨_, .some (.one (spellsMember_plain "u8" (by decide) hnone)), rfl⟩
  have hnull : Spells 2 .null ['n', 'u', 'l', 'l'] := rfl
  have htrue : Spells 2 (.bool true) ['t', 'r', 'u', 'e'] := rfl
  have htag := spellsMember_plain "cmd" (by decide) hcmd
  have hid := spellsMember_plain "id" (by decide) htwo
  have hdata := spellsMember_plain "data" (by decide) helements
  have hunknown := spellsMember_plain "x" (by decide) htrue
  have hunknown' := spellsMember_plain "x" (by decide) hnull
  have hid' := spellsMember_plain "id" (by decide) hnull
  -- The texts themselves.
  have htext : TextOf (.list ([] ++ .object [_, _, _] :: [])) emptyUploadText :=
    textOf_single 3 ⟨_, .some (.more htag (.more hid (.one hdata))), rfl⟩ (by decide)
  have hrearranged : TextOf (.list ([] ++ .object [_, _, _, _, _] :: [])) rearrangedUploadText :=
    textOf_single 3 ⟨_, .some (.more hunknown (.more hdata (.more hid
      (.more hunknown' (.one htag))))), rfl⟩ (by decide)
  have hlisted : TextOf (.list ([] ++ .list [_, _, _, _, _] :: [])) listedUploadText :=
    textOf_single 3 ⟨_, .some (.more (padded_self hcmd) (.more (padded_self htwo)
      (.more (padded_self hzero) (.more (padded_self hnull) (.one (padded_self helements)))))),
        rfl⟩ (by decide)
  have hrepeated : TextOf (.list ([] ++ .object [_, _, _, _] :: [])) repeatedUploadText :=
    textOf_single 3 ⟨_, .some (.more htag (.more hid (.more hdata (.one hid')))), rfl⟩
      (by decide)
  have hform : Form emptyUpload _ := .object (.data _ .omitted .omitted (.u8 [])) (.refl _)
  have hread : readAll emptyUploadText = .ok [emptyUpload] :=
    readAll_of_spelledBy ⟨_, .cons hform .nil, htext⟩
  obtain ⟨-, hrewritten⟩ := readAll_rewritten hread
  obtain ⟨c, hc, hsame, hsame', hrefused⟩ := hrewritten _ _ _ htext
  cases hc
  refine ⟨hread, hsame _ _ ⟨?known, ?shallow⟩ hrearranged,
    hsame' _ _ ⟨?listed, ?shallowItems⟩ hlisted, hrefused _ _ ⟨?more, ?twice⟩ hrepeated⟩
  case known => exact List.reverse_perm [("cmd", _), ("id", _), ("data", _)]
  case shallow => simp [Nests]
  case listed =>
    refine ⟨_, _, rfl, by simp [tagKey], ?_⟩
    exact .cons (.inl (by simp [Field.required])) (.cons (.inr ⟨by decide, _, rfl, rfl⟩)
      (.cons (.inr ⟨by decide, _, rfl, rfl⟩) (.cons (.inl (by simp [Field.required])) .nil)))
  case shallowItems => simp [Nests, whole]
  case more => exact ⟨[("id", .null)], show ([_, _, _] ++ [_]).Perm _ from List.perm_append_comm⟩
  case twice => exact ⟨"id", by decide, by decide⟩

end Command
end DrawStream
