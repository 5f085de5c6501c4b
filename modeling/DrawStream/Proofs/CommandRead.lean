import DrawStream.Proofs.CommandText
import DrawStream.Proofs.ValuesRead

/-! # What command text is read from

The converse of `readAll_of_stands`.  A text is read as commands only if it is a text of a
list of values that stand for them, so the values decide: with the depth to which they may
nest, this is all there is to reading command text (`readAll_iff`). -/
namespace DrawStream.Command
open DrawStream.Json

/-! ### Reading one command -/

theorem reads_of_readTag {cs rest : List Char} {t : Tag} (h : readTag cs = .ok (t, rest))
    (depth : Nat) :
    ∃ v part, TagReads v t ∧ Padded (Spells depth v) part ∧ cs = part ++ rest := by
  unfold readTag at h
  split at h
  · next left hleft =>
    obtain ⟨⟨s, rest'⟩, hread, htag⟩ := ok_of_bind h
    dsimp only at htag
    split at htag
    · next u hu =>
      cases htag
      obtain ⟨body, hbody, rfl⟩ := spells_of_readText? left (of_orMalformed hread)
      have htext : Spells depth (.text (String.ofList s)) ('"' :: (body ++ ['"'])) := by
        simp only [Spells]
        exact ⟨body, by rwa [String.toList_ofList], rfl⟩
      have hskip : skipBlank cs = '"' :: (body ++ ['"']) ++ rest := by
        rw [hleft]
        simp
      obtain ⟨part, hpart, hcs⟩ := padded_of_skipBlank htext hskip
      exact ⟨_, part, ⟨_, rfl, hu⟩, hpart, hcs⟩
    · cases htag
  · cases h

theorem stepsItems_member (depth : Nat) :
    StepsItems (readMember depth) takeMember? (SpellsMember (Spells depth)) where
  pads hcs hfront hback := hcs.pad hfront hback
  steps {p p' cs rest} hstep := by
    obtain ⟨⟨key, left⟩, hkey, hstep⟩ := ok_of_bind hstep
    by_cases htag : key = tagKey
    · simp only [htag, if_true] at hstep
      split at hstep
      · cases hstep
      next hnone =>
      obtain ⟨after, hcolon, hstep⟩ := ok_of_bind hstep
      obtain ⟨⟨t, rest'⟩, hread, hrest⟩ := ok_of_bind hstep
      cases hrest
      obtain ⟨v, part, ht, hpart, hafter⟩ := reads_of_readTag hread depth
      obtain ⟨text, htext, rfl⟩ := spellsMember_of_read hkey hcolon hpart hafter
      rw [htag] at htext
      exact ⟨(tagKey, v), text, htext, takeMember?_tag_iff.2 ⟨hnone, t, ht, rfl⟩, rfl⟩
    · simp only [htag, if_false] at hstep
      obtain ⟨after, hcolon, hstep⟩ := ok_of_bind hstep
      obtain ⟨⟨v, rest'⟩, hread, hrest⟩ := ok_of_bind hstep
      cases hrest
      obtain ⟨part, hpart, hafter⟩ := spells_of_readValue depth hread
      obtain ⟨text, htext, rfl⟩ := spellsMember_of_read hkey hcolon hpart hafter
      exact ⟨(key, v), text, htext, takeMember?_of_ne htag, rfl⟩

theorem stepsItems_item (depth : Nat) :
    StepsItems (readItem depth) takeItem? (fun v => Padded (Spells depth v)) where
  pads hcs hfront hback := hcs.pad hfront hback
  steps {p p' cs rest} hstep := by
    obtain ⟨_ | u, values⟩ := p
    · obtain ⟨⟨t, rest'⟩, hread, hrest⟩ := ok_of_bind hstep
      cases hrest
      obtain ⟨v, part, ht, hpart, rfl⟩ := reads_of_readTag hread depth
      exact ⟨v, part, hpart, takeItem?_none_iff.2 ⟨t, ht, rfl⟩, rfl⟩
    · obtain ⟨⟨v, rest'⟩, hread, hrest⟩ := ok_of_bind hstep
      cases hrest
      obtain ⟨part, hpart, rfl⟩ := spells_of_readValue depth hread
      exact ⟨v, part, hpart, rfl, rfl⟩

/-- A command comes of its tag and of the fields that are read from what else there is. -/
theorem of_ofPartial {α : Type} {p : Partial α}
    {read : (t : Tag) → List α → Except Mismatch (Slots t.fields)} {c : Command}
    (h : ofPartial p read = .ok c) :
    ∃ t slots, p.tag = some t ∧ read t p.values.reverse = .ok slots ∧ ofSlots t slots = c := by
  unfold ofPartial at h
  split at h
  · cases h
  next t htag =>
  split at h
  · next slots hslots =>
    cases h
    exact ⟨t, slots, htag, hslots, rfl⟩
  · cases h

/-- What is read as a command is a text of a value that stands for it. -/
theorem stands_of_readCommand {depth : Nat} {cs rest : List Char} {c : Command}
    (h : readCommand depth cs = .ok (c, rest)) :
    ∃ v part, Stands v c ∧ Padded (Spells (depth + 1) v) part ∧ cs = part ++ rest := by
  unfold readCommand at h
  split at h
  · next left hleft =>
    obtain ⟨⟨⟨tag, kept⟩, rest'⟩, hread, hrest⟩ := ok_of_bind h
    obtain ⟨c', hcommand, hrest⟩ := ok_of_bind hrest
    cases hrest
    obtain ⟨members, inner, hinner, hrun, hinside⟩ :=
      (stepsItems_member depth).items_of_enclosed hread
    obtain ⟨t, slots, htag, hslots, hc⟩ := of_ofPartial hcommand
    obtain rfl : tag = some t := htag
    obtain ⟨⟨v, hv, ht⟩, rfl⟩ := taken_members_iff.1 hrun
    rw [List.reverse_reverse, Slots.ofMembers_iff (nodup_fields t)] at hslots
    have htext : Spells (depth + 1) (.object members) ('\x7b' :: (inner ++ ['\x7d'])) := by
      simp only [Spells]
      exact ⟨inner, hinner, rfl⟩
    have hskip : skipBlank cs = '\x7b' :: (inner ++ ['\x7d']) ++ rest := by
      rw [hleft, hinside]
      simp
    obtain ⟨part, hpart, hcs⟩ := padded_of_skipBlank htext hskip
    exact ⟨.object members, part, ⟨t, slots, v, hv, ht, taken_filter_iff.1 hslots, hc⟩, hpart, hcs⟩
  · next left hleft =>
    obtain ⟨⟨⟨tag, kept⟩, rest'⟩, hread, hrest⟩ := ok_of_bind h
    obtain ⟨c', hcommand, hrest⟩ := ok_of_bind hrest
    cases hrest
    obtain ⟨items, inner, hinner, hrun, hinside⟩ :=
      (stepsItems_item depth).items_of_enclosed hread
    obtain ⟨t, slots, htag, hslots, hc⟩ := of_ofPartial hcommand
    obtain rfl : tag = some t := htag
    obtain ⟨v, values, hitems, ht, rfl⟩ := taken_items_iff.1 hrun
    rw [List.reverse_reverse] at hslots
    have htext : Spells (depth + 1) (.list items) ('[' :: (inner ++ [']'])) := by
      simp only [Spells]
      exact ⟨inner, hinner, rfl⟩
    have hskip : skipBlank cs = '[' :: (inner ++ [']']) ++ rest := by
      rw [hleft, hinside]
      simp
    obtain ⟨part, hpart, hcs⟩ := padded_of_skipBlank htext hskip
    exact ⟨.list items, part, ⟨t, slots, v, values, hitems, ht, hslots, hc⟩, hpart, hcs⟩
  · cases h

/-! ### Reading a list of commands -/

theorem stepsItems_commands :
    StepsItems takeCommand (fun commands c => some (c :: commands))
      (fun c cs => ∃ v, Stands v c ∧ Padded (Spells (maxDepth - 1) v) cs) where
  pads hcs hfront hback := by
    obtain ⟨v, hstands, hcs⟩ := hcs
    exact ⟨v, hstands, hcs.pad hfront hback⟩
  steps {commands commands' cs rest} hstep := by
    obtain ⟨⟨c, rest'⟩, hread, hrest⟩ := ok_of_bind hstep
    cases hrest
    obtain ⟨v, part, hstands, hpart, rfl⟩ := stands_of_readCommand hread
    exact ⟨c, part, ⟨v, hstands, hpart⟩, rfl, rfl⟩

/-- What is read as commands is a text of a list of values that stand for them. -/
theorem stands_of_readAll {text : String} {commands : List Command}
    (h : readAll text = .ok commands) :
    ∃ values, List.Forall₂ (fun c v => Stands v c) commands values ∧
      Padded (Spells maxDepth (.list values)) text.toList := by
  rw [readAll.eq_def] at h
  split at h
  · next left hleft =>
    obtain ⟨⟨kept, rest⟩, hread, hend⟩ := ok_of_bind h
    dsimp only at hend
    split at hend
    · next hblank =>
      cases hend
      obtain ⟨all, inner, hinner, hrun, hinside⟩ :=
        stepsItems_commands.items_of_enclosed hread
      obtain rfl := eq_reverse_of_foldlM_cons hrun
      obtain ⟨values, hstands, hvalues⟩ := hinner.exists_forall₂
      have htext : Spells maxDepth (.list values) ('[' :: (inner ++ [']'])) := by
        rw [maxDepth]
        simp only [Spells]
        exact ⟨inner, hvalues, rfl⟩
      have hskip : skipBlank text.toList = '[' :: (inner ++ [']']) ++ rest := by
        rw [hleft, hinside]
        simp
      obtain ⟨part, hpart, hcs⟩ := padded_of_skipBlank htext hskip
      obtain ⟨back, hback, hrest⟩ := blank_skipBlank rest
      rw [List.isEmpty_iff.1 hblank, List.append_nil] at hrest
      have hpadded := hpart.pad blank_nil hback
      rw [hcs, hrest]
      exact ⟨values, hstands, hpadded⟩
    · cases hend
  · cases h

/-- **What text is read as commands.**  It is a text of a list of values that stand for the
commands, and these do not nest too deep. -/
theorem readAll_iff {text : String} {commands : List Command} :
    readAll text = .ok commands ↔
      ∃ values, List.Forall₂ (fun c v => Stands v c) commands values ∧
        Nests maxDepth (.list values) ∧ TextOf (.list values) text := by
  constructor
  · intro h
    obtain ⟨values, hstands, htext⟩ := stands_of_readAll h
    have hspelled : TextOf (.list values) text := htext.imp fun _ hs => ⟨maxDepth, hs⟩
    obtain ⟨front, core, back, -, hcore, -, -⟩ := htext
    exact ⟨values, hstands, nests_of_spells maxDepth _ hcore, hspelled⟩
  · rintro ⟨values, hstands, hnests, htext⟩
    exact readAll_of_stands hstands hnests htext

end DrawStream.Command
