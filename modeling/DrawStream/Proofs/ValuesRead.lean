import DrawStream.Proofs.JsonText
import DrawStream.Proofs.NumbersRead

/-! # Values that are read are spelled, and no text is ambiguous

The converse of `readsValue`.  Whatever a reader takes off the front of a text is a text of
what it gives (`spells_of_readValue`): characters by one of their escapes, numbers by their
parts, items with commas between them.  As the loop over items is shared, its converse is
shown once for all steps that read texts of items (`StepsItems.items_of_enclosed`).

Since every text of a value is read as that value, two values with a text in common are the
same (`TextOf.unique`). -/
namespace DrawStream.Json
open DrawStream.Text

/-! ### Characters and texts -/

theorem hexValue?_lt {c : Char} {n : Nat} (h : hexValue? c = some n) : n < 16 := by
  have hzero : '0'.toNat = 48 := rfl
  have hsmall : 'a'.toNat = 97 := rfl
  have hcapital : 'A'.toNat = 65 := rfl
  unfold hexValue? at h
  split at h
  · next hc =>
    have hle : c.toNat ≤ 57 := hc.2
    cases h
    omega
  split at h
  · next hc =>
    have hle : c.toNat ≤ 102 := hc.2
    cases h
    omega
  split at h
  · next hc =>
    have hle : c.toNat ≤ 70 := hc.2
    cases h
    omega
  · cases h

theorem hexNumber?_lt {a b c d : Char} {n : Nat} (h : hexNumber? 0 [a, b, c, d] = some n) :
    n < 0x10000 := by
  simp only [hexNumber?, Option.bind_eq_bind, Option.bind_eq_some_iff, Option.some.injEq] at h
  obtain ⟨x, hx, y, hy, z, hz, w, hw, rfl⟩ := h
  have hx := hexValue?_lt hx
  have hy := hexValue?_lt hy
  have hz := hexValue?_lt hz
  have hw := hexValue?_lt hw
  omega

/-- A number that no surrogate has is that of a character. -/
theorem toNat_ofNat {n : Nat} (h : n < 0xd800 ∨ 0xdfff < n ∧ n < 0x110000) :
    (Char.ofNat n).toNat = n := by
  rw [Char.ofNat, dif_pos h]
  rfl

theorem spellsChar_unit {a b c d : Char} {n : Nat} (hn : hexNumber? 0 [a, b, c, d] = some n)
    (hlow : isLowSurrogate n = false) (hhigh : isHighSurrogate n = false) :
    SpellsChar (Char.ofNat n) ['\\', 'u', a, b, c, d] := by
  have hlt := hexNumber?_lt hn
  simp only [isLowSurrogate, isHighSurrogate, Bool.and_eq_false_iff,
    decide_eq_false_iff_not] at hlow hhigh
  have hvalid := @toNat_ofNat n (by omega)
  exact .unit rfl (by rw [hn, hvalid])

theorem spellsChar_pair {a b c d a' b' c' d' : Char} {high low : Nat}
    (hn : hexNumber? 0 [a, b, c, d] = some high) (hm : hexNumber? 0 [a', b', c', d'] = some low)
    (hhigh : isHighSurrogate high = true) (hlow : isLowSurrogate low = true) :
    SpellsChar (joinSurrogates high low)
      ['\\', 'u', a, b, c, d, '\\', 'u', a', b', c', d'] := by
  simp only [isHighSurrogate, isLowSurrogate, Bool.and_eq_true, decide_eq_true_eq] at hhigh hlow
  have hvalid : (joinSurrogates high low).toNat =
      0x10000 + (high - 0xd800) * 0x400 + (low - 0xdc00) := toNat_ofNat (by omega)
  refine @SpellsChar.pair _ [a, b, c, d] [a', b', c', d'] ?_ rfl rfl ?_ ?_
  · omega
  · rw [hn, hvalid]
    exact congrArg some (by omega)
  · rw [hm, hvalid]
    exact congrArg some (by omega)

/-- One character more in front of what is spelled. -/
theorem spells_cons {c : Char} {part cs s rest : List Char} (head : SpellsChar c part)
    (tail : ∃ body, SpellsChars s body ∧ cs = body ++ '"' :: rest) :
    ∃ body, SpellsChars (c :: s) body ∧ part ++ cs = body ++ '"' :: rest := by
  obtain ⟨body, hbody, rfl⟩ := tail
  exact ⟨part ++ body, .cons head hbody, (List.append_assoc ..).symm⟩

/-- What is read of a text is a text of it, up to the quotation mark. -/
theorem spells_of_readText? (cs : List Char) : ∀ {s rest : List Char},
    readText? cs = some (s, rest) → ∃ body, SpellsChars s body ∧ cs = body ++ '"' :: rest := by
  fun_induction readText? cs with
  | case1 =>
    intro s rest h
    cases h
  | case2 =>
    intro s rest h
    cases h
    exact ⟨[], .nil, rfl⟩
  | case3 a b c d left ih2 ih1 =>
    intro s rest h
    obtain ⟨n, hn, h⟩ := Option.bind_eq_some_iff.1 h
    split at h
    · cases h
    next hlow =>
    split at h
    · next hhigh =>
      split at h
      · next a' b' c' d' left' =>
        obtain ⟨m, hm, h⟩ := Option.bind_eq_some_iff.1 h
        split at h
        · next hlow' =>
          obtain ⟨⟨s', rest'⟩, hread, h⟩ := Option.bind_eq_some_iff.1 h
          cases h
          exact spells_cons (spellsChar_pair hn hm hhigh hlow') (ih2 hread)
        · cases h
      · cases h
    · next hhigh =>
      obtain ⟨⟨s', rest'⟩, hread, h⟩ := Option.bind_eq_some_iff.1 h
      cases h
      exact spells_cons (spellsChar_unit hn (by simpa using hlow) (by simpa using hhigh))
        (ih1 hread)
  | case4 e left _ ih =>
    intro s rest h
    obtain ⟨c, hc, h⟩ := Option.bind_eq_some_iff.1 h
    obtain ⟨⟨s', rest'⟩, hread, h⟩ := Option.bind_eq_some_iff.1 h
    cases h
    exact spells_cons (.letter hc) (ih hread)
  | case5 =>
    intro s rest h
    cases h
  | case6 c left hquote _ hslash _ hprintable =>
    rename_i ih
    intro s rest h
    obtain ⟨⟨s', rest'⟩, hread, h⟩ := Option.bind_eq_some_iff.1 h
    cases h
    have hnot : c ≠ '\\' := by
      rintro rfl
      rcases left with _ | ⟨e, left⟩
      · cases hread
      · exact hslash e left rfl rfl
    exact spells_cons (.plain (by omega) hquote hnot) (ih hread)

/-! ### Blanks and items -/

theorem blank_nil : Blank [] := by simp [Blank]

/-- What is in front of a token is blank. -/
theorem blank_skipBlank (cs : List Char) : ∃ front, Blank front ∧ cs = front ++ skipBlank cs :=
  ⟨cs.takeWhile isBlank, List.all_eq_true.mp List.all_takeWhile,
    List.takeWhile_append_dropWhile.symm⟩

/-- What is taken off behind blanks may have these in front. -/
theorem padded_of_skipBlank {P : List Char → Prop} {cs core rest : List Char} (hcore : P core)
    (hcs : skipBlank cs = core ++ rest) : ∃ part, Padded P part ∧ cs = part ++ rest := by
  obtain ⟨front, hfront, hsplit⟩ := blank_skipBlank cs
  refine ⟨front ++ core, ⟨front, core, [], hfront, hcore, blank_nil, by simp⟩, ?_⟩
  rw [hsplit, hcs, List.append_assoc]

section
variable {α σ : Type}

/-- Whatever a step reads is the text of an item, which it takes in as `next` says. -/
structure StepsItems (step : σ → Reading σ) (next : σ → α → Option σ)
    (P : α → List Char → Prop) : Prop where
  /-- Blanks around an item belong to it. -/
  pads : ∀ {a cs front back}, P a cs → Blank front → Blank back → P a (front ++ (cs ++ back))
  steps : ∀ {s s' cs rest}, step s cs = .ok (s', rest) →
    ∃ a part, P a part ∧ next s a = some s' ∧ cs = part ++ rest

namespace StepsItems
variable {close : Char} {step : σ → Reading σ} {next : σ → α → Option σ}
  {P : α → List Char → Prop}

/-- Behind an item, what is read up to the bracket makes a series with it. -/
theorem series_of_moreItems (h : StepsItems step next P) {bound : List Char} :
    ∀ {a : α} {part left rest : List Char} {s s' : σ}, P a part →
      moreItems close step bound s left = .ok (s', rest) →
      ∃ items text, Series P (a :: items) text ∧ items.foldlM next s = some s' ∧
        part ++ left = text ++ close :: rest := by
  induction bound with
  | nil =>
    intro a part left rest s s' _ hmore
    cases hmore
  | cons b bound ih =>
    intro a part left rest s s' hpart hmore
    obtain ⟨blanks, hblanks, hleft⟩ := blank_skipBlank left
    have hitem : P a ([] ++ (part ++ blanks)) := h.pads hpart blank_nil hblanks
    unfold moreItems at hmore
    split at hmore
    · cases hmore
    next c tail htail =>
    rw [htail] at hleft
    split at hmore
    · next hclose =>
      cases hmore
      refine ⟨[], part ++ blanks, .one hitem, rfl, ?_⟩
      rw [hleft, hclose, List.append_assoc]
    split at hmore
    · next hcomma =>
      rcases hstep : step s tail with fault | ⟨s₁, left₁⟩
      · rw [hstep] at hmore
        cases hmore
      rw [hstep] at hmore
      obtain ⟨a₁, part₁, hpart₁, hnext, htail⟩ := h.steps hstep
      obtain ⟨items, text, hseries, hrun, htext⟩ := ih hpart₁ hmore
      refine ⟨a₁ :: items, (part ++ blanks) ++ ',' :: text, .more hitem hseries, ?_, ?_⟩
      · rw [List.foldlM_cons, hnext]
        exact hrun
      · rw [hleft, hcomma, htail, htext]
        simp only [List.append_assoc, List.cons_append]
    · cases hmore

/-- What is read between brackets are items. -/
theorem items_of_enclosed (h : StepsItems step next P) {cs rest : List Char} {s s' : σ}
    (hread : enclosed close step s cs = .ok (s', rest)) :
    ∃ items inner, Items P items inner ∧ items.foldlM next s = some s' ∧
      cs = inner ++ close :: rest := by
  obtain ⟨front, hfront, hcs⟩ := blank_skipBlank cs
  unfold enclosed at hread
  split at hread
  · cases hread
  next c tail htail =>
  rw [htail] at hcs
  split at hread
  · next hclose =>
    cases hread
    exact ⟨[], front, .none hfront, rfl, by rw [hcs, hclose]⟩
  · rcases hstep : step s (c :: tail) with fault | ⟨s₁, left⟩
    · rw [hstep] at hread
      cases hread
    rw [hstep] at hread
    obtain ⟨a, part, hpart, hnext, hpartLeft⟩ := h.steps hstep
    have hitem : P a (front ++ (part ++ [])) := h.pads hpart hfront blank_nil
    rw [List.append_nil] at hitem
    obtain ⟨items, text, hseries, hrun, htext⟩ := h.series_of_moreItems hitem hread
    refine ⟨a :: items, text, .some hseries, ?_, ?_⟩
    · rw [List.foldlM_cons, hnext]
      exact hrun
    · rw [hcs, hpartLeft, ← htext, List.append_assoc]

end StepsItems
end

/-! ### Values -/

theorem of_orMalformed {α : Type} {x : Option α} {a : α} (h : orMalformed x = .ok a) :
    x = some a := by
  rcases x with _ | b
  · cases h
  · cases h
    rfl

theorem Padded.pad {P : List Char → Prop} {cs front back : List Char} (h : Padded P cs)
    (hfront : Blank front) (hback : Blank back) : Padded P (front ++ (cs ++ back)) := by
  obtain ⟨front', core, back', hfront', hcore, hback', rfl⟩ := h
  refine ⟨front ++ front', core, back' ++ back, ?_, hcore, ?_, by simp only [List.append_assoc]⟩
  · exact List.forall_mem_append.2 ⟨hfront, hfront'⟩
  · exact List.forall_mem_append.2 ⟨hback', hback⟩

theorem spells_of_readKey {cs rest : List Char} {key : String}
    (h : readKey cs = .ok (key, rest)) :
    ∃ part, Padded (SpellsText key) part ∧ cs = part ++ rest := by
  unfold readKey at h
  split at h
  · next left hleft =>
    obtain ⟨⟨s, rest'⟩, hread, hrest⟩ := ok_of_bind h
    cases hrest
    obtain ⟨body, hbody, rfl⟩ := spells_of_readText? left (of_orMalformed hread)
    have htext : SpellsText (String.ofList s) ('"' :: (body ++ ['"'])) :=
      ⟨body, by rwa [String.toList_ofList], rfl⟩
    exact padded_of_skipBlank htext (by rw [hleft]; simp)
  · cases h

theorem blank_of_skipColon {cs rest : List Char} (h : skipColon cs = .ok rest) :
    ∃ back, Blank back ∧ cs = back ++ ':' :: rest := by
  obtain ⟨back, hback, hcs⟩ := blank_skipBlank cs
  unfold skipColon at h
  split at h
  · next left hleft =>
    cases h
    exact ⟨back, hback, by rw [hcs, hleft]⟩
  · cases h

/-- What is read to a depth is a text of that depth. -/
def SpellsWhatIsRead (depth : Nat) : Prop :=
  ∀ {cs rest : List Char} {v : Json}, readValue depth cs = .ok (v, rest) →
    ∃ part, Padded (Spells depth v) part ∧ cs = part ++ rest

theorem SpellsMember.pad {P : Json → List Char → Prop} {m : String × Json}
    {cs front back : List Char} (h : SpellsMember P m cs) (hfront : Blank front)
    (hback : Blank back) : SpellsMember P m (front ++ (cs ++ back)) := by
  obtain ⟨key, value, hkey, hvalue, rfl⟩ := h
  have hkey := hkey.pad hfront blank_nil
  have hvalue := hvalue.pad blank_nil hback
  exact ⟨_, _, hkey, hvalue, by simp⟩

/-- A key, a colon and a value that is read by `read` make a member. -/
theorem spellsMember_of_read {P : Json → List Char → Prop} {cs left after part rest : List Char}
    {key : String} {v : Json} (hkey : readKey cs = .ok (key, left))
    (hcolon : skipColon left = .ok after) (hpart : Padded (P v) part)
    (hafter : after = part ++ rest) :
    ∃ text, SpellsMember P (key, v) text ∧ cs = text ++ rest := by
  obtain ⟨keyText, hkeyText, rfl⟩ := spells_of_readKey hkey
  obtain ⟨back, hback, rfl⟩ := blank_of_skipColon hcolon
  have hkeyText := hkeyText.pad blank_nil hback
  refine ⟨_, ⟨_, part, hkeyText, hpart, rfl⟩, ?_⟩
  rw [hafter]
  simp

theorem stepsItems_values {depth : Nat} (h : SpellsWhatIsRead depth) :
    StepsItems (takeValue depth) (fun items v => some (v :: items))
      (fun v => Padded (Spells depth v)) where
  pads hcs hfront hback := hcs.pad hfront hback
  steps {items items' cs rest} hstep := by
    obtain ⟨⟨v, rest'⟩, hread, hrest⟩ := ok_of_bind hstep
    cases hrest
    obtain ⟨part, hpart, rfl⟩ := h hread
    exact ⟨v, part, hpart, rfl, rfl⟩

theorem stepsItems_members {depth : Nat} (h : SpellsWhatIsRead depth) :
    StepsItems (takeMember depth) (fun members m => some (m :: members))
      (SpellsMember (Spells depth)) where
  pads hcs hfront hback := hcs.pad hfront hback
  steps {members members' cs rest} hstep := by
    obtain ⟨⟨key, left⟩, hkey, hstep⟩ := ok_of_bind hstep
    obtain ⟨after, hcolon, hstep⟩ := ok_of_bind hstep
    obtain ⟨⟨v, rest'⟩, hread, hrest⟩ := ok_of_bind hstep
    cases hrest
    obtain ⟨part, hpart, hafter⟩ := h hread
    obtain ⟨text, htext, rfl⟩ := spellsMember_of_read hkey hcolon hpart hafter
    exact ⟨(key, v), text, htext, rfl, rfl⟩

/-- Items that are kept as they come are kept all. -/
theorem eq_reverse_of_foldlM_cons {α : Type} {items kept : List α}
    (h : items.foldlM (fun acc a => some (a :: acc)) [] = some kept) : kept.reverse = items := by
  rw [foldlM_cons, List.append_nil] at h
  cases h
  exact List.reverse_reverse items

/-- A value is read at some depth as soon as those inside it are. -/
theorem spells_of_readValue_below {depth : Nat}
    (hbelow : ∀ below, depth = below + 1 → SpellsWhatIsRead below) : SpellsWhatIsRead depth := by
  intro cs rest v h
  suffices hcore : ∃ core, Spells depth v core ∧ skipBlank cs = core ++ rest by
    obtain ⟨core, hcore, hskip⟩ := hcore
    exact padded_of_skipBlank hcore hskip
  rw [readValue.eq_def] at h
  dsimp only at h
  split at h
  · next left hleft =>
    cases h
    exact ⟨['n', 'u', 'l', 'l'], by simp only [Spells], hleft⟩
  · next left hleft =>
    cases h
    exact ⟨['t', 'r', 'u', 'e'], by simp only [Spells], hleft⟩
  · next left hleft =>
    cases h
    exact ⟨['f', 'a', 'l', 's', 'e'], by simp only [Spells], hleft⟩
  · next left hleft =>
    obtain ⟨⟨s, rest'⟩, hread, h⟩ := ok_of_bind h
    cases h
    obtain ⟨body, hbody, rfl⟩ := spells_of_readText? left (of_orMalformed hread)
    refine ⟨'"' :: (body ++ ['"']), ?_, by rw [hleft]; simp⟩
    simp only [Spells]
    exact ⟨body, by rwa [String.toList_ofList], rfl⟩
  · next left hleft =>
    obtain ⟨⟨n, rest'⟩, hread, h⟩ := ok_of_bind h
    cases h
    obtain ⟨body, rfl, hnumber⟩ := spells_of_readNumber? (of_orMalformed hread)
    exact ⟨'-' :: body, by simp only [Spells]; exact hnumber, hleft⟩
  · next left hleft =>
    split at h
    · cases h
    next below =>
    obtain ⟨⟨items, rest'⟩, hread, h⟩ := ok_of_bind h
    cases h
    obtain ⟨all, inner, hinner, hrun, rfl⟩ :=
      (stepsItems_values (hbelow below rfl)).items_of_enclosed hread
    obtain rfl := eq_reverse_of_foldlM_cons hrun
    refine ⟨'[' :: (inner ++ [']']), ?_, by rw [hleft]; simp⟩
    simp only [Spells]
    exact ⟨inner, hinner, rfl⟩
  · next left hleft =>
    split at h
    · cases h
    next below =>
    obtain ⟨⟨members, rest'⟩, hread, h⟩ := ok_of_bind h
    cases h
    obtain ⟨all, inner, hinner, hrun, rfl⟩ :=
      (stepsItems_members (hbelow below rfl)).items_of_enclosed hread
    obtain rfl := eq_reverse_of_foldlM_cons hrun
    refine ⟨'\x7b' :: (inner ++ ['\x7d']), ?_, by rw [hleft]; simp⟩
    simp only [Spells]
    exact ⟨inner, hinner, rfl⟩
  · obtain ⟨⟨n, rest'⟩, hread, h⟩ := ok_of_bind h
    cases h
    obtain ⟨body, hbody, hnumber⟩ := spells_of_readNumber? (of_orMalformed hread)
    exact ⟨body, by simp only [Spells]; exact hnumber, hbody⟩

/-- **What is read is spelled.**  The induction is on the depth. -/
theorem spells_of_readValue (depth : Nat) : SpellsWhatIsRead depth := by
  induction depth with
  | zero =>
    refine spells_of_readValue_below ?_
    intro below hzero
    cases hzero
  | succ depth ih =>
    refine spells_of_readValue_below ?_
    intro below hsucc
    cases hsucc
    exact ih

/-- Texts of values that others stand for are texts of the others' values. -/
theorem Items.exists_forall₂ {α β : Type} {R : α → β → Prop} {P : β → List Char → Prop}
    {as : List α} {cs : List Char} (h : Items (fun a cs => ∃ b, R a b ∧ P b cs) as cs) :
    ∃ bs, List.Forall₂ R as bs ∧ Items P bs cs := by
  rcases h with blank | series
  · exact ⟨[], .nil, .none blank⟩
  · suffices hseries : ∃ bs, List.Forall₂ R as bs ∧ Series P bs cs by
      obtain ⟨bs, hbs, hseries⟩ := hseries
      exact ⟨bs, hbs, .some hseries⟩
    induction series with
    | one item =>
      obtain ⟨b, hb, hcs⟩ := item
      exact ⟨[b], .cons hb .nil, .one hcs⟩
    | more item _ ih =>
      obtain ⟨b, hb, hcs⟩ := item
      obtain ⟨bs, hbs, hseries⟩ := ih
      exact ⟨b :: bs, .cons hb hbs, .more hcs hseries⟩

/-! ### No text is ambiguous -/

/-- An item has a text. -/
theorem Items.exists_text {α : Type} {P : α → List Char → Prop} {items : List α} {cs : List Char}
    (h : Items P items cs) {a : α} (ha : a ∈ items) : ∃ part, P a part := by
  rcases h with blank | series
  · cases ha
  · induction series with
    | one item =>
      obtain rfl := List.mem_singleton.1 ha
      exact ⟨_, item⟩
    | more item _ ih =>
      rcases List.mem_cons.1 ha with rfl | ha
      · exact ⟨_, item⟩
      · exact ih ha

/-- What a text of some depth spells nests no deeper. -/
theorem nests_of_spells : ∀ (depth : Nat) (v : Json) {cs : List Char},
    Spells depth v cs → Nests depth v
  | _, .null, _, _ | _, .bool _, _, _ | _, .number _, _, _ | _, .text _, _, _ => by
    simp only [Nests]
  | 0, .list _, _, h | 0, .object _, _, h => by simp only [Spells] at h
  | depth + 1, .list items, _, h => by
    simp only [Spells, Nests] at h ⊢
    obtain ⟨inner, hinner, -⟩ := h
    intro v hv
    obtain ⟨_, front, core, back, -, hcore, -, -⟩ := hinner.exists_text hv
    exact nests_of_spells depth v hcore
  | depth + 1, .object members, _, h => by
    simp only [Spells, Nests] at h ⊢
    obtain ⟨inner, hinner, -⟩ := h
    intro m hm
    obtain ⟨_, key, value, -, ⟨front, core, back, -, hcore, -, -⟩, -⟩ := hinner.exists_text hm
    exact nests_of_spells depth m.2 hcore

/-- Who nests to a depth nests to any greater one. -/
theorem Nests.mono : ∀ {depth limit : Nat} {v : Json}, Nests depth v → depth ≤ limit →
    Nests limit v
  | _, _, .null, _, _ | _, _, .bool _, _, _ | _, _, .number _, _, _ | _, _, .text _, _, _ => by
    simp only [Nests]
  | 0, _, .list _, h, _ | 0, _, .object _, h, _ => by simp only [Nests] at h
  | _ + 1, 0, .list _, _, hle | _ + 1, 0, .object _, _, hle => by omega
  | depth + 1, limit + 1, .list items, h, hle => by
    simp only [Nests] at h ⊢
    intro v hv
    exact (h v hv).mono (by omega)
  | depth + 1, limit + 1, .object members, h, hle => by
    simp only [Nests] at h ⊢
    intro m hm
    exact (h m hm).mono (by omega)

/-- The text is one of the value's, with blanks around it. -/
def TextOf (v : Json) (text : String) : Prop := Padded (Spelled v) text.toList

/-- A text of a value between brackets is one of a list. -/
theorem textOf_single (depth : Nat) {v : Json} {cs : List Char} {text : String}
    (h : Spells depth v cs) (htext : text.toList = '[' :: (cs ++ [']'])) :
    TextOf (.list [v]) text :=
  padded_self ⟨depth + 1, cs, .some (.one (padded_self h)), htext⟩

/-- A text that spells a value is read as that value, at any depth that is enough. -/
theorem TextOf.read {v : Json} {text : String} (h : TextOf v text) :
    ∃ depth, ∀ limit, depth ≤ limit → ∃ left, readValue limit text.toList = .ok (v, left) := by
  obtain ⟨front, core, back, hfront, ⟨depth, hcore⟩, hback, htext⟩ := h
  refine ⟨depth, ?_⟩
  intro limit hlimit
  have hnests := (nests_of_spells depth v hcore).mono hlimit
  have hpadded : Padded (Spells limit v) text.toList :=
    ⟨front, core, back, hfront, spells_of_nests depth limit v hcore hnests, hback, htext⟩
  have hends : Ends [] := fun _ hc => by cases hc
  obtain ⟨left, hread, -⟩ := ReadsValue.padded (readsValue limit v) hpadded hends
  rw [List.append_nil] at hread
  exact ⟨left, hread⟩

/-- **No text is ambiguous.**  Both values are read from it, at a depth that does for both. -/
theorem TextOf.unique {v w : Json} {text : String} (hv : TextOf v text) (hw : TextOf w text) :
    v = w := by
  obtain ⟨depth, hread⟩ := hv.read
  obtain ⟨depth', hread'⟩ := hw.read
  obtain ⟨left, hread⟩ := hread (max depth depth') (Nat.le_max_left ..)
  obtain ⟨left', hread'⟩ := hread' (max depth depth') (Nat.le_max_right ..)
  rw [hread] at hread'
  cases hread'
  rfl

end DrawStream.Json
