import DrawStream.Proofs.CommandPlaces

/-! # Whole numbers in command text are taken exactly

A number is given by the parts of its text.  `NumberText.IsWord` says what it takes to be one
of a range: no fraction, no exponent, not the zero with a minus sign, and an exact value that
lies in the range.  The value of such a text is this whole number (`IsWord.value?`), and no
other text has a value of the range (`isWord_of_value?`).

In command text that is read, the number in a place may be exchanged for any other number.
If that is one of the range, the text is read, and the command holds exactly this number; if
it is not, the text is refused (`exactNumbers_of_readAll`).  The exception are selections: one
that is complete in the other form is taken in that form, and the number is not looked at. -/
namespace DrawStream

namespace Json

/-! ### Numbers of a range -/

/-- The exact value of the digits before the point, with the sign. -/
def NumberText.exact (t : NumberText) : Int :=
  if t.negative then -(decimalValue t.whole : Int) else decimalValue t.whole

/-- The text is that of a whole number of the range. -/
structure NumberText.IsWord (k : WordKind) (t : NumberText) : Prop where
  fraction : t.fraction = []
  exponent : t.exponent = none
  not_negative_zero : ¬ (t.negative = true ∧ decimalValue t.whole = 0)
  least : k.least ≤ t.exact
  greatest : t.exact ≤ k.greatest

/-- Every range lies within the numbers that are kept whole. -/
theorem range_whole (k : WordKind) : leastWhole ≤ k.least ∧ k.greatest ≤ greatestLead := by
  cases k <;> decide

/-- The value of such a text is its exact value. -/
theorem NumberText.IsWord.value? {k : WordKind} {t : NumberText} (h : t.IsWord k) :
    t.value? = some (.whole t.exact) := by
  obtain ⟨hfraction, hexponent, hzero, hleast, hgreatest⟩ := h
  obtain ⟨hlow, hhigh⟩ := range_whole k
  unfold leastWhole at hlow
  by_cases hsign : t.negative = true
  · have hpos : decimalValue t.whole ≠ 0 := fun hvalue => hzero ⟨hsign, hvalue⟩
    have hexact : t.exact = -(decimalValue t.whole : Int) := by simp [NumberText.exact, hsign]
    have hbound : decimalValue t.whole ≤ 9223372036854775808 := by omega
    have hlead : takeLead 0 t.whole = (decimalValue t.whole, []) :=
      takeLead_of_le (Nat.le_trans hbound (by decide))
    simp [NumberText.value?, hlead, hfraction, hexponent, hsign, hpos, hbound, hexact]
  · have hexact : t.exact = decimalValue t.whole := by simp [NumberText.exact, hsign]
    have hlead : takeLead 0 t.whole = (decimalValue t.whole, []) := by
      refine takeLead_of_le ?_
      change decimalValue t.whole ≤ greatestLead
      omega
    simp [NumberText.value?, hlead, hfraction, hexponent, hsign, hexact]

/-- **Only such texts have a value of the range**, and it is the exact one. -/
theorem NumberText.isWord_of_value? {k : WordKind} {t : NumberText} {w : Word k}
    (h : t.value? = some (.whole w.val)) : t.IsWord k ∧ t.exact = w.val := by
  obtain ⟨hfraction, hexponent, -, hsign⟩ := whole_of_value? h
  have hexact : t.exact = w.val := by
    rcases hsign with ⟨hsign, hvalue⟩ | ⟨hsign, -, -, hvalue⟩
    · simp [NumberText.exact, hsign, hvalue]
    · simp [NumberText.exact, hsign, hvalue]
  refine ⟨⟨hfraction, hexponent, ?_, ?_, ?_⟩, hexact⟩
  · rintro ⟨hnegative, hzero⟩
    rcases hsign with ⟨hsign, -⟩ | ⟨-, hpos, -, -⟩
    · exact absurd (hnegative.symm.trans hsign) (by decide)
    · omega
  · rw [hexact]
    exact w.least_le
  · rw [hexact]
    exact w.le_greatest

/-! ### Depth -/

/-- How deep a value nests does not depend on a number in it. -/
theorem nests_fill {m m' : JsonNumber} : ∀ {depth : Nat} {gap : List Frame},
    Nests depth (fill gap (.number m)) → Nests depth (fill gap (.number m'))
  | _, [], _ => by simp only [fill, Nests]
  | 0, .item .. :: _, h | 0, .member .. :: _, h => by simp only [fill, Frame.fill, Nests] at h
  | depth + 1, .item before after :: gap, h => by
    simp only [fill, Frame.fill, Nests, List.mem_append, List.mem_cons] at h ⊢
    rintro v (hv | rfl | hv)
    · exact h v (.inl hv)
    · exact nests_fill (h _ (.inr (.inl rfl)))
    · exact h v (.inr (.inr hv))
  | depth + 1, .member before key after :: gap, h => by
    simp only [fill, Frame.fill, Nests, List.mem_append, List.mem_cons] at h ⊢
    rintro v (hv | rfl | hv)
    · exact h v (.inl hv)
    · exact nests_fill (h _ (.inr (.inl rfl)))
    · exact h v (.inr (.inr hv))

end Json

namespace Command
open Json

/-! ### Text that is refused at a number -/

section
variable {depth : Nat} {cs left : List Char}

theorem readMember_fails (h : Fails (readValue depth cs)) (p : Partial (String × Json))
    {key : String} (hkey : key ≠ tagKey) {name : List Char} (hname : Padded (SpellsText key) name)
    (hleft : Blank left) : Fails (readMember depth p (name ++ ':' :: (left ++ cs))) := by
  obtain ⟨behind, hread, hcolon⟩ := readKey_of_spells hname (left ++ cs)
  simp only [readMember, hread, ok_bind, hkey, if_false, hcolon, readValue_blank depth hleft]
  exact h.bind _

theorem readItem_fails (h : Fails (readValue depth cs)) (t : Tag) (values : List Json)
    (hleft : Blank left) : Fails (readItem depth ⟨some t, values⟩ (left ++ cs)) := by
  simp only [readItem, readValue_blank depth hleft]
  exact h.bind _

end

/-- A command is refused at a number that there is none of, if another number there is read. -/
theorem readCommand_fails {depth : Nat} {gap : List Frame} {front back : List Char}
    (hs : Surrounds (depth + 1) gap front back) {m : JsonNumber} {c : Command} {k : WordKind}
    (h : Stands (fill gap (.number m)) c)
    (hk : c.tag.kind? (c.tag.named (place gap)) = some k) {number : List Char}
    (hnumber : Beyond number) (rest : List Char) :
    Fails (readCommand depth (front ++ (number ++ (back ++ rest)))) := by
  cases hs with
  | here => cases h
  | @item _ before after gap pre post left right front back leads trails hleft hright inner =>
    rcases before with _ | ⟨tag, before⟩
    · cases hk
    obtain ⟨v, values, hitems, ht, -, -⟩ := stands_list_iff.1 h
    cases hitems
    have hvalue := inner.fails hnumber (.of_blank hright (trails.ends (.inl rfl) rest))
    obtain ⟨c', tail, hopen, hc, -⟩ := (inner.opens hnumber.opens _).skipBlank hleft
    have hfails := (readsItems_item depth).fails leads
      (taken_items_iff.2 ⟨tag, before, rfl, ht, rfl⟩) ⟨c', tail, hopen, hc⟩
      (readItem_fails hvalue c.tag before.reverse hleft)
    simp only [readCommand, List.append_assoc, List.cons_append, List.nil_append,
      skipBlank_cons (show isBlank '[' = false from rfl)]
    exact hfails.bind _
  | @member _ before after key gap pre name post left right front back leads named trails hleft
      hright inner =>
    obtain ⟨⟨v, hv, ht⟩, -⟩ := stands_object_iff.1 h
    have hvalue := inner.fails hnumber (.of_blank hright (trails.ends (.inr rfl) rest))
    obtain ⟨c', tail, hopen, -, hc⟩ := named.opens fun _ => opens_of_spellsText
    -- What is read of the members in front of the number is what is read of them in the command.
    have hrun := taken_members_iff.2 ⟨⟨v, hv, ht⟩, rfl⟩
    rw [List.foldlM_append, Option.bind_eq_bind, Option.bind_eq_some_iff] at hrun
    obtain ⟨p, hrun, -⟩ := hrun
    have hfails := (readsItems_member depth).fails leads hrun
      ⟨c', _, skipBlank_append_of_eq_cons hopen _, hc⟩
      (readMember_fails hvalue p (ne_tagKey_of_kind? hk) named hleft)
    simp only [readCommand, List.append_assoc, List.cons_append, List.nil_append,
      skipBlank_cons (show isBlank '\x7b' = false from rfl)]
    exact hfails.bind _

theorem takeCommand_fails {cs left : List Char} (h : Fails (readCommand (maxDepth - 2) cs))
    (commands : List Command) (hleft : Blank left) :
    Fails (takeCommand commands (left ++ cs)) := by
  rw [takeCommand, ← readCommand_skipBlank, skipBlank_append hleft, readCommand_skipBlank]
  exact h.bind _

/-- Command text is refused at a number that there is none of, if another number there is
read. -/
theorem readAll_fails {before after : List Json} {gap : List Frame} {front back : List Char}
    (hs : Surrounds maxDepth (.item before after :: gap) front back) {commands : List Command}
    {m : JsonNumber}
    (h : List.Forall₂ (fun c v => Stands v c) commands (before ++ fill gap (.number m) :: after))
    {c : Command} (hc : Stands (fill gap (.number m)) c) {k : WordKind}
    (hk : c.tag.kind? (c.tag.named (place gap)) = some k) {number : List Char}
    (hnumber : Beyond number) {text : String} {left right : List Char} (hleft : Blank left)
    (htext : text.toList = left ++ (front ++ (number ++ (back ++ right)))) :
    Fails (readAll text) := by
  have hdepth : maxDepth = (maxDepth - 2) + 1 + 1 := rfl
  rw [hdepth] at hs
  cases hs with
  | @item _ _ _ _ pre post left' right' front back leads trails hleft' hright' inner =>
    have hcommand := readCommand_fails inner hc hk hnumber (right' ++ (post ++ ']' :: right))
    obtain ⟨c', tail, hopen, hc', -⟩ := (inner.opens hnumber.opens _).skipBlank hleft'
    have hbefore := leads.of_forall₂ (List.forall₂_take_append _ _ _ h)
    have hfails := readsItems_commands.fails hbefore (foldlM_cons _ [])
      ⟨c', tail, hopen, hc'⟩ (takeCommand_fails hcommand _ hleft')
    have hbegin : skipBlank text.toList = '[' :: (pre ++ (left' ++ (front ++ (number ++
        (back ++ (right' ++ (post ++ ']' :: right))))))) := by
      rw [htext, skipBlank_append hleft]
      simp [skipBlank_cons (show isBlank '[' = false from rfl)]
    rw [readAll_list hbegin]
    exact hfails.bind _

/-! ### Numbers in command text -/

/-- The characters around a number of a text, between which those of any other number may
stand. -/
structure Around (before : List Json) (gap : List Frame) (m : JsonNumber) (after : List Json)
    (text : String) (front back : List Char) : Prop where
  split : ∃ number, SpellsNumber m number ∧ text.toList = front ++ (number ++ back)
  others : ∀ m' number, SpellsNumber m' number →
    TextOf (.list (before ++ fill gap (.number m') :: after))
      (String.ofList (front ++ (number ++ back)))

/-- In a place of the range `k` of one of the commands, whole numbers of the range are taken
as they are, and no others. -/
structure TakesExactly (commands : List Command) (i : Nat) (c : Command) (p : List Step)
    (k : WordKind) (m : JsonNumber) (front back : List Char) : Prop where
  kept : (∃ w : Word k, m = .whole w.val ∧ c.held? p = some w.val) ∨ c.PassesOver p
  taken : ∀ (t : NumberText) number, t.Spells number → t.IsWord k →
    ∃ c', readAll (String.ofList (front ++ (number ++ back))) = .ok (commands.set i c') ∧
      c'.tag = c.tag ∧ (c'.held? p = some t.exact ∨ c'.PassesOver p)
  refused : ∀ (t : NumberText) number, t.Spells number → ¬ t.IsWord k →
    (∃ fault, readAll (String.ofList (front ++ (number ++ back))) = .error fault) ∨
      ∃ c', readAll (String.ofList (front ++ (number ++ back))) = .ok (commands.set i c') ∧
        c'.PassesOver p

/-- The whole numbers of commands are those of their text. -/
structure ExactNumbers (text : String) (commands : List Command) : Prop where
  written : ∃ values, TextOf (.list values) text ∧
    List.Forall₂ (fun c v => ∀ p n, c.held? p = some n → Writes c v p n) commands values
  places : ∀ before gap m after,
    TextOf (.list (before ++ fill gap (.number m) :: after)) text →
      ∃ c front back, commands[before.length]? = some c ∧
        Around before gap m after text front back ∧
          ∀ k, c.tag.kind? (c.tag.named (place gap)) = some k →
            TakesExactly commands before.length c (c.tag.named (place gap)) k m front back

/-- What is read with the number of a text in a place of the range `k` holds its exact value. -/
theorem Stands.isWord {gap : List Frame} {t : NumberText} {m : JsonNumber} {c c' : Command}
    {k : WordKind} {n : JsonNumber} (h : Stands (fill gap (.number n)) c)
    (hk : c.tag.kind? (c.tag.named (place gap)) = some k)
    (h' : Stands (fill gap (.number m)) c') (hvalue : t.value? = some m) :
    t.IsWord k ∧ c'.held? (c.tag.named (place gap)) = some t.exact ∨
      c'.PassesOver (c.tag.named (place gap)) := by
  have htag := h.tag_eq hk h'
  rw [← htag] at hk ⊢
  rcases h'.keeps hk with ⟨w, rfl, hheld⟩ | hover
  · obtain ⟨hword, hexact⟩ := NumberText.isWord_of_value? hvalue
    exact .inl ⟨hword, hexact ▸ hheld⟩
  · exact .inr hover

/-- **Whole numbers are taken exactly.** -/
theorem exactNumbers_of_readAll {text : String} {commands : List Command}
    (h : readAll text = .ok commands) : ExactNumbers text commands := by
  refine ⟨?written, ?places⟩
  case written =>
    obtain ⟨values, hstands, -, hvalues⟩ := readAll_iff.1 h
    refine ⟨values, hvalues, hstands.imp ?_⟩
    intro c v hv p n hn
    exact hv.writes hn
  intro before gap m after htext
  obtain ⟨hstands, hnests⟩ := readAll_values h htext
  obtain ⟨c, hc, hv, hnestsV, hexchanged⟩ := readAll_exchanged h htext
  obtain ⟨left, core, right, hleft, ⟨depth, hcore⟩, hright, hchars⟩ := htext
  have hcore : Spells maxDepth (fill (.item before after :: gap) (.number m)) core :=
    spells_of_nests depth maxDepth _ hcore hnests
  obtain ⟨front, number, back, hs, hnumber, rfl⟩ := surrounds_of_spells hcore
  have haround : Around before gap m after text (left ++ front) (back ++ right) := by
    refine ⟨⟨number, hnumber, by simp [hchars]⟩, ?_⟩
    intro m' number hm
    exact ⟨left, _, right, hleft, ⟨maxDepth, hs.spells hm⟩, hright, by simp⟩
  refine ⟨c, left ++ front, back ++ right, hc, haround, ?_⟩
  intro k hk
  refine ⟨hv.keeps hk, ?taken, ?refused⟩
  case taken =>
    intro t number hspells hword
    have hm := hspells.spellsNumber hword.value?
    obtain ⟨c', htag, hc'⟩ := hv.takes hk ⟨t.exact, hword.least, hword.greatest⟩
    refine ⟨c', hexchanged _ c' _ hc' (nests_fill hnestsV) (haround.others _ _ hm), htag, ?_⟩
    exact (hv.isWord hk hc' hword.value?).imp_left And.right
  case refused =>
    intro t number hspells hword
    -- Text without a value is refused as text; other text is that of some number, and if that is
    -- read, it has been passed over, for otherwise it would be one of the range.
    rcases hvalue : t.value? with _ | m'
    · have hsplit : (String.ofList (left ++ front ++ (number ++ (back ++ right)))).toList =
          left ++ (front ++ (number ++ (back ++ right))) := by simp
      exact .inl (readAll_fails hs hstands hv hk ⟨t, hspells, hvalue⟩ hleft hsplit)
    · have htext' := haround.others m' number (hspells.spellsNumber hvalue)
      rcases hread : readAll (String.ofList (left ++ front ++ (number ++ (back ++ right))))
        with fault | commands'
      · exact .inl ⟨fault, rfl⟩
      · obtain ⟨c', -, hc', -⟩ := readAll_exchanged hread htext'
        refine .inr ⟨c', ?_, ?_⟩
        · rw [← hread]
          exact hexchanged _ c' _ hc' (nests_fill hnestsV) htext'
        · exact (hv.isWord hk hc' hvalue).resolve_left fun hkept => hword hkept.1

/-! ### A deletion -/

def fortieth : Id := ⟨40, by decide, by decide⟩

/-- The last object that can be addressed. -/
def lastId : Id := ⟨4294967295, by decide, by decide⟩

def deletionText : String := "[\x7b\"cmd\":\"delete\",\"id\":40\x7d]"

theorem exactNumbers_deletion :
    readAll deletionText = .ok [.delete fortieth] ∧
      ExactNumbers deletionText [.delete fortieth] ∧
      ∃ front back, deletionText.toList = front ++ (['4', '0'] ++ back) ∧
        readAll (String.ofList (front ++ ("4294967295".toList ++ back))) =
          .ok [.delete lastId] ∧
        ∃ fault, readAll (String.ofList (front ++ ("4294967296".toList ++ back))) =
          .error fault := by
  have hcmd : Spells 1 (.text "delete") _ := ⟨_, spellsChars_plain (by decide), rfl⟩
  have hforty : Spells 1 (whole fortieth) ['4', '0'] := ⟨by decide, by decide, by decide⟩
  have htext : TextOf (.list ([] ++ .object [("cmd", _), ("id", _)] :: [])) deletionText :=
    textOf_single 2 ⟨_, .some (.more (spellsMember_plain "cmd" (by decide) hcmd)
      (.one (spellsMember_plain "id" (by decide) hforty))), rfl⟩ (by decide)
  have hread : readAll deletionText = .ok [.delete fortieth] :=
    readAll_of_spelledBy ⟨_, .cons (.object (.delete _) (.refl _)) .nil, htext⟩
  have hexact := exactNumbers_of_readAll hread
  refine ⟨hread, hexact, ?_⟩
  obtain ⟨c, front, back, hc, haround, hplaces⟩ :=
    hexact.places [] [.member [("cmd", .text "delete")] "id" []] (.whole 40) [] htext
  cases hc
  obtain ⟨⟨number, ⟨-, -, rfl⟩, hsplit⟩, -⟩ := haround
  have hid : TakesExactly [.delete fortieth] 0 (.delete fortieth) [.key "id"] .u32 (.whole 40)
      front back := hplaces .u32 rfl
  obtain ⟨-, htaken, hrefused⟩ := hid
  refine ⟨front, back, hsplit, ?last, ?beyond⟩
  case last =>
    obtain ⟨t, hspells, hvalue⟩ :=
      exists_numberText_of_whole (n := lastId.val) (by decide) (by decide)
    obtain ⟨hword, hvalue⟩ := NumberText.isWord_of_value? hvalue
    obtain ⟨c, hread, htag, hheld | hover⟩ := htaken t _ hspells hword
    · cases c with
      | delete id =>
        obtain rfl : id = lastId := Word.ext ((Option.some.inj hheld).trans hvalue)
        exact hread
      | _ => cases htag
    · cases c with
      | delete id => cases hover
      | _ => cases htag
  case beyond =>
    obtain ⟨t, hspells, hvalue⟩ :=
      exists_numberText_of_whole (n := 4294967296) (by decide) (by decide)
    have hnot : ¬ t.IsWord .u32 := by
      intro hword
      have hexact := JsonNumber.whole.inj (Option.some.inj (hvalue.symm.trans hword.value?))
      have hgreatest : t.exact ≤ 4294967295 := hword.greatest
      omega
    rcases hrefused t _ hspells hnot with hfault | ⟨c, -, hover⟩
    · exact hfault
    · cases c with
      | draw program mode selection => cases selection <;> simp [PassesOver] at hover
      | _ => cases hover

end Command
end DrawStream
