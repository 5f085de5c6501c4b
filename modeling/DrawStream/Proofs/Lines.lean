import DrawStream.Proofs.Documents

/-! # Lines of a TOML text

`SpellsLines ms cs` says that `cs` are lines that give the pairs `ms`, one on a line: keys bare or
between marks, texts in quotation marks or apostrophes, truth values, with blanks where they may
stand and comments behind, and among them lines with nothing but a comment.  A reader takes such
lines one after the other, since a line is told by its first character and nothing that may follow
a part of it could belong to that part (`readLine?_of_spellsPair`).  So the lines are read as the
pairs that they spell (`read?_of_spells`), and as every text has a spelling (`exists_spellsText`),
there is no text that a file could not give. -/
namespace DrawStream.Toml

/-! ## Texts -/

/-- The ways to write a character between quotation marks. -/
inductive SpellsChar : Char → List Char → Prop
  /-- As it is, unless it is a control character, a quotation mark or a backslash. -/
  | plain {c : Char} (printing : isPrinting c) (quote : c ≠ '"') (slash : c ≠ '\\') :
      SpellsChar c [c]
  /-- By a letter, as in `\n`. -/
  | letter {c e : Char} (escape : letterEscape? e = some c) : SpellsChar c ['\\', e]
  /-- By its number, if that has four hexadecimal digits. -/
  | short {x a b c d : Char} (number : codePoint? [a, b, c, d] = some x) :
      SpellsChar x ['\\', 'u', a, b, c, d]
  /-- By its number in eight hexadecimal digits. -/
  | long {x a b c d e f g h : Char} (number : codePoint? [a, b, c, d, e, f, g, h] = some x) :
      SpellsChar x ['\\', 'U', a, b, c, d, e, f, g, h]

/-- Characters in a row, each in some way. -/
inductive SpellsChars : List Char → List Char → Prop
  | nil : SpellsChars [] []
  | cons {c : Char} {s part rest : List Char} (head : SpellsChar c part)
      (tail : SpellsChars s rest) : SpellsChars (c :: s) (part ++ rest)

/-- The ways to write a text on one line. -/
inductive SpellsText : String → List Char → Prop
  | quoted {s : String} {body : List Char} (characters : SpellsChars s.toList body) :
      SpellsText s ('"' :: (body ++ ['"']))
  | literal {s : String} (characters : ∀ c ∈ s.toList, isPrinting c ∧ c ≠ '\'') :
      SpellsText s ('\'' :: (s.toList ++ ['\'']))

theorem readQuoted?_append {c : Char} {part s left rest : List Char} (h : SpellsChar c part)
    (hleft : readQuoted? left = some (s, rest)) :
    readQuoted? (part ++ left) = some (c :: s, rest) := by
  cases h with
  | plain printing quote slash =>
    rw [List.singleton_append, readQuoted?.eq_6 c left quote (fun _ _ _ _ _ h => absurd h slash)
      (fun _ _ _ _ _ _ _ _ _ h => absurd h slash) (fun _ _ h => absurd h slash),
      if_pos ⟨slash, printing⟩, hleft]
    rfl
  | letter escape =>
    rename_i e
    have hu : e ≠ 'u' := by
      rintro rfl
      cases escape
    have hlong : e ≠ 'U' := by
      rintro rfl
      cases escape
    rw [List.cons_append, List.singleton_append, readQuoted?.eq_5 e left
      (fun _ _ _ _ _ h => absurd h hu) (fun _ _ _ _ _ _ _ _ _ h => absurd h hlong), escape, hleft]
    rfl
  | short number =>
    simp only [List.cons_append, List.nil_append]
    rw [readQuoted?, number, hleft]
    rfl
  | long number =>
    simp only [List.cons_append, List.nil_append]
    rw [readQuoted?, number, hleft]
    rfl

theorem readQuoted?_of_spells {s body : List Char} (h : SpellsChars s body) (rest : List Char) :
    readQuoted? (body ++ '"' :: rest) = some (s, rest) := by
  induction h with
  | nil => rw [List.nil_append, readQuoted?]
  | cons head tail ih =>
    rw [List.append_assoc]
    exact readQuoted?_append head ih

theorem readLiteral?_of_printing {s : List Char} (h : ∀ c ∈ s, isPrinting c ∧ c ≠ '\'')
    (rest : List Char) : readLiteral? (s ++ '\'' :: rest) = some (s, rest) := by
  induction s with
  | nil => rw [List.nil_append, readLiteral?]
  | cons c s ih =>
    obtain ⟨hprinting, hmark⟩ := h c List.mem_cons_self
    rw [List.cons_append, readLiteral?.eq_3 c _ (fun h => hmark h), if_pos hprinting,
      ih fun d hd => h d (List.mem_cons_of_mem _ hd)]
    rfl

/-- The first character of a text is neither of the marks around texts. -/
def StartsPlain (cs : List Char) : Prop := ∀ rest, cs ≠ '"' :: rest ∧ cs ≠ '\'' :: rest

theorem append_ne_quote {c : Char} {part : List Char} (h : SpellsChar c part)
    (rest left : List Char) : part ++ rest ≠ '"' :: left := by
  cases h with
  | plain _ quote => exact fun h => quote (List.head_eq_of_cons_eq h)
  | letter | short | long => exact fun h => absurd (List.head_eq_of_cons_eq h) (by decide)

/-- A text on one line is read, unless a mark follows that makes three. -/
theorem readText?_of_spells {s : String} {cs rest : List Char} (h : SpellsText s cs)
    (hrest : StartsPlain rest) : readText? (cs ++ rest) = some (s.toList, rest) := by
  cases h with
  | @quoted body characters =>
    have hbody : body ++ ['"'] ++ rest = body ++ '"' :: rest := by
      rw [List.append_assoc, List.singleton_append]
    rw [List.cons_append, hbody, readText?.eq_2, readQuoted?_of_spells characters]
    intro left hleft
    generalize s.toList = characters' at characters
    cases characters with
    | nil => exact (hrest left).1 (List.tail_eq_of_cons_eq hleft)
    | cons head tail =>
      rw [List.append_assoc] at hleft
      exact append_ne_quote head _ _ hleft
  | literal characters =>
    have hbody : s.toList ++ ['\''] ++ rest = s.toList ++ '\'' :: rest := by
      rw [List.append_assoc, List.singleton_append]
    rw [List.cons_append, hbody, readText?.eq_4, readLiteral?_of_printing characters]
    intro left hleft
    cases hs : s.toList with
    | nil =>
      rw [hs] at hleft
      exact (hrest left).2 (List.tail_eq_of_cons_eq hleft)
    | cons c cs =>
      rw [hs] at hleft characters
      exact (characters c List.mem_cons_self).2 (List.head_eq_of_cons_eq hleft)

/-- Every text has a spelling. -/
theorem exists_spellsChar (c : Char) : ∃ part, SpellsChar c part := by
  by_cases hprinting : isPrinting c
  · by_cases hquote : c = '"'
    · exact ⟨['\\', '"'], .letter (by rw [hquote]; rfl)⟩
    · by_cases hslash : c = '\\'
      · exact ⟨['\\', '\\'], .letter (by rw [hslash]; rfl)⟩
      · exact ⟨[c], .plain hprinting hquote hslash⟩
  · have hcontrol : c.toNat < 0x80 := by
      simp only [isPrinting, Bool.or_eq_true, Bool.and_eq_true, decide_eq_true_eq, bne_iff_ne,
        not_or, not_and_or] at hprinting
      omega
    have hhex : ∀ n < 0x80,
        codePoint? ['0', '0', Nat.digitChar (n / 16), Nat.digitChar (n % 16)] =
          some (Char.ofNat n) := by
      decide
    exact ⟨_, .short ((hhex c.toNat hcontrol).trans (by rw [Char.ofNat_toNat]))⟩

theorem exists_spellsText (s : String) : ∃ cs, SpellsText s cs := by
  suffices hbody : ∀ cs : List Char, ∃ body, SpellsChars cs body by
    obtain ⟨body, hbody⟩ := hbody s.toList
    exact ⟨_, .quoted hbody⟩
  intro cs
  induction cs with
  | nil => exact ⟨[], .nil⟩
  | cons c cs ih =>
    obtain ⟨part, hpart⟩ := exists_spellsChar c
    obtain ⟨body, hbody⟩ := ih
    exact ⟨part ++ body, .cons hpart hbody⟩

/-! ## Values and keys -/

/-- The ways to write a text or a truth value on one line. -/
inductive SpellsValue : Toml → List Char → Prop
  | text {s : String} {cs : List Char} (h : SpellsText s cs) : SpellsValue (.text s) cs
  | yes : SpellsValue (.flag true) ['t', 'r', 'u', 'e']
  | no : SpellsValue (.flag false) ['f', 'a', 'l', 's', 'e']

theorem readValue_of_spells {v : Toml} {cs rest : List Char} (depth : Nat) (h : SpellsValue v cs)
    (hrest : StartsPlain rest) : readValue depth (cs ++ rest) = some (v, rest) := by
  cases h with
  | yes | no => simp only [List.cons_append, List.nil_append, readValue]
  | @text s cs h =>
    have hread := readText?_of_spells h hrest
    have hvalue : readValue depth (cs ++ rest) =
        (readText? (cs ++ rest)).bind fun r => some (.text (String.ofList r.1), r.2) := by
      cases h with
      | quoted => rw [List.cons_append, readValue]; rfl
      | literal => rw [List.cons_append, readValue]; rfl
    rw [hvalue, hread]
    exact congrArg some (Prod.ext (congrArg Toml.text String.ofList_toList) rfl)

/-- The ways to write a key of one part. -/
inductive SpellsKey : String → List Char → Prop
  | bare {cs : List Char} (filled : cs ≠ []) (characters : ∀ c ∈ cs, isBare c) :
      SpellsKey (String.ofList cs) cs
  | marked {s : String} {cs : List Char} (h : SpellsText s cs) : SpellsKey s cs

theorem ne_of_isBare {c d : Char} (h : isBare c) (hd : isBare d = false) : c ≠ d := by
  rintro rfl
  rw [h] at hd
  cases hd

theorem readPart?_of_spells {name : String} {cs rest : List Char} (h : SpellsKey name cs)
    (hrest : ∀ c left, rest = c :: left → isBare c = false) :
    readPart? (cs ++ rest) = some (name, rest) := by
  cases h with
  | @bare cs filled characters =>
    obtain ⟨c, cs, rfl⟩ := List.exists_cons_of_ne_nil filled
    have hc := characters c List.mem_cons_self
    have hempty : rest.takeWhile isBare = [] ∧ rest.dropWhile isBare = rest := by
      cases rest with
      | nil => exact ⟨rfl, rfl⟩
      | cons d left =>
        have hd := hrest d left rfl
        exact ⟨List.takeWhile_cons_of_neg (by simp [hd]), List.dropWhile_cons_of_neg (by simp [hd])⟩
    rw [readPart?.eq_3, List.takeWhile_append_of_pos characters,
      List.dropWhile_append_of_pos characters, hempty.1, hempty.2, List.append_nil]
    · rfl
    · exact fun left h => ne_of_isBare hc rfl (List.head_eq_of_cons_eq h)
    · exact fun left h => ne_of_isBare hc rfl (List.head_eq_of_cons_eq h)
  | marked h =>
    cases h with
    | quoted characters =>
      rw [List.cons_append, List.append_assoc, List.singleton_append, readPart?,
        readQuoted?_of_spells characters]
      exact congrArg some (Prod.ext String.ofList_toList rfl)
    | literal characters =>
      rw [List.cons_append, List.append_assoc, List.singleton_append, readPart?,
        readLiteral?_of_printing characters]
      exact congrArg some (Prod.ext String.ofList_toList rfl)

/-! ## Lines -/

/-- Blanks inside a line. -/
def Blank (cs : List Char) : Prop := ∀ c ∈ cs, isBlank c

/-- The first character of a text is not a blank. -/
def StartsFilled (cs : List Char) : Prop := ∀ c rest, cs = c :: rest → isBlank c = false

theorem startsFilled_cons {c : Char} (h : isBlank c = false) (rest : List Char) :
    StartsFilled (c :: rest) := by
  intro d left heq
  rwa [← List.head_eq_of_cons_eq heq]

theorem skipBlank_append {blank cs : List Char} (hblank : Blank blank) (hcs : StartsFilled cs) :
    skipBlank (blank ++ cs) = cs := by
  rw [skipBlank, List.dropWhile_append_of_pos hblank]
  cases cs with
  | nil => rfl
  | cons c rest => exact List.dropWhile_cons_of_neg (by simp [hcs c rest rfl])

/-- Behind blanks a text begins with no character that it does not begin with itself. -/
theorem append_ne_cons {blank cs : List Char} {d : Char} (hblank : Blank blank)
    (hd : isBlank d = false) (hcs : ∀ rest, cs ≠ d :: rest) (rest : List Char) :
    blank ++ cs ≠ d :: rest := by
  cases blank with
  | nil => exact hcs rest
  | cons b blank =>
    intro h
    have hb := hblank b List.mem_cons_self
    rw [List.head_eq_of_cons_eq h, hd] at hb
    cases hb

/-- What may stand behind the value on a line: blanks, a comment, and the line end. -/
inductive SpellsEnd : List Char → Prop
  | plain {blank ending : List Char} (hblank : Blank blank)
      (hending : ending = ['\n'] ∨ ending = ['\r', '\n']) : SpellsEnd (blank ++ ending)
  | comment {blank words ending : List Char} (hblank : Blank blank)
      (hwords : ∀ c ∈ words, isPrinting c)
      (hending : ending = ['\n'] ∨ ending = ['\r', '\n']) :
      SpellsEnd (blank ++ '#' :: (words ++ ending))

theorem finishLine?_of_spells {cs : List Char} (h : SpellsEnd cs) (rest : List Char) :
    finishLine? (cs ++ rest) = some rest := by
  cases h with
  | plain hblank hending =>
    rw [List.append_assoc, finishLine?, skipBlank_append hblank]
    · rcases hending with rfl | rfl <;> rfl
    · rcases hending with rfl | rfl <;> exact startsFilled_cons rfl _
  | @comment blank words ending hblank hwords hending =>
    rw [List.append_assoc, List.cons_append, List.append_assoc, finishLine?,
      skipBlank_append hblank (startsFilled_cons rfl _), skipComment,
      List.dropWhile_append_of_pos hwords]
    rcases hending with rfl | rfl <;> rfl

/-- A key and a value on a line of their own. -/
inductive SpellsPair : String → Toml → List Char → Prop
  | mk {name : String} {v : Toml} {front key behindKey behindMark value ending : List Char}
      (hfront : Blank front) (hkey : SpellsKey name key) (hbehindKey : Blank behindKey)
      (hbehindMark : Blank behindMark) (hvalue : SpellsValue v value) (hending : SpellsEnd ending) :
      SpellsPair name v
        (front ++ (key ++ (behindKey ++ '=' :: (behindMark ++ (value ++ ending)))))

/-- Lines of a text, some with a pair and some with nothing but a comment. -/
inductive SpellsLines : Members → List Char → Prop
  | nil : SpellsLines [] []
  | empty {ms : Members} {line rest : List Char} (h : SpellsEnd line)
      (hrest : SpellsLines ms rest) : SpellsLines ms (line ++ rest)
  | pair {name : String} {v : Toml} {ms : Members} {line rest : List Char}
      (h : SpellsPair name v line) (hrest : SpellsLines ms rest) :
      SpellsLines ((name, v) :: ms) (line ++ rest)

/-- A key begins with a character of its own. -/
theorem exists_key_eq {name : String} {cs : List Char} (h : SpellsKey name cs) :
    ∃ c rest, cs = c :: rest ∧ (isBare c ∨ c = '"' ∨ c = '\'') := by
  cases h with
  | bare filled characters =>
    obtain ⟨c, rest, rfl⟩ := List.exists_cons_of_ne_nil filled
    exact ⟨c, rest, rfl, .inl (characters c List.mem_cons_self)⟩
  | marked h =>
    cases h with
    | quoted => exact ⟨_, _, rfl, .inr (.inl rfl)⟩
    | literal => exact ⟨_, _, rfl, .inr (.inr rfl)⟩

/-- What begins a key is neither a bare character nor a mark if the readers of keys take it for
something else. -/
theorem ne_of_startsKey {c d : Char} (h : isBare c ∨ c = '"' ∨ c = '\'') (hbare : isBare d = false)
    (hquote : d ≠ '"') (hmark : d ≠ '\'') : c ≠ d := by
  rintro rfl
  rcases h with h | h | h
  · exact ne_of_isBare h hbare rfl
  · exact hquote h
  · exact hmark h

theorem startsFilled_of_key {name : String} {key : List Char} (h : SpellsKey name key)
    (rest : List Char) : StartsFilled (key ++ rest) := by
  obtain ⟨c, left, rfl, hc⟩ := exists_key_eq h
  refine startsFilled_cons ?_ (left ++ rest)
  rw [isBlank, Bool.or_eq_false_iff]
  exact ⟨decide_eq_false (ne_of_startsKey hc rfl (by decide) (by decide)),
    decide_eq_false (ne_of_startsKey hc rfl (by decide) (by decide))⟩

theorem isBare_eq_false_of_isBlank {c : Char} (h : isBlank c) : isBare c = false := by
  rcases Bool.or_eq_true_iff.mp h with h | h <;> rw [of_decide_eq_true h] <;> rfl

theorem readKey?_of_spells {name : String} {key blank rest : List Char} (h : SpellsKey name key)
    (hblank : Blank blank) :
    readKey? (key ++ (blank ++ '=' :: rest)) = some (⟨[], name⟩, '=' :: rest) := by
  have hnone : Blank [] := fun _ h => absurd h List.not_mem_nil
  have hfront : skipBlank (key ++ (blank ++ '=' :: rest)) = key ++ (blank ++ '=' :: rest) :=
    skipBlank_append hnone (startsFilled_of_key h _)
  have hbehind : skipBlank (blank ++ '=' :: rest) = '=' :: rest :=
    skipBlank_append hblank (startsFilled_cons rfl rest)
  have hpart : readPart? (key ++ (blank ++ '=' :: rest)) = some (name, blank ++ '=' :: rest) := by
    refine readPart?_of_spells h ?_
    intro c left hleft
    cases blank with
    | nil => exact (List.head_eq_of_cons_eq hleft) ▸ rfl
    | cons b blank =>
      rw [← List.head_eq_of_cons_eq hleft]
      exact isBare_eq_false_of_isBlank (hblank b List.mem_cons_self)
  have hparts : readParts? maxParts (key ++ (blank ++ '=' :: rest)) =
      some ([name], '=' :: rest) := by
    rw [maxParts, readParts?, hfront, hpart, Option.bind_eq_bind, Option.bind_some]
    dsimp only
    rw [hbehind]
    rfl
  rw [readKey?, hparts]
  rfl

theorem startsFilled_of_value {v : Toml} {cs : List Char} (h : SpellsValue v cs)
    (rest : List Char) : StartsFilled (cs ++ rest) := by
  cases h with
  | yes | no => exact startsFilled_cons rfl _
  | text h =>
    cases h with
    | quoted | literal => exact startsFilled_cons rfl _

/-- The end of a line begins with a blank, a comment or the line end. -/
theorem append_ne_of_end {cs : List Char} {d : Char} (h : SpellsEnd cs) (hblank : isBlank d = false)
    (hcomment : d ≠ '#') (hfeed : d ≠ '\n') (hreturn : d ≠ '\r') (rest left : List Char) :
    cs ++ rest ≠ d :: left := by
  cases h with
  | plain hfront hending =>
    rw [List.append_assoc]
    refine append_ne_cons hfront hblank (fun other h => ?_) left
    rcases hending with rfl | rfl
    · exact hfeed (List.head_eq_of_cons_eq h).symm
    · exact hreturn (List.head_eq_of_cons_eq h).symm
  | comment hfront =>
    rw [List.append_assoc]
    exact append_ne_cons hfront hblank
      (fun other h => hcomment (List.head_eq_of_cons_eq h).symm) left

theorem startsPlain_of_end {cs : List Char} (h : SpellsEnd cs) (rest : List Char) :
    StartsPlain (cs ++ rest) := by
  exact fun left => ⟨append_ne_of_end h rfl (by decide) (by decide) (by decide) rest left,
    append_ne_of_end h rfl (by decide) (by decide) (by decide) rest left⟩

/-- A line that begins otherwise holds more than a comment. -/
theorem lineEnd?_skipComment_eq_none {c : Char} (hcomment : c ≠ '#') (hfeed : c ≠ '\n')
    (hreturn : c ≠ '\r') (rest : List Char) : lineEnd? (skipComment (c :: rest)) = none := by
  rw [skipComment.eq_2 _ fun left h => hcomment (List.head_eq_of_cons_eq h)]
  exact lineEnd?.eq_4 _ (fun h => by cases h) (fun left h => hfeed (List.head_eq_of_cons_eq h))
    fun left h => hreturn (List.head_eq_of_cons_eq h)

theorem readLine?_of_spellsPair {name : String} {v : Toml} {line : List Char}
    (h : SpellsPair name v line) (rest : List Char) :
    Statement.readLine? (line ++ rest) = some (some (.pair ⟨[], name⟩ v), rest) := by
  obtain ⟨hfront, hkey, hbehindKey, hbehindMark, hvalue, hending⟩ := h
  rename_i front key behindKey behindMark value ending
  simp only [List.append_assoc, List.cons_append]
  generalize htail : behindMark ++ (value ++ (ending ++ rest)) = tail
  have hskip := skipBlank_append hfront (startsFilled_of_key hkey (behindKey ++ '=' :: tail))
  have hvalueRead : readValue maxDepth (skipBlank tail) = some (v, ending ++ rest) := by
    rw [← htail, skipBlank_append hbehindMark (startsFilled_of_value hvalue _)]
    exact readValue_of_spells maxDepth hvalue (startsPlain_of_end hending rest)
  have hpair : readPair? (readValue maxDepth) (key ++ (behindKey ++ '=' :: tail)) =
      some ((⟨[], name⟩, v), ending ++ rest) := by
    rw [readPair?, readKey?_of_spells hkey hbehindKey, Option.bind_eq_bind, Option.bind_some]
    dsimp only
    rw [mark?, if_pos rfl]
    show (readValue maxDepth (skipBlank tail)).bind _ = _
    rw [hvalueRead]
    rfl
  -- A key is neither a comment nor a line end nor a header.
  obtain ⟨c, left, hstart, hc⟩ := exists_key_eq hkey
  have hno : finishLine? (front ++ (key ++ (behindKey ++ '=' :: tail))) = none := by
    rw [finishLine?, hskip, hstart]
    exact lineEnd?_skipComment_eq_none (ne_of_startsKey hc rfl (by decide) (by decide))
      (ne_of_startsKey hc rfl (by decide) (by decide))
      (ne_of_startsKey hc rfl (by decide) (by decide)) _
  have hread : Statement.read? (key ++ (behindKey ++ '=' :: tail)) =
      some (.pair ⟨[], name⟩ v, ending ++ rest) := by
    have hbracket : c ≠ '[' := ne_of_startsKey hc rfl (by decide) (by decide)
    rw [Statement.read?.eq_3, hpair]
    · rfl
    · exact fun _ h => hbracket (List.head_eq_of_cons_eq (hstart ▸ h))
    · exact fun _ h => hbracket (List.head_eq_of_cons_eq (hstart ▸ h))
  rw [Statement.readLine?, hno, hskip, hread]
  dsimp only
  rw [Option.bind_eq_bind, Option.bind_some]
  dsimp only
  rw [finishLine?_of_spells hending]
  rfl

theorem readLine?_of_spellsEnd {line : List Char} (h : SpellsEnd line) (rest : List Char) :
    Statement.readLine? (line ++ rest) = some (none, rest) := by
  rw [Statement.readLine?, finishLine?_of_spells h]

theorem readLines?_cons {bound cs rest : List Char} {b : Char} {s : Option Statement}
    {statements : List Statement} (hcs : cs ≠ []) (hline : Statement.readLine? cs = some (s, rest))
    (hrest : Statement.readLines? bound rest = some statements) :
    Statement.readLines? (b :: bound) cs = some (s.toList ++ statements) := by
  obtain ⟨c, left, rfl⟩ := List.exists_cons_of_ne_nil hcs
  rw [Statement.readLines?, hline, Option.bind_eq_bind, Option.bind_some]
  · dsimp only
    rw [hrest]
    rfl
  · exact List.cons_ne_nil c left

theorem ne_nil_of_spellsEnd {cs : List Char} (h : SpellsEnd cs) : cs ≠ [] := by
  cases h with
  | plain _ hending => rcases hending with rfl | rfl <;> simp
  | comment => simp

theorem ne_nil_of_spellsPair {name : String} {v : Toml} {cs : List Char}
    (h : SpellsPair name v cs) : cs ≠ [] := by
  cases h
  simp

/-- Lines are read one after the other. -/
theorem readLines?_of_spells {ms : Members} {cs : List Char} (h : SpellsLines ms cs)
    {bound : List Char} (hbound : cs.length ≤ bound.length) :
    Statement.readLines? bound cs = some (ms.map fun m => .pair ⟨[], m.1⟩ m.2) := by
  have hlength {line rest : List Char} (hline : line ≠ []) {b : Char} {bound : List Char}
      (hbound : (line ++ rest).length ≤ (b :: bound).length) : rest.length ≤ bound.length := by
    have hpos := List.length_pos_of_ne_nil hline
    rw [List.length_append, List.length_cons] at hbound
    omega
  induction h generalizing bound with
  | nil => cases bound <;> rfl
  | empty hline hrest ih =>
    have hne := ne_nil_of_spellsEnd hline
    cases bound with
    | nil => simp [hne] at hbound
    | cons b bound =>
      exact readLines?_cons (List.append_ne_nil_of_left_ne_nil hne _)
        (readLine?_of_spellsEnd hline _) (ih (hlength hne hbound))
  | pair hline hrest ih =>
    have hne := ne_nil_of_spellsPair hline
    cases bound with
    | nil => simp [hne] at hbound
    | cons b bound =>
      exact readLines?_cons (List.append_ne_nil_of_left_ne_nil hne _)
        (readLine?_of_spellsPair hline _) (ih (hlength hne hbound))

theorem skipByteOrderMark_of_spells {ms : Members} {cs : List Char} (h : SpellsLines ms cs) :
    Statement.skipByteOrderMark cs = cs := by
  refine Statement.skipByteOrderMark.eq_2 cs fun left => ?_
  cases h with
  | nil => exact fun h => by cases h
  | empty hline =>
    exact append_ne_of_end hline rfl (by decide) (by decide) (by decide) _ left
  | pair hline =>
    obtain ⟨hfront, hkey⟩ := hline
    obtain ⟨c, rest, rfl, hc⟩ := exists_key_eq hkey
    rw [List.append_assoc]
    exact append_ne_cons hfront rfl
      (fun _ h => ne_of_startsKey hc rfl (by decide) (by decide) (List.head_eq_of_cons_eq h)) left

/-- **Lines are a text**: lines with pairs, in any spelling and among lines with nothing but a
comment, are read as these pairs if no key is there twice. -/
theorem read?_of_spells {ms : Members} {cs : List Char} (h : SpellsLines ms cs)
    (hkeys : (ms.map Prod.fst).Nodup) : read? (String.ofList cs) = some ms := by
  have hread : Statement.readAll? (String.ofList cs) =
      some (ms.map fun m => .pair ⟨[], m.1⟩ m.2) := by
    rw [Statement.readAll?, String.toList_ofList, skipByteOrderMark_of_spells h]
    exact readLines?_of_spells h (Nat.le_refl _)
  rw [read?, hread]
  exact Document.ofStatements?_pairs hkeys

end DrawStream.Toml
