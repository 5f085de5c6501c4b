import DrawStream.Json.Reader
import DrawStream.Proofs.Numerals
import Mathlib.Data.List.DropRight
import Mathlib.Data.List.Forall2

/-! # The texts of JSON values, and that they are read back

A value has many texts: blanks may stand around every token, a character may be escaped in
several ways, and numbers have the texts of `Numerals`.  `Spelled v cs` says that `cs` is one
of the texts of `v`.  It is defined by the depth to which a text may nest (`Spells`), since a
reader stops at a fixed depth; what that depth is does not matter to a value that nests less
(`spells_of_nests`).

A reader at some depth reads every text of that depth, and leaves what follows it
(`readsValue`).  The loop over the items of a list or an object is the same for all readers,
so it is treated once (`ReadsItems.enclosed_of_items`), for whatever a step makes of an
item. -/
namespace DrawStream.Json
open DrawStream.Text

/-! ### Characters and texts -/

/-- The ways to write a character between quotation marks. -/
inductive SpellsChar : Char → List Char → Prop
  /-- As it is, unless it is a control character, a quotation mark or a backslash. -/
  | plain {c : Char} (printable : 0x20 ≤ c.toNat) (quote : c ≠ '"') (slash : c ≠ '\\') :
      SpellsChar c [c]
  /-- By a letter, as in `\n`. -/
  | letter {c e : Char} (escape : letterEscape? e = some c) : SpellsChar c ['\\', e]
  /-- By its number, if that has four hexadecimal digits. -/
  | unit {c : Char} {ds : List Char} (length : ds.length = 4)
      (number : hexNumber? 0 ds = some c.toNat) : SpellsChar c ('\\' :: 'u' :: ds)
  /-- By its two surrogates, if its number has more digits. -/
  | pair {c : Char} {high low : List Char} (beyond : 0x10000 ≤ c.toNat)
      (highLength : high.length = 4) (lowLength : low.length = 4)
      (highNumber : hexNumber? 0 high = some (0xd800 + (c.toNat - 0x10000) / 0x400))
      (lowNumber : hexNumber? 0 low = some (0xdc00 + (c.toNat - 0x10000) % 0x400)) :
      SpellsChar c ('\\' :: 'u' :: (high ++ '\\' :: 'u' :: low))

/-- Characters in a row, each in some way. -/
inductive SpellsChars : List Char → List Char → Prop
  | nil : SpellsChars [] []
  | cons {c : Char} {s part rest : List Char} (head : SpellsChar c part)
      (tail : SpellsChars s rest) : SpellsChars (c :: s) (part ++ rest)

/-- A character that may stand as it is. -/
def isPlain (c : Char) : Bool := 0x20 ≤ c.toNat && c != '"' && c != '\\'

theorem spellsChars_plain {s : List Char} (h : s.all isPlain = true) : SpellsChars s s := by
  induction s with
  | nil => exact .nil
  | cons c s ih =>
    simp only [List.all_cons, Bool.and_eq_true] at h
    obtain ⟨hc, hs⟩ := h
    simp only [isPlain, Bool.and_eq_true, decide_eq_true_eq, bne_iff_ne] at hc
    exact .cons (.plain hc.1.1 hc.1.2 hc.2) (ih hs)

/-! ### Reading texts -/

/-- The numbers of surrogates belong to no character. -/
theorem toNat_valid (c : Char) : c.toNat < 0xd800 ∨ 0xdfff < c.toNat ∧ c.toNat < 0x110000 :=
  c.valid

theorem not_surrogate (c : Char) :
    isLowSurrogate c.toNat = false ∧ isHighSurrogate c.toNat = false := by
  have hc := toNat_valid c
  simp only [isLowSurrogate, isHighSurrogate, Bool.and_eq_false_iff, decide_eq_false_iff_not]
  omega

/-- The two surrogates of a character beyond U+FFFF. -/
theorem surrogates {c : Char} (h : 0x10000 ≤ c.toNat) {high low : Nat}
    (hhigh : high = 0xd800 + (c.toNat - 0x10000) / 0x400)
    (hlow : low = 0xdc00 + (c.toNat - 0x10000) % 0x400) :
    isLowSurrogate high = false ∧ isHighSurrogate high = true ∧ isLowSurrogate low = true ∧
      joinSurrogates high low = c := by
  have hc := toNat_valid c
  have hjoin : 0x10000 + (high - 0xd800) * 0x400 + (low - 0xdc00) = c.toNat := by omega
  refine ⟨?_, ?_, ?_, ?_⟩
  · simp only [isLowSurrogate, Bool.and_eq_false_iff, decide_eq_false_iff_not]
    omega
  · simp only [isHighSurrogate, Bool.and_eq_true, decide_eq_true_eq]
    omega
  · simp only [isLowSurrogate, Bool.and_eq_true, decide_eq_true_eq]
    omega
  · calc joinSurrogates high low = Char.ofNat c.toNat := congrArg Char.ofNat hjoin
      _ = c := Char.ofNat_toNat c

theorem readText?_unit {a b c d : Char} {n : Nat} {s left rest : List Char}
    (hn : hexNumber? 0 [a, b, c, d] = some n) (hlow : isLowSurrogate n = false)
    (hhigh : isHighSurrogate n = false) (hleft : readText? left = some (s, rest)) :
    readText? ('\\' :: 'u' :: a :: b :: c :: d :: left) = some (Char.ofNat n :: s, rest) := by
  rw [readText?.eq_3, hn]
  simp [hlow, hhigh, hleft]

theorem readText?_pair {a b c d a' b' c' d' : Char} {high low : Nat} {s left rest : List Char}
    (hn : hexNumber? 0 [a, b, c, d] = some high) (hm : hexNumber? 0 [a', b', c', d'] = some low)
    (hhigh : isLowSurrogate high = false) (hhigh' : isHighSurrogate high = true)
    (hlow : isLowSurrogate low = true) (hleft : readText? left = some (s, rest)) :
    readText? ('\\' :: 'u' :: a :: b :: c :: d :: '\\' :: 'u' :: a' :: b' :: c' :: d' :: left) =
      some (joinSurrogates high low :: s, rest) := by
  rw [readText?.eq_3, hn]
  simp [hhigh, hhigh', hm, hlow, hleft]

/-- A character is read, in whatever way it is written. -/
theorem readText?_append {c : Char} {part s left rest : List Char} (h : SpellsChar c part)
    (hleft : readText? left = some (s, rest)) : readText? (part ++ left) = some (c :: s, rest) := by
  cases h with
  | plain printable quote slash =>
    rw [List.singleton_append, readText?.eq_5 c left quote (fun _ _ _ _ _ h => absurd h slash)
      (fun _ _ h => absurd h slash), if_neg (by omega), hleft]
    rfl
  | @letter e escape =>
    have hu : e ≠ 'u' := by rintro rfl; cases escape
    rw [List.cons_append, List.singleton_append,
      readText?.eq_4 e left (fun _ _ _ _ _ h => absurd h hu), escape, hleft]
    rfl
  | unit length number =>
    obtain ⟨a, b, c', d, rfl⟩ := List.length_eq_four.1 length
    obtain ⟨hlow, hhigh⟩ := not_surrogate c
    have hread := readText?_unit number hlow hhigh hleft
    rwa [Char.ofNat_toNat] at hread
  | pair beyond highLength lowLength highNumber lowNumber =>
    obtain ⟨a, b, c', d, rfl⟩ := List.length_eq_four.1 highLength
    obtain ⟨a', b', c'', d', rfl⟩ := List.length_eq_four.1 lowLength
    obtain ⟨hhigh, hhigh', hlow, hjoin⟩ := surrogates beyond rfl rfl
    have hread := readText?_pair highNumber lowNumber hhigh hhigh' hlow hleft
    rwa [hjoin] at hread

/-- A text between quotation marks is read back, whatever follows. -/
theorem readText?_of_spells {s body : List Char} (h : SpellsChars s body) (rest : List Char) :
    readText? (body ++ '"' :: rest) = some (s, rest) := by
  induction h with
  | nil => rfl
  | cons head _ ih =>
    rw [List.append_assoc]
    exact readText?_append head ih

/-! ### Blanks -/

/-- Blanks, or nothing. -/
def Blank (cs : List Char) : Prop := ∀ c ∈ cs, isBlank c = true

/-- A text with blanks around it. -/
def Padded (P : List Char → Prop) (cs : List Char) : Prop :=
  ∃ front core back, Blank front ∧ P core ∧ Blank back ∧ cs = front ++ (core ++ back)

theorem padded_self {P : List Char → Prop} {cs : List Char} (h : P cs) : Padded P cs :=
  ⟨[], cs, [], by simp [Blank], h, by simp [Blank], by simp⟩

theorem skipBlank_append {front : List Char} (h : Blank front) (cs : List Char) :
    skipBlank (front ++ cs) = skipBlank cs :=
  List.dropWhile_append_of_pos h

theorem skipBlank_cons {c : Char} (h : isBlank c = false) (cs : List Char) :
    skipBlank (c :: cs) = c :: cs :=
  List.dropWhile_cons_of_neg (by simp [h])

theorem length_skipBlank_le (cs : List Char) : (skipBlank cs).length ≤ cs.length :=
  (List.dropWhile_suffix isBlank).length_le

@[simp] theorem skipBlank_skipBlank (cs : List Char) : skipBlank (skipBlank cs) = skipBlank cs :=
  List.dropWhile_idempotent isBlank cs

theorem skipBlank_append_of_eq_cons {cs tail : List Char} {c : Char}
    (h : skipBlank cs = c :: tail) (rest : List Char) :
    skipBlank (cs ++ rest) = c :: (tail ++ rest) := by
  unfold skipBlank at h ⊢
  rw [List.dropWhile_append, h]
  rfl

theorem isBlank_cases {c : Char} (h : isBlank c = true) :
    c = ' ' ∨ c = '\n' ∨ c = '\t' ∨ c = '\r' := by
  simpa [isBlank, or_assoc] using h

theorem isBlank_of_isDigit {c : Char} (h : c.isDigit = true) : isBlank c = false := by
  by_contra hc
  rcases isBlank_cases (by simpa using hc) with rfl | rfl | rfl | rfl <;> exact absurd h (by decide)

/-- A blank ends a number. -/
theorem Ends.of_blank {back rest : List Char} (hback : Blank back) (hrest : Ends rest) :
    Ends (back ++ rest) := by
  cases back with
  | nil => exact hrest
  | cons c back =>
    have hc := hback c List.mem_cons_self
    rintro d hd
    obtain rfl : c = d := by simpa using hd
    rcases isBlank_cases hc with rfl | rfl | rfl | rfl <;> decide

/-! ### Items -/
section
variable {α σ : Type}

/-- Items with commas between them. -/
inductive Series (P : α → List Char → Prop) : List α → List Char → Prop
  | one {a : α} {cs : List Char} (item : P a cs) : Series P [a] cs
  | more {a : α} {items : List α} {cs rest : List Char} (item : P a cs)
      (series : Series P items rest) : Series P (a :: items) (cs ++ ',' :: rest)

/-- What stands between brackets: items, or only blanks. -/
inductive Items (P : α → List Char → Prop) : List α → List Char → Prop
  | none {cs : List Char} (blank : Blank cs) : Items P [] cs
  | some {items : List α} {cs : List Char} (series : Series P items cs) : Items P items cs

/-- A step reads the texts of items: it takes `a` in as `next` says, and leaves at most
blanks of its text. -/
structure ReadsItems (close : Char) (step : σ → Reading σ) (next : σ → α → Option σ)
    (P : α → List Char → Prop) : Prop where
  bracket : close = ']' ∨ close = '}'
  opens : ∀ {a cs}, P a cs → ∃ c tail, skipBlank cs = c :: tail ∧ c ≠ close
  skip : ∀ s cs, step s (skipBlank cs) = step s cs
  reads : ∀ {s a s' cs} rest, P a cs → next s a = some s' → Ends rest →
    ∃ left, step s (cs ++ rest) = .ok (s', left) ∧ skipBlank left = skipBlank rest

namespace ReadsItems
variable {close : Char} {step : σ → Reading σ} {next : σ → α → Option σ}
  {P : α → List Char → Prop}

/-- The closing bracket is found behind blanks, and ends a number. -/
theorem close_spec (h : ReadsItems close step next P) (rest : List Char) :
    skipBlank (close :: rest) = close :: rest ∧ Ends (close :: rest) ∧ close ≠ ',' := by
  rcases h.bracket with rfl | rfl
  · refine ⟨rfl, ?_, by decide⟩
    rintro c hc
    obtain rfl : ']' = c := by simpa using hc
    decide
  · refine ⟨rfl, ?_, by decide⟩
    rintro c hc
    obtain rfl : '}' = c := by simpa using hc
    decide

theorem ends_comma (rest : List Char) : Ends (',' :: rest) := by
  rintro c hc
  obtain rfl : ',' = c := by simpa using hc
  decide

/-- A series does not begin like its end, and every item takes a character. -/
theorem opens_series (h : ReadsItems close step next P) {items : List α} {cs : List Char}
    (hcs : Series P items cs) :
    ∃ c tail, skipBlank cs = c :: tail ∧ c ≠ close ∧ items.length ≤ tail.length + 1 := by
  induction hcs with
  | one item =>
    obtain ⟨c, tail, hopen, hc⟩ := h.opens item
    exact ⟨c, tail, hopen, hc, by simp⟩
  | @more a items cs text item _ ih =>
    obtain ⟨c, tail, hopen, hc⟩ := h.opens item
    refine ⟨c, _, skipBlank_append_of_eq_cons hopen _, hc, ?_⟩
    obtain ⟨d, rest, hrest, -, hlength⟩ := ih
    have htext := length_skipBlank_le text
    rw [hrest] at htext
    simp only [List.length_cons, List.length_append] at htext ⊢
    omega

theorem moreItems_close {bound left rest : List Char} (s : σ) (hbound : 0 < bound.length)
    (hleft : skipBlank left = close :: rest) :
    moreItems close step bound s left = .ok (s, rest) := by
  obtain ⟨b, bound, rfl⟩ := List.exists_cons_of_length_pos hbound
  simp [moreItems, hleft]

/-- A series is read by a step and what `moreItems` does after it. -/
theorem step_series (h : ReadsItems close step next P) {items : List α} {cs : List Char}
    (hcs : Series P items cs) (rest : List Char) : ∀ {s s' : σ}, items.foldlM next s = some s' →
    ∃ s₁ left, step s (cs ++ close :: rest) = .ok (s₁, left) ∧
      ∀ bound : List Char, items.length ≤ bound.length →
        moreItems close step bound s₁ left = .ok (s', rest) := by
  obtain ⟨hskip, hends, hcomma⟩ := h.close_spec rest
  induction hcs with
  | one item =>
    intro s s' hrun
    obtain ⟨left, hstep, hleft⟩ := h.reads _ item (by simpa using hrun) hends
    exact ⟨s', left, hstep, fun bound hbound => moreItems_close s' hbound (hleft.trans hskip)⟩
  | @more a items cs text item _ ih =>
    intro s s' hrun
    obtain ⟨s₁, hnext, hrun⟩ := Option.bind_eq_some_iff.1 (by simpa using hrun)
    obtain ⟨left, hstep, hleft⟩ :=
      h.reads (',' :: (text ++ close :: rest)) item hnext (ends_comma _)
    obtain ⟨s₂, left₂, hstep₂, hmore⟩ := ih hrun
    refine ⟨s₁, left, by simpa using hstep, fun bound hbound => ?_⟩
    obtain ⟨b, bound, rfl⟩ := List.exists_cons_of_length_pos (l := bound) (by simp at hbound; omega)
    have hleft : skipBlank left = ',' :: (text ++ close :: rest) := hleft
    have hlast := hmore bound (by simpa using hbound)
    simp only [moreItems, hleft, hcomma.symm, if_false, if_true, hstep₂]
    exact hlast

/-- Items between brackets are read up to the closing bracket, and no further. -/
theorem enclosed_of_items (h : ReadsItems close step next P) {items : List α} {cs : List Char}
    {s s' : σ} (hcs : Items P items cs) (hrun : items.foldlM next s = some s')
    (rest : List Char) : enclosed close step s (cs ++ close :: rest) = .ok (s', rest) := by
  obtain ⟨hskip, -, -⟩ := h.close_spec rest
  cases hcs with
  | none blank =>
    obtain rfl : s = s' := by simpa using hrun
    simp only [enclosed, skipBlank_append blank, hskip, if_true]
  | some series =>
    obtain ⟨c, tail, hopen, hc, hlength⟩ := h.opens_series series
    obtain ⟨s₁, left, hstep, hmore⟩ := h.step_series series rest hrun
    have hopen := skipBlank_append_of_eq_cons hopen (close :: rest)
    rw [← h.skip, hopen] at hstep
    simp only [enclosed, hopen, hc, if_false, hstep]
    refine hmore _ ?_
    simp only [List.length_cons, List.length_append]
    omega

end ReadsItems
end

/-! ### Values -/

/-- A text between quotation marks. -/
def SpellsText (s : String) (cs : List Char) : Prop :=
  ∃ body, SpellsChars s.toList body ∧ cs = '"' :: (body ++ ['"'])

/-- A key and a value, with a colon between them. -/
def SpellsMember (P : Json → List Char → Prop) (m : String × Json) (cs : List Char) : Prop :=
  ∃ key value, Padded (SpellsText m.1) key ∧ Padded (P m.2) value ∧ cs = key ++ ':' :: value

/-- The text is one of the value's, in which lists and objects nest at most `depth` deep. -/
def Spells : (depth : Nat) → Json → List Char → Prop
  | _, .null, cs => cs = ['n', 'u', 'l', 'l']
  | _, .bool true, cs => cs = ['t', 'r', 'u', 'e']
  | _, .bool false, cs => cs = ['f', 'a', 'l', 's', 'e']
  | _, .number n, cs => SpellsNumber n cs
  | _, .text s, cs => SpellsText s cs
  | depth + 1, .list items, cs =>
    ∃ inner, Items (fun v => Padded (Spells depth v)) items inner ∧ cs = '[' :: (inner ++ [']'])
  | depth + 1, .object members, cs =>
    ∃ inner, Items (SpellsMember (Spells depth)) members inner ∧ cs = '{' :: (inner ++ ['}'])
  | 0, .list _, _ | 0, .object _, _ => False

/-- A key that needs no escapes, without blanks around it. -/
theorem spellsMember_plain {P : Json → List Char → Prop} (key : String) {v : Json}
    {cs : List Char} (hkey : key.toList.all isPlain = true) (hv : P v cs) :
    SpellsMember P (key, v) ('"' :: (key.toList ++ ['"']) ++ ':' :: cs) :=
  ⟨_, cs, padded_self ⟨_, spellsChars_plain hkey, rfl⟩, padded_self hv, rfl⟩

theorem readValue_skipBlank (depth : Nat) (cs : List Char) :
    readValue depth (skipBlank cs) = readValue depth cs := by
  rw [readValue.eq_def, readValue.eq_def depth cs]
  dsimp only
  rw [skipBlank_skipBlank]

/-- Takes a value into a list that is read. -/
def takeValue (depth : Nat) (items : List Json) : Reading (List Json) := fun cs => do
  let (v, rest) ← readValue depth cs
  return (v :: items, rest)

/-- Takes a member into an object that is read. -/
def takeMember (depth : Nat) (members : List (String × Json)) :
    Reading (List (String × Json)) := fun cs => do
  let (key, rest) ← readKey cs
  let (v, rest) ← readValue depth (← skipColon rest)
  return ((key, v) :: members, rest)

theorem readValue_list (depth : Nat) (cs : List Char) :
    readValue (depth + 1) ('[' :: cs) = do
      let (items, rest) ← enclosed ']' (takeValue depth) [] cs
      return (.list items.reverse, rest) := rfl

theorem readValue_object (depth : Nat) (cs : List Char) :
    readValue (depth + 1) ('{' :: cs) = do
      let (members, rest) ← enclosed '}' (takeMember depth) [] cs
      return (.object members.reverse, rest) := rfl

theorem readValue_text (depth : Nat) (cs : List Char) :
    readValue depth ('"' :: cs) = do
      let (s, rest) ← orMalformed (readText? cs)
      return (.text (String.ofList s), rest) := by
  cases depth <;> rfl

theorem readValue_negative (depth : Nat) (cs : List Char) :
    readValue depth ('-' :: cs) = do
      let (n, rest) ← orMalformed (readNumber? true cs)
      return (.number n, rest) := by
  cases depth <;> rfl

theorem readValue_digit (depth : Nat) {c : Char} (hc : c.isDigit = true) (cs : List Char) :
    readValue depth (c :: cs) = do
      let (n, rest) ← orMalformed (readNumber? false (c :: cs))
      return (.number n, rest) := by
  rw [readValue.eq_def]
  dsimp only
  rw [skipBlank_cons (isBlank_of_isDigit hc)]
  split
  case h_8 => rfl
  -- no other value begins with a digit
  all_goals
    next heq =>
      obtain ⟨rfl, -⟩ := List.cons.inj heq
      exact absurd hc (by decide)

/-! ### Reading values -/

/-- The text begins with neither a blank nor a closing bracket. -/
def Opens (cs : List Char) : Prop :=
  ∃ c tail, cs = c :: tail ∧ isBlank c = false ∧ c ≠ ']' ∧ c ≠ '}'

theorem Padded.opens {P : List Char → Prop} {cs : List Char} (h : Padded P cs)
    (hP : ∀ core, P core → Opens core) :
    ∃ c tail, skipBlank cs = c :: tail ∧ c ≠ ']' ∧ c ≠ '}' := by
  obtain ⟨front, core, back, hfront, hcore, -, rfl⟩ := h
  obtain ⟨c, tail, rfl, hblank, hlist, hobject⟩ := hP core hcore
  exact ⟨c, tail ++ back, (skipBlank_append hfront _).trans (skipBlank_cons hblank _), hlist,
    hobject⟩

theorem opens_of_spellsText {s : String} {cs : List Char} (h : SpellsText s cs) : Opens cs := by
  obtain ⟨body, -, rfl⟩ := h
  exact ⟨'"', _, rfl, by decide, by decide, by decide⟩

theorem opens_of_digits (negative : Bool) {body : List Char}
    (h : ∃ c ∈ body.head?, c.isDigit = true) : Opens (signText negative ++ body) := by
  obtain ⟨c, hc, hdigit⟩ := h
  cases negative with
  | true => exact ⟨'-', body, rfl, by decide, by decide, by decide⟩
  | false =>
    obtain ⟨tail, rfl⟩ := List.head?_eq_some_iff.1 hc
    refine ⟨c, tail, rfl, isBlank_of_isDigit hdigit, ?_, ?_⟩
    · rintro rfl; exact absurd hdigit (by decide)
    · rintro rfl; exact absurd hdigit (by decide)

theorem opens_of_spellsNumber {n : JsonNumber} {cs : List Char} (h : SpellsNumber n cs) :
    Opens cs := by
  obtain ⟨negative, body, rfl, hdigit, -⟩ := h.read
  exact opens_of_digits negative hdigit

theorem opens_of_spells {depth : Nat} {v : Json} {cs : List Char} (h : Spells depth v cs) :
    Opens cs := by
  cases v with
  | null =>
    obtain rfl : cs = _ := by simpa [Spells] using h
    exact ⟨'n', _, rfl, by decide, by decide, by decide⟩
  | bool b =>
    cases b with
    | true =>
      obtain rfl : cs = _ := by simpa [Spells] using h
      exact ⟨'t', _, rfl, by decide, by decide, by decide⟩
    | false =>
      obtain rfl : cs = _ := by simpa [Spells] using h
      exact ⟨'f', _, rfl, by decide, by decide, by decide⟩
  | number n => exact opens_of_spellsNumber (by simpa [Spells] using h)
  | text s => exact opens_of_spellsText (by simpa [Spells] using h)
  | list items =>
    cases depth with
    | zero => simp [Spells] at h
    | succ depth =>
      obtain ⟨inner, -, rfl⟩ := by simpa only [Spells] using h
      exact ⟨'[', _, rfl, by decide, by decide, by decide⟩
  | object members =>
    cases depth with
    | zero => simp [Spells] at h
    | succ depth =>
      obtain ⟨inner, -, rfl⟩ := by simpa only [Spells] using h
      exact ⟨'{', _, rfl, by decide, by decide, by decide⟩

/-- The texts of `v` are read, with nothing in front. -/
def ReadsValue (depth : Nat) (v : Json) : Prop :=
  ∀ cs rest, Spells depth v cs → Ends rest → readValue depth (cs ++ rest) = .ok (v, rest)

theorem ReadsValue.padded {depth : Nat} {v : Json} (h : ReadsValue depth v) {cs rest : List Char}
    (hcs : Padded (Spells depth v) cs) (hrest : Ends rest) :
    ∃ left, readValue depth (cs ++ rest) = .ok (v, left) ∧ skipBlank left = skipBlank rest := by
  obtain ⟨front, core, back, hfront, hcore, hback, rfl⟩ := hcs
  refine ⟨back ++ rest, ?_, skipBlank_append hback rest⟩
  rw [List.append_assoc, ← readValue_skipBlank, skipBlank_append hfront, readValue_skipBlank,
    List.append_assoc]
  exact h core _ hcore (.of_blank hback hrest)

/-- A key is read, and the colon behind it. -/
theorem readKey_of_spells {key : String} {name : List Char} (h : Padded (SpellsText key) name)
    (cs : List Char) : ∃ left, readKey (name ++ ':' :: cs) = .ok (key, left) ∧
      skipColon left = .ok cs := by
  obtain ⟨front, _, back, hfront, ⟨body, hbody, rfl⟩, hback, rfl⟩ := h
  refine ⟨back ++ ':' :: cs, ?_, ?_⟩
  · have hread := readText?_of_spells hbody (back ++ ':' :: cs)
    simp only [readKey, List.append_assoc, List.cons_append, List.nil_append,
      skipBlank_append hfront, skipBlank_cons (show isBlank '"' = false from rfl), hread]
    simp [orMalformed, String.ofList_toList]
  · simp only [skipColon, skipBlank_append hback,
      skipBlank_cons (show isBlank ':' = false from rfl)]

theorem readKey_of_member {P : Json → List Char → Prop} {m : String × Json} {cs : List Char}
    (h : SpellsMember P m cs) (rest : List Char) : ∃ left value, Padded (P m.2) value ∧
      readKey (cs ++ rest) = .ok (m.1, left) ∧ skipColon left = .ok (value ++ rest) := by
  obtain ⟨name, value, hname, hvalue, rfl⟩ := h
  obtain ⟨left, hkey, hcolon⟩ := readKey_of_spells hname (value ++ rest)
  rw [List.append_assoc, List.cons_append]
  exact ⟨left, value, hvalue, hkey, hcolon⟩

theorem foldlM_cons {α : Type} (items acc : List α) :
    items.foldlM (fun acc a => some (a :: acc)) acc = some (items.reverse ++ acc) := by
  induction items generalizing acc with
  | nil => rfl
  | cons a items ih => simp [ih]

theorem readsItems_values {depth : Nat} (h : ∀ v, ReadsValue depth v) :
    ReadsItems ']' (takeValue depth) (fun items v => some (v :: items))
      (fun v => Padded (Spells depth v)) where
  bracket := .inl rfl
  opens hcs := by
    obtain ⟨c, tail, hopen, hc, -⟩ := hcs.opens fun _ => opens_of_spells
    exact ⟨c, tail, hopen, hc⟩
  skip items cs := by simp only [takeValue, readValue_skipBlank]
  reads {items v _ cs} rest hcs hnext hrest := by
    obtain rfl := Option.some.inj hnext
    obtain ⟨left, hread, hleft⟩ := (h v).padded hcs hrest
    exact ⟨left, by simp [takeValue, hread], hleft⟩

theorem readKey_skipBlank (cs : List Char) : readKey (skipBlank cs) = readKey cs := by
  simp only [readKey, skipBlank_skipBlank]

theorem SpellsMember.opens {P : Json → List Char → Prop} {m : String × Json} {cs : List Char}
    (h : SpellsMember P m cs) : ∃ c tail, skipBlank cs = c :: tail ∧ c ≠ '}' := by
  obtain ⟨key, value, hkey, -, rfl⟩ := h
  obtain ⟨c, tail, hopen, -, hc⟩ := hkey.opens fun _ => opens_of_spellsText
  exact ⟨c, _, skipBlank_append_of_eq_cons hopen _, hc⟩

theorem readsItems_members {depth : Nat} (h : ∀ v, ReadsValue depth v) :
    ReadsItems '}' (takeMember depth) (fun members m => some (m :: members))
      (SpellsMember (Spells depth)) where
  bracket := .inr rfl
  opens hcs := hcs.opens
  skip members cs := by simp only [takeMember, readKey_skipBlank]
  reads {members m _ cs} rest hcs hnext hrest := by
    obtain rfl := Option.some.inj hnext
    obtain ⟨left, value, hvalue, hkey, hcolon⟩ := readKey_of_member hcs rest
    obtain ⟨left', hread, hleft⟩ := (h m.2).padded hvalue hrest
    exact ⟨left', by simp [takeMember, hkey, hcolon, hread], hleft⟩

/-- A text of a number is read, with whatever sign. -/
theorem readsValue_number (depth : Nat) (n : JsonNumber) : ReadsValue depth (.number n) := by
  intro cs rest h hrest
  obtain ⟨negative, body, rfl, ⟨c, hc, hdigit⟩, hread⟩ :=
    SpellsNumber.read (by simpa [Spells] using h)
  have hread := hread rest hrest
  cases negative with
  | true =>
    calc readValue depth ('-' :: (body ++ rest)) = _ := readValue_negative depth _
      _ = .ok (.number n, rest) := by rw [hread]; rfl
  | false =>
    obtain ⟨tail, rfl⟩ := List.head?_eq_some_iff.1 hc
    calc readValue depth (c :: (tail ++ rest)) = _ := readValue_digit depth hdigit _
      _ = .ok (.number n, rest) := by rw [← List.cons_append, hread]; rfl

theorem readsValue_text (depth : Nat) (s : String) : ReadsValue depth (.text s) := by
  intro cs rest h _
  obtain ⟨body, hbody, rfl⟩ := by simpa only [Spells, SpellsText] using h
  have hread := readText?_of_spells hbody rest
  simp [readValue_text, hread, orMalformed]

/-- Every text of a value is read back, whatever follows.  The recursion is on the depth. -/
theorem readsValue : ∀ (depth : Nat) (v : Json), ReadsValue depth v
  | depth, .number n => readsValue_number depth n
  | depth, .text s => readsValue_text depth s
  | depth, .null => fun _ _ h _ => by
    obtain rfl := by simpa only [Spells] using h
    cases depth <;> rfl
  | depth, .bool true | depth, .bool false => fun _ _ h _ => by
    obtain rfl := by simpa only [Spells] using h
    cases depth <;> rfl
  | 0, .list _ | 0, .object _ => fun _ _ h _ => by simp [Spells] at h
  | depth + 1, .list items => fun _ rest h _ => by
    obtain ⟨inner, hinner, rfl⟩ := by simpa only [Spells] using h
    have hread := (readsItems_values (readsValue depth)).enclosed_of_items hinner
      (foldlM_cons items []) rest
    simp [readValue_list, hread]
  | depth + 1, .object members => fun _ rest h _ => by
    obtain ⟨inner, hinner, rfl⟩ := by simpa only [Spells] using h
    have hread := (readsItems_members (readsValue depth)).enclosed_of_items hinner
      (foldlM_cons members []) rest
    simp [readValue_object, hread]

/-! ### Depth -/

/-- Lists and objects nest at most `depth` deep in the value. -/
def Nests : (depth : Nat) → Json → Prop
  | depth + 1, .list items => ∀ v ∈ items, Nests depth v
  | depth + 1, .object members => ∀ m ∈ members, Nests depth m.2
  | 0, .list _ | 0, .object _ => False
  | _, .null | _, .bool _ | _, .number _ | _, .text _ => True

/-- The text is one of the value's. -/
def Spelled (v : Json) (cs : List Char) : Prop := ∃ depth, Spells depth v cs

theorem Series.imp {α : Type} {P Q : α → List Char → Prop} {items : List α} {cs : List Char}
    (h : Series P items cs) (hPQ : ∀ a ∈ items, ∀ cs, P a cs → Q a cs) : Series Q items cs := by
  induction h with
  | one item => exact .one (hPQ _ List.mem_cons_self _ item)
  | more item _ ih =>
    exact .more (hPQ _ List.mem_cons_self _ item) (ih fun a ha => hPQ a (List.mem_cons_of_mem _ ha))

theorem Items.imp {α : Type} {P Q : α → List Char → Prop} {items : List α} {cs : List Char}
    (h : Items P items cs) (hPQ : ∀ a ∈ items, ∀ cs, P a cs → Q a cs) : Items Q items cs := by
  cases h with
  | none blank => exact .none blank
  | some series => exact .some (series.imp hPQ)

theorem Padded.imp {P Q : List Char → Prop} {cs : List Char} (h : Padded P cs)
    (hPQ : ∀ cs, P cs → Q cs) : Padded Q cs := by
  obtain ⟨front, core, back, hfront, hcore, hback, rfl⟩ := h
  exact ⟨front, core, back, hfront, hPQ core hcore, hback, rfl⟩

/-- Items that stand for others are read as those. -/
theorem Items.of_forall₂ {α β : Type} {R : α → β → Prop} {P : β → List Char → Prop}
    {as : List α} {bs : List β} {cs : List Char} (h : Items P bs cs)
    (hR : List.Forall₂ R as bs) : Items (fun a cs => ∃ b, R a b ∧ P b cs) as cs := by
  cases h with
  | none blank =>
    cases hR
    exact .none blank
  | some series =>
    refine .some ?_
    induction series generalizing as with
    | one item =>
      obtain ⟨a, _, ha, hnil, rfl⟩ := List.forall₂_cons_right_iff.1 hR
      cases hnil
      exact .one ⟨_, ha, item⟩
    | more item _ ih =>
      obtain ⟨a, as, ha, has, rfl⟩ := List.forall₂_cons_right_iff.1 hR
      exact .more ⟨_, ha, item⟩ (ih has)

/-- How deep a text may go does not matter to a value that does not go deeper. -/
theorem spells_of_nests : ∀ (depth limit : Nat) (v : Json) {cs : List Char},
    Spells depth v cs → Nests limit v → Spells limit v cs
  | _, _, .null, _, h, _ | _, _, .number _, _, h, _ | _, _, .text _, _, h, _
  | _, _, .bool true, _, h, _ | _, _, .bool false, _, h, _ => by simpa only [Spells] using h
  | 0, _, .list _, _, h, _ | 0, _, .object _, _, h, _ => by simp [Spells] at h
  | _, 0, .list _, _, _, hv | _, 0, .object _, _, _, hv => by simp [Nests] at hv
  | depth + 1, limit + 1, .list items, _, h, hv => by
    simp only [Spells, Nests] at h hv ⊢
    obtain ⟨inner, hinner, rfl⟩ := h
    exact ⟨inner, hinner.imp fun v hmem _ hp =>
      hp.imp fun _ hs => spells_of_nests depth limit v hs (hv v hmem), rfl⟩
  | depth + 1, limit + 1, .object members, _, h, hv => by
    simp only [Spells, Nests] at h hv ⊢
    obtain ⟨inner, hinner, rfl⟩ := h
    refine ⟨inner, hinner.imp fun m hmem _ hp => ?_, rfl⟩
    obtain ⟨key, value, hkey, hvalue, rfl⟩ := hp
    exact ⟨key, value, hkey,
      hvalue.imp fun _ hs => spells_of_nests depth limit m.2 hs (hv m hmem), rfl⟩

end DrawStream.Json
