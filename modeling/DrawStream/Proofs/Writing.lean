import DrawStream.Proofs.CommandText
import DrawStream.Proofs.SingleText

/-! # Every command has a text

`HasText depth v` says that the value can be written.  Texts, whole numbers of every range
and choices always can, and lists and objects if what they hold can be written.  So what is
written of a command (`Command.encode`) has a text whenever its 32-bit numbers have one
(`hasText_encode`), and these have one if they are finite (`Single.exists_text`). -/
namespace DrawStream

namespace Json
open DrawStream.Text

/-! ### Writing values -/

/-- The value has a text in which lists and objects nest at most `depth` deep. -/
def HasText (depth : Nat) (v : Json) : Prop := ∃ cs, Spells depth v cs

theorem exists_spellsChar (c : Char) : ∃ part, SpellsChar c part := by
  by_cases hcontrol : c.toNat < 0x20
  · have hhex : ∀ n < 0x20,
        hexNumber? 0 ['0', '0', Nat.digitChar (n / 16), Nat.digitChar (n % 16)] = some n := by
      decide
    exact ⟨_, .unit rfl (hhex c.toNat hcontrol)⟩
  · by_cases hquote : c = '"'
    · exact ⟨['\\', '"'], .letter (by rw [hquote]; rfl)⟩
    · by_cases hslash : c = '\\'
      · exact ⟨['\\', '\\'], .letter (by rw [hslash]; rfl)⟩
      · exact ⟨[c], .plain (not_lt.1 hcontrol) hquote hslash⟩

theorem exists_spellsChars (s : List Char) : ∃ body, SpellsChars s body := by
  induction s with
  | nil => exact ⟨[], .nil⟩
  | cons c s ih =>
    obtain ⟨part, hpart⟩ := exists_spellsChar c
    obtain ⟨body, hbody⟩ := ih
    exact ⟨part ++ body, .cons hpart hbody⟩

theorem exists_spellsText (s : String) : ∃ cs, SpellsText s cs := by
  obtain ⟨body, hbody⟩ := exists_spellsChars s.toList
  exact ⟨_, body, hbody, rfl⟩

/-- Items that can be written can be written in a row. -/
theorem exists_items {α : Type} {P : α → List Char → Prop} {items : List α}
    (h : ∀ a ∈ items, ∃ cs, P a cs) : ∃ cs, Items P items cs := by
  cases items with
  | nil => exact ⟨[], .none (by simp [Blank])⟩
  | cons a items =>
    suffices hseries : ∃ cs, Series P (a :: items) cs by
      obtain ⟨cs, hcs⟩ := hseries
      exact ⟨cs, .some hcs⟩
    induction items generalizing a with
    | nil =>
      obtain ⟨cs, hcs⟩ := h a List.mem_cons_self
      exact ⟨cs, .one hcs⟩
    | cons b items ih =>
      obtain ⟨cs, hcs⟩ := h a List.mem_cons_self
      obtain ⟨rest, hrest⟩ := ih b fun c hc => h c (List.mem_cons_of_mem _ hc)
      exact ⟨_, .more hcs hrest⟩

@[simp] theorem hasText_null (depth : Nat) : HasText depth .null :=
  ⟨['n', 'u', 'l', 'l'], by simp only [Spells]⟩

@[simp] theorem hasText_text (depth : Nat) (s : String) : HasText depth (.text s) := by
  obtain ⟨cs, hcs⟩ := exists_spellsText s
  exact ⟨cs, by simpa only [Spells] using hcs⟩

theorem hasText_number (depth : Nat) {n : JsonNumber} {cs : List Char} (h : SpellsNumber n cs) :
    HasText depth (.number n) :=
  ⟨cs, by simpa only [Spells] using h⟩

@[simp] theorem hasText_list {depth : Nat} {items : List Json} (h : ∀ v ∈ items, HasText depth v) :
    HasText (depth + 1) (.list items) := by
  obtain ⟨inner, hinner⟩ := exists_items fun v hv => (h v hv).imp fun _ => padded_self
  exact ⟨_, by simpa only [Spells] using ⟨inner, hinner, rfl⟩⟩

@[simp] theorem hasText_object {depth : Nat} {members : List (String × Json)}
    (h : ∀ m ∈ members, HasText depth m.2) : HasText (depth + 1) (.object members) := by
  have hmembers : ∀ m ∈ members, ∃ cs, SpellsMember (Spells depth) m cs := by
    intro m hm
    obtain ⟨key, hkey⟩ := exists_spellsText m.1
    obtain ⟨value, hvalue⟩ := h m hm
    exact ⟨_, key, value, padded_self hkey, padded_self hvalue, rfl⟩
  obtain ⟨inner, hinner⟩ := exists_items hmembers
  exact ⟨_, by simpa only [Spells] using ⟨inner, hinner, rfl⟩⟩

end Json

open Json

/-! ### Writing parts of commands -/

namespace Command
variable (number : Single → Json) (depth : Nat)

@[simp] theorem hasText_ofWord {k : WordKind} (w : Word k) :
    HasText depth (Codec.encode number w) := by
  have hrange : leastWhole ≤ k.least ∧ k.greatest ≤ greatestLead := by cases k <;> decide
  exact hasText_number depth ⟨hrange.1.trans w.least_le, w.le_greatest.trans hrange.2, rfl⟩

@[simp] theorem hasText_ofChoice {α : Type} [Choice α] (a : α) :
    HasText depth (Codec.encode number a) :=
  hasText_text depth (Choice.word a)

@[simp] theorem hasText_ofString (s : String) : HasText depth (Codec.encode number s) :=
  hasText_text depth s

variable {number depth}

theorem hasText_ofList {α : Type} [Codec α] {xs : List α}
    (h : ∀ a ∈ xs, HasText depth (Codec.encode number a)) :
    HasText (depth + 1) (Codec.encode number xs) :=
  hasText_list (by simpa using h)

theorem hasText_ofPair {α : Type} [Codec α] (h : ∀ a : α, HasText depth (Codec.encode number a))
    (p : α × α) : HasText (depth + 1) (Codec.encode number p) :=
  hasText_list (by simp [h])

variable (number depth)

@[simp] theorem hasText_storage (storage : Storage) :
    HasText (depth + 2) (Codec.encode number storage) := by
  cases storage with
  | bytes n => exact hasText_ofWord number _ n
  | texture shape format =>
    refine hasText_object ?_
    dsimp only [Slots.encode, Storage.textureFields, Field.required, Field.plainChoice]
    simp [hasText_ofPair]

@[simp] theorem hasText_offset (offset : Offset) :
    HasText (depth + 1) (Codec.encode number offset) := by
  cases offset with
  | linear n => exact hasText_ofWord number _ n
  | texel place => exact hasText_ofPair (hasText_ofWord number depth) place

@[simp] theorem hasText_shape (shape : Option (Count × Count)) :
    HasText (depth + 1) (Codec.encode number shape) := by
  cases shape with
  | none => exact hasText_null _
  | some shape => exact hasText_ofPair (hasText_ofWord number depth) shape

@[simp] theorem hasText_selection (selection : Selection) :
    HasText (depth + 1) (Codec.encode number selection) := by
  cases selection with
  | elements indices type count =>
    refine hasText_object ?_
    dsimp only [Slots.encode, Selection.elementFields, Field.required, Field.plainChoice]
    simp
  | range first count =>
    refine hasText_object ?_
    dsimp only [Slots.encode, Selection.rangeFields, Field.required]
    simp

/-! ### Writing commands -/

/-- What is written of a command has a text if its 32-bit numbers have one. -/
theorem hasText_encode {c : Command} (h : ∀ x ∈ c.singles, ∀ depth, HasText depth (number x)) :
    HasText 3 (c.encode number) := by
  refine hasText_object (List.forall_mem_cons.2 ⟨hasText_text _ _, ?_⟩)
  cases c with
  | create | delete | shaders | size | texture | interpolation | draw =>
    dsimp only [tag, Tag.fields, slots, Slots.encode, Field.required]
    simp
  | wrapping id wrap =>
    dsimp only [tag, Tag.fields, slots, Slots.encode, Field.required]
    simp [hasText_ofPair]
  | data id offset shape elements =>
    have helements : HasText 1 (elements.encodeValues number) := by
      cases elements with
      | f32 xs => exact hasText_ofList fun x hx => h x hx 0
      | _ xs => exact hasText_ofList fun w _ => hasText_ofWord number 0 w
    have hdata : HasText 2 (Codec.encode number elements) := hasText_object (by simpa)
    dsimp only [tag, Tag.fields, slots, Slots.encode, Field.required, Field.optional]
    simp [hdata]
  | «attribute» program name type value =>
    have hvalue : HasText 2 (Codec.encode number value) := by
      cases value with
      | buffer id stride offset =>
        refine hasText_object ?_
        dsimp only [Slots.encode, Source.bufferFields, Field.required]
        simp
      | constant xs => exact hasText_ofList fun x hx => h x hx 1
    dsimp only [tag, Tag.fields, slots, Slots.encode, Field.required, Field.labelled]
    simp [hvalue]
  | uniform program name type value =>
    have hvalue : HasText 2 (Codec.encode number value) := hasText_ofList fun x hx => h x hx 1
    dsimp only [tag, Tag.fields, slots, Slots.encode, Field.required, Field.labelled]
    simp [hvalue]

/-- All 32-bit numbers of the command are finite. -/
def Finite (c : Command) : Prop := ∀ x ∈ c.singles, ∃ m, x.finite? = some m

/-- Finite numbers can be written as numbers that are rounded to them. -/
theorem exists_number : ∃ number : Single → Json, ∀ x m, x.finite? = some m →
    Denotes number x ∧ ∀ depth, HasText depth (number x) := by
  have hwrite (x : Single) : ∃ v : Json, ∀ m, x.finite? = some m →
      (∃ n : JsonNumber, v = .number n ∧ n.toSingle = x) ∧ ∀ depth, HasText depth v := by
    cases h : x.finite? with
    | none => exact ⟨.null, by simp⟩
    | some m =>
      obtain ⟨n, cs, hcs, hx⟩ := Single.exists_text h
      exact ⟨.number n, fun _ _ => ⟨⟨n, rfl, hx⟩, fun depth => hasText_number depth hcs⟩⟩
  choose number hnumber using hwrite
  exact ⟨number, hnumber⟩

/-- Commands of finite numbers have a text. -/
theorem exists_spelledBy {commands : List Command} (h : ∀ c ∈ commands, c.Finite) :
    ∃ text, SpelledBy commands text := by
  obtain ⟨number, hnumber⟩ := exists_number
  have hforms : List.Forall₂ Form commands (commands.map (encode number)) := by
    rw [List.forall₂_map_right_iff, List.forall₂_same]
    intro c hc
    refine form_encode fun x hx => ?_
    obtain ⟨m, hm⟩ := h c hc x hx
    exact (hnumber x m hm).1
  have htext : HasText 4 (.list (commands.map (encode number))) := by
    refine hasText_list (List.forall_mem_map.2 fun c hc => hasText_encode number fun x hx => ?_)
    obtain ⟨m, hm⟩ := h c hc x hx
    exact (hnumber x m hm).2
  obtain ⟨cs, hcs⟩ := htext
  refine ⟨String.ofList cs, _, hforms, ?_⟩
  rw [String.toList_ofList]
  exact padded_self ⟨4, hcs⟩

/-- **Commands are read back.**  Commands whose 32-bit numbers are finite have a text, and
every text of theirs is read as just these commands. -/
theorem readAll_of_finite {commands : List Command} (h : ∀ c ∈ commands, c.Finite) :
    (∃ text, SpelledBy commands text) ∧
      ∀ text, SpelledBy commands text → readAll text = .ok commands :=
  ⟨exists_spelledBy h, fun _ => readAll_of_spelledBy⟩

/-- A uniform of one number. -/
def halfUniform : Command := .uniform ⟨1, by decide, by decide⟩ "a" .float [⟨0x3f000000⟩]

/-- A text of it, with an escape in the name and the type behind the value. -/
def halfUniformText : String :=
  "[\x7b\"cmd\":\"uniform\",\"program\":1,\"name\":\"\\u0061\",\"value\":[0.5],\"type\":\"float\"\x7d]"

theorem readAll_halfUniform : halfUniform.Finite ∧ SpelledBy [halfUniform] halfUniformText ∧
    readAll halfUniformText = .ok [halfUniform] := by
  let half : JsonNumber := .real ⟨false, ⟨4503599627370496, -53⟩⟩
  have hform := Form.object
    (.uniform ⟨1, by decide, by decide⟩ "a" .float (.list [half]))
    (.cons _ (.cons _ (.cons _ (.swap _ _ _))))
  have htag : Spells 1 (.text "uniform") _ := ⟨_, spellsChars_plain (by decide), rfl⟩
  have hprogram : Spells 1 (whole (⟨1, by decide, by decide⟩ : Id)) ['1'] :=
    ⟨by decide, by decide, by decide⟩
  have hname : Spells 1 (.text "a") ['"', '\\', 'u', '0', '0', '6', '1', '"'] :=
    ⟨_, .cons (@SpellsChar.unit 'a' ['0', '0', '6', '1'] rfl rfl) .nil, rfl⟩
  have hzero : WholeDigits ['0'] :=
    ⟨⟨List.cons_ne_nil _ _, List.forall_mem_singleton.2 rfl⟩, fun _ => rfl⟩
  have hfive : Digits ['5'] := ⟨List.cons_ne_nil _ _, List.forall_mem_singleton.2 rfl⟩
  have hhalf : Spells 0 (.number half) ['0', '.', '5'] :=
    ⟨⟨false, ['0'], ['5'], none⟩, ⟨hzero, _, _, .point hfive, .absent, rfl⟩, by decide⟩
  have hvalue : Spells 1 (.list [.number half]) _ := ⟨_, .some (.one (padded_self hhalf)), rfl⟩
  have htype : Spells 1 (word UniformType.float) _ := ⟨_, spellsChars_plain (by decide), rfl⟩
  have hmembers := Series.more (spellsMember_plain "cmd" (by decide) htag)
    (.more (spellsMember_plain "program" (by decide) hprogram)
      (.more (spellsMember_plain "name" (by decide) hname)
        (.more (spellsMember_plain "value" (by decide) hvalue)
          (.one (spellsMember_plain "type" (by decide) htype)))))
  have hspelled : SpelledBy [halfUniform] halfUniformText :=
    ⟨_, .cons hform .nil,
      padded_self ⟨3, _, .some (.one (padded_self ⟨_, .some hmembers, rfl⟩)), by decide⟩⟩
  have hfinite : halfUniform.Finite := List.forall_mem_singleton.2 ⟨_, rfl⟩
  exact ⟨hfinite, hspelled,
    (readAll_of_finite (List.forall_mem_singleton.2 hfinite)).2 _ hspelled⟩

end Command
end DrawStream
