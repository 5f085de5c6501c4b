import DrawStream.Proofs.ValuesRead

/-! # Numbers inside of values and of their texts

A value is taken apart at a number by leaving out a member or an item, and in that one again,
until only a gap is left (`fill`).  The steps to the gap are its place.

So is a text of the value: `Surrounds` says which characters may stand in front of the gap and
behind it.  They do not depend on the number, so any text of another number may be put between
them (`Surrounds.spells`), and every text of a value with a number in the gap comes about in
this way (`surrounds_of_spells`).  A number beyond the largest double has a text, but it is not
in any value; text with such a number is refused where the number stands (`Surrounds.fails`). -/
namespace DrawStream.Json

/-! ### Gaps -/

/-- A step into an object or a list. -/
inductive Step
  | key (name : String)
  | item (index : Nat)
  deriving DecidableEq

/-- An object or a list with one value left out. -/
inductive Frame
  | member (before : List (String × Json)) (key : String) (after : List (String × Json))
  | item (before after : List Json)

namespace Frame

/-- Puts the value back. -/
def fill : Frame → Json → Json
  | member before key after, v => .object (before ++ (key, v) :: after)
  | item before after, v => .list (before ++ v :: after)

/-- The step to the value. -/
def step : Frame → Step
  | member _ key _ => .key key
  | item before _ => .item before.length

end Frame

/-- Puts a value into the gap that the frames leave, the outermost first. -/
def fill : List Frame → Json → Json
  | [], v => v
  | frame :: gap, v => frame.fill (fill gap v)

/-- Where the gap is. -/
def place (gap : List Frame) : List Step := gap.map Frame.step

/-- With a number in the gap, the value is a number, an object or a list. -/
theorem fill_number_ne_null (gap : List Frame) (m : JsonNumber) :
    fill gap (.number m) ≠ .null := by
  rcases gap with _ | ⟨_ | _, gap⟩ <;> (intro h; cases h)

/-! ### Items around another -/
section
variable {α β : Type} {R : β → α → Prop} {P : α → List Char → Prop}

/-- An item has a partner, and another item with a partner of its own may take its place. -/
theorem forall₂_middle {before after : List α} {a : α} {bs : List β}
    (h : List.Forall₂ R bs (before ++ a :: after)) :
    ∃ b, bs[before.length]? = some b ∧ R b a ∧ ∀ a' b', R b' a' →
      List.Forall₂ R (bs.set before.length b') (before ++ a' :: after) := by
  induction before generalizing bs with
  | nil =>
    obtain ⟨b, others, hb, hothers, rfl⟩ := List.forall₂_cons_right_iff.1 h
    exact ⟨b, rfl, hb, fun _ _ hb' => .cons hb' hothers⟩
  | cons first before ih =>
    obtain ⟨partner, others, hfirst, hothers, rfl⟩ := List.forall₂_cons_right_iff.1 h
    obtain ⟨b, hb, hpartner, hreplaced⟩ := ih hothers
    refine ⟨b, hb, hpartner, ?_⟩
    intro a' b' hb'
    exact .cons hfirst (hreplaced a' b' hb')

/-- The partner of an item stands in the same place. -/
theorem forall₂_getElem? {items : List α} {bs : List β} (h : List.Forall₂ R bs items) {i : Nat}
    {b : β} (hb : bs[i]? = some b) :
    ∃ before a after, items = before ++ a :: after ∧ before.length = i ∧ R b a := by
  induction h generalizing i with
  | nil => cases hb
  | @cons first a bs items hfirst _ ih =>
    rcases i with _ | i
    · cases hb
      exact ⟨[], a, items, rfl, rfl, hfirst⟩
    · obtain ⟨before, a', after, rfl, hlength, ha'⟩ := ih hb
      exact ⟨a :: before, a', after, rfl, by simp [hlength], ha'⟩

/-- Items in front of another, each with its comma. -/
inductive Leads (P : α → List Char → Prop) : List α → List Char → Prop
  | nil : Leads P [] []
  | cons {a : α} {items : List α} {cs rest : List Char} (item : P a cs)
      (leads : Leads P items rest) : Leads P (a :: items) (cs ++ ',' :: rest)

/-- Items behind another, each behind a comma. -/
inductive Trails (P : α → List Char → Prop) : List α → List Char → Prop
  | nil : Trails P [] []
  | cons {a : α} {items : List α} {cs rest : List Char} (item : P a cs)
      (trails : Trails P items rest) : Trails P (a :: items) (',' :: (cs ++ rest))

theorem Trails.series {a : α} {items : List α} {cs post : List Char}
    (h : Trails P items post) (ha : P a cs) : Series P (a :: items) (cs ++ post) := by
  induction h generalizing a cs with
  | nil =>
    rw [List.append_nil]
    exact .one ha
  | cons item _ ih => exact .more ha (ih item)

theorem Leads.series {before after : List α} {a : α} {pre cs post : List Char}
    (h : Leads P before pre) (ha : P a cs) (hpost : Trails P after post) :
    Series P (before ++ a :: after) (pre ++ (cs ++ post)) := by
  induction h with
  | nil => exact hpost.series ha
  | cons item _ ih =>
    rw [List.append_assoc]
    exact .more item ih

/-- Items that stand for others lead as those do. -/
theorem Leads.of_forall₂ {bs : List β} {items : List α} {cs : List Char} (h : Leads P items cs)
    (hR : List.Forall₂ R bs items) :
    Leads (fun b cs => ∃ a, R b a ∧ P a cs) bs cs := by
  induction h generalizing bs with
  | nil =>
    cases hR
    exact .nil
  | cons item _ ih =>
    obtain ⟨b, bs, hb, hbs, rfl⟩ := List.forall₂_cons_right_iff.1 hR
    exact .cons ⟨_, hb, item⟩ (ih hbs)

theorem Series.trails {a : α} {items : List α} {cs : List Char}
    (h : Series P (a :: items) cs) :
    ∃ first post, P a first ∧ Trails P items post ∧ cs = first ++ post := by
  induction items generalizing a cs with
  | nil =>
    cases h with
    | one item => exact ⟨cs, [], item, .nil, by simp⟩
    | more _ series => cases series
  | cons b items ih =>
    cases h with
    | more item series =>
      obtain ⟨second, post, hsecond, hpost, rfl⟩ := ih series
      exact ⟨_, _, item, .cons hsecond hpost, rfl⟩

/-- A series is split at any of its items. -/
theorem Series.split {before after : List α} {a : α} {cs : List Char}
    (h : Series P (before ++ a :: after) cs) :
    ∃ pre part post, Leads P before pre ∧ P a part ∧ Trails P after post ∧
      cs = pre ++ (part ++ post) := by
  induction before generalizing cs with
  | nil =>
    obtain ⟨part, post, hpart, hpost, rfl⟩ := h.trails
    exact ⟨[], part, post, .nil, hpart, hpost, rfl⟩
  | cons b before ih =>
    rw [List.cons_append] at h
    generalize hitems : before ++ a :: after = items at h
    cases h with
    | one item => exact absurd hitems (by simp)
    | more item series =>
      subst hitems
      obtain ⟨pre, part, post, hpre, hpart, hpost, rfl⟩ := ih series
      exact ⟨_, part, post, .cons item hpre, hpart, hpost, by simp⟩

end

/-! ### Texts around a gap -/

/-- The characters in front of the gap and behind it, in a text in which lists and objects
nest at most `depth` deep. -/
inductive Surrounds : (depth : Nat) → List Frame → List Char → List Char → Prop
  | here {depth : Nat} : Surrounds depth [] [] []
  | item {depth : Nat} {before after : List Json} {gap : List Frame}
      {pre post left right front back : List Char}
      (leads : Leads (fun v => Padded (Spells depth v)) before pre)
      (trails : Trails (fun v => Padded (Spells depth v)) after post)
      (left_blank : Blank left) (right_blank : Blank right)
      (inner : Surrounds depth gap front back) :
      Surrounds (depth + 1) (.item before after :: gap) ('[' :: (pre ++ (left ++ front)))
        (back ++ (right ++ (post ++ [']'])))
  | member {depth : Nat} {before after : List (String × Json)} {key : String} {gap : List Frame}
      {pre name post left right front back : List Char}
      (leads : Leads (SpellsMember (Spells depth)) before pre)
      (named : Padded (SpellsText key) name)
      (trails : Trails (SpellsMember (Spells depth)) after post)
      (left_blank : Blank left) (right_blank : Blank right)
      (inner : Surrounds depth gap front back) :
      Surrounds (depth + 1) (.member before key after :: gap)
        ('{' :: (pre ++ (name ++ ':' :: (left ++ front))))
        (back ++ (right ++ (post ++ ['}'])))

variable {depth : Nat} {gap : List Frame} {front back : List Char}

/-- Any text of any number may stand in the gap. -/
theorem Surrounds.spells (h : Surrounds depth gap front back) {m : JsonNumber}
    {number : List Char} (hm : SpellsNumber m number) :
    Spells depth (fill gap (.number m)) (front ++ (number ++ back)) := by
  induction h with
  | here => simpa [fill, Spells] using hm
  | @item depth before after gap pre post left right front back leads trails hleft hright _ ih =>
    have hpart : Padded (Spells depth (fill gap (.number m)))
        (left ++ ((front ++ (number ++ back)) ++ right)) := ⟨left, _, right, hleft, ih, hright, rfl⟩
    simp only [fill, Frame.fill, Spells]
    exact ⟨_, .some (leads.series hpart trails), by simp⟩
  | @member depth before after key gap pre name post left right front back leads named trails
      hleft hright _ ih =>
    have hpart : SpellsMember (Spells depth) (key, fill gap (.number m))
        (name ++ ':' :: (left ++ ((front ++ (number ++ back)) ++ right))) :=
      ⟨name, _, named, ⟨left, _, right, hleft, ih, hright, rfl⟩, rfl⟩
    simp only [fill, Frame.fill, Spells]
    exact ⟨_, .some (leads.series hpart trails), by simp⟩

theorem Items.series {α : Type} {P : α → List Char → Prop} {before after : List α} {a : α}
    {cs : List Char} (h : Items P (before ++ a :: after) cs) :
    Series P (before ++ a :: after) cs := by
  generalize hitems : before ++ a :: after = items at h
  cases h with
  | none _ => exact absurd hitems (by simp)
  | some series => exact series

/-- In every text of a value with a number in the gap, a text of the number stands there. -/
theorem surrounds_of_spells {m : JsonNumber} : ∀ {depth : Nat} {gap : List Frame}
    {cs : List Char}, Spells depth (fill gap (.number m)) cs →
      ∃ front number back, Surrounds depth gap front back ∧ SpellsNumber m number ∧
        cs = front ++ (number ++ back)
  | depth, [], cs, h => ⟨[], cs, [], .here, by simpa [fill, Spells] using h, by simp⟩
  | 0, .item .. :: _, _, h | 0, .member .. :: _, _, h => by
    simp only [fill, Frame.fill, Spells] at h
  | depth + 1, .item before after :: gap, _, h => by
    simp only [fill, Frame.fill, Spells] at h
    obtain ⟨inner, hinner, rfl⟩ := h
    obtain ⟨pre, part, post, hpre, ⟨left, core, right, hleft, hcore, hright, rfl⟩, hpost, rfl⟩ :=
      hinner.series.split
    obtain ⟨front, number, back, hsurrounds, hnumber, rfl⟩ := surrounds_of_spells hcore
    exact ⟨_, number, _, .item hpre hpost hleft hright hsurrounds, hnumber, by simp⟩
  | depth + 1, .member before key after :: gap, _, h => by
    simp only [fill, Frame.fill, Spells] at h
    obtain ⟨inner, hinner, rfl⟩ := h
    obtain ⟨pre, part, post, hpre, ⟨name, _, hname, ⟨left, core, right, hleft, hcore, hright, rfl⟩,
      rfl⟩, hpost, rfl⟩ := hinner.series.split
    obtain ⟨front, number, back, hsurrounds, hnumber, rfl⟩ := surrounds_of_spells hcore
    exact ⟨_, number, _, .member hpre hname hpost hleft hright hsurrounds, hnumber, by simp⟩

/-! ### Numbers that are refused -/

/-- The text is refused. -/
def Fails {α : Type} (r : Except TextFault α) : Prop := ∃ fault, r = .error fault

theorem Fails.bind {α β : Type} {r : Except TextFault α} (h : Fails r)
    (f : α → Except TextFault β) : Fails (r >>= f) := by
  obtain ⟨fault, rfl⟩ := h
  exact ⟨fault, rfl⟩

theorem ends_bracket {close : Char} (h : close = ']' ∨ close = '}') (rest : List Char) :
    Ends (close :: rest) := by
  intro c hc
  obtain rfl : close = c := by simpa using hc
  rcases h with rfl | rfl <;> decide

/-- Behind a number there is a comma or a bracket. -/
theorem Trails.ends {α : Type} {P : α → List Char → Prop} {items : List α} {post : List Char}
    (h : Trails P items post) {close : Char} (hclose : close = ']' ∨ close = '}')
    (rest : List Char) : Ends (post ++ close :: rest) := by
  cases h with
  | nil => exact ends_bracket hclose rest
  | cons _ _ => exact ReadsItems.ends_comma _

section
variable {α σ : Type} {close : Char} {step : σ → Reading σ} {next : σ → α → Option σ}
  {P : α → List Char → Prop}

theorem ReadsItems.opens_leads (h : ReadsItems close step next P) {before : List α}
    {pre cs : List Char} (hpre : Leads P before pre)
    (hcs : ∃ c tail, skipBlank cs = c :: tail ∧ c ≠ close) :
    ∃ c tail, skipBlank (pre ++ cs) = c :: tail ∧ c ≠ close := by
  cases hpre with
  | nil => exact hcs
  | cons item _ =>
    obtain ⟨c, tail, hopen, hc⟩ := h.opens item
    rw [List.append_assoc]
    exact ⟨c, _, skipBlank_append_of_eq_cons hopen _, hc⟩

/-- A step that is refused makes the whole loop fail, also after items that are read. -/
theorem ReadsItems.fails_leads (h : ReadsItems close step next P) {before : List α}
    {pre cs : List Char} (hpre : Leads P before pre) {s' : σ} (hfails : Fails (step s' cs)) :
    ∀ {s : σ} (bound : List Char), before.foldlM next s = some s' →
      Fails (step s (pre ++ cs) >>= fun r => moreItems close step bound r.1 r.2) := by
  induction hpre with
  | nil =>
    intro s bound hrun
    obtain rfl : s = s' := by simpa using hrun
    exact hfails.bind _
  | @cons a items text rest item _ ih =>
    intro s bound hrun
    obtain ⟨s₁, hnext, hrun⟩ := Option.bind_eq_some_iff.1 (by simpa using hrun)
    obtain ⟨left, hstep, hleft⟩ :=
      h.reads (',' :: (rest ++ cs)) item hnext (ReadsItems.ends_comma _)
    have hleft : skipBlank left = ',' :: (rest ++ cs) := hleft
    -- Where the bound is too small for the items in front, that is a fault as well.
    obtain ⟨-, -, hcomma⟩ := h.close_spec []
    rw [List.append_assoc, List.cons_append, hstep, ok_bind]
    rcases bound with _ | ⟨b, bound⟩
    · exact ⟨_, rfl⟩
    · simp only [moreItems, hleft, hcomma.symm, if_false, if_true]
      exact ih bound hrun

theorem ReadsItems.fails (h : ReadsItems close step next P) {before : List α}
    {pre cs : List Char} (hpre : Leads P before pre) {s s' : σ}
    (hrun : before.foldlM next s = some s')
    (hcs : ∃ c tail, skipBlank cs = c :: tail ∧ c ≠ close) (hfails : Fails (step s' cs)) :
    Fails (enclosed close step s (pre ++ cs)) := by
  obtain ⟨c, tail, hopen, hc⟩ := h.opens_leads hpre hcs
  have hloop := h.fails_leads hpre hfails (c :: tail) hrun
  rw [← h.skip, hopen] at hloop
  simp only [enclosed, hopen, hc, if_false]
  exact hloop

end

/-- The characters are those of a number, but none that there is. -/
def Beyond (number : List Char) : Prop := ∃ t : NumberText, t.Spells number ∧ t.value? = none

theorem Beyond.fails {number : List Char} (h : Beyond number) (depth : Nat) {rest : List Char}
    (hrest : Ends rest) : Fails (readValue depth (number ++ rest)) := by
  obtain ⟨t, hspells, hnone⟩ := h
  obtain ⟨body, rfl, ⟨c, hc, hdigit⟩, hread⟩ := hspells.readNumber?
  have hread := hread rest hrest
  rw [hnone] at hread
  obtain ⟨tail, rfl⟩ := List.head?_eq_some_iff.1 hc
  rcases hsign : t.negative with _ | _
  · rw [hsign] at hread
    change Fails (readValue depth (c :: (tail ++ rest)))
    rw [readValue_digit depth hdigit, ← List.cons_append, hread]
    exact ⟨_, rfl⟩
  · rw [hsign] at hread
    change Fails (readValue depth ('-' :: (c :: tail ++ rest)))
    rw [readValue_negative, hread]
    exact ⟨_, rfl⟩

theorem Beyond.opens {number : List Char} (h : Beyond number) : Opens number := by
  obtain ⟨t, hspells, -⟩ := h
  obtain ⟨body, rfl, hdigit, -⟩ := hspells.readNumber?
  exact opens_of_digits t.negative hdigit

theorem Surrounds.opens (h : Surrounds depth gap front back) {number : List Char}
    (hnumber : Opens number) (rest : List Char) : Opens (front ++ (number ++ rest)) := by
  cases h with
  | here =>
    obtain ⟨c, tail, rfl, hc⟩ := hnumber
    exact ⟨c, tail ++ rest, rfl, hc⟩
  | item => exact ⟨'[', _, rfl, by decide, by decide, by decide⟩
  | member => exact ⟨'\x7b', _, rfl, by decide, by decide, by decide⟩

theorem Opens.skipBlank {left cs : List Char} (h : Opens cs) (hleft : Blank left) :
    ∃ c tail, Json.skipBlank (left ++ cs) = c :: tail ∧ c ≠ ']' ∧ c ≠ '\x7d' := by
  obtain ⟨c, tail, rfl, hblank, hc⟩ := h
  exact ⟨c, tail, (skipBlank_append hleft _).trans (skipBlank_cons hblank tail), hc⟩

theorem readValue_blank (depth : Nat) {left : List Char} (h : Blank left) (cs : List Char) :
    readValue depth (left ++ cs) = readValue depth cs := by
  rw [← readValue_skipBlank, skipBlank_append h, readValue_skipBlank]

theorem takeValue_fails {depth : Nat} {cs : List Char} (h : Fails (readValue depth cs))
    (items : List Json) {left : List Char} (hleft : Blank left) :
    Fails (takeValue depth items (left ++ cs)) := by
  rw [takeValue, readValue_blank depth hleft]
  exact h.bind _

theorem takeMember_fails {depth : Nat} {cs : List Char} (h : Fails (readValue depth cs))
    (members : List (String × Json)) {key : String} {name left : List Char}
    (hname : Padded (SpellsText key) name) (hleft : Blank left) :
    Fails (takeMember depth members (name ++ ':' :: (left ++ cs))) := by
  obtain ⟨behind, hkey, hcolon⟩ := readKey_of_spells hname (left ++ cs)
  simp only [takeMember, hkey, hcolon, ok_bind, readValue_blank depth hleft]
  exact h.bind _

/-- **Text is refused at a number that there is none of.** -/
theorem Surrounds.fails (h : Surrounds depth gap front back) {number : List Char}
    (hnumber : Beyond number) : ∀ {rest : List Char}, Ends rest →
      Fails (readValue depth (front ++ (number ++ (back ++ rest)))) := by
  induction h with
  | here =>
    intro rest hrest
    exact hnumber.fails _ hrest
  | @item depth before after gap pre post left right front back leads trails hleft hright inner
      ih =>
    intro rest _
    have hvalue := ih (.of_blank hright (trails.ends (.inl rfl) rest))
    obtain ⟨c, tail, hopen, hc, -⟩ := (inner.opens hnumber.opens _).skipBlank hleft
    have hfails := (readsItems_values (readsValue depth)).fails leads (foldlM_cons before [])
      ⟨c, tail, hopen, hc⟩ (takeValue_fails hvalue _ hleft)
    rw [List.cons_append, readValue_list]
    simp only [List.append_assoc, List.singleton_append]
    exact hfails.bind _
  | @member depth before after key gap pre name post left right front back leads named trails
      hleft hright inner ih =>
    intro rest _
    have hvalue := ih (.of_blank hright (trails.ends (.inr rfl) rest))
    obtain ⟨c, tail, hopen, -, hc⟩ := named.opens fun _ => opens_of_spellsText
    have hfails := (readsItems_members (readsValue depth)).fails leads (foldlM_cons before [])
      ⟨c, _, skipBlank_append_of_eq_cons hopen _, hc⟩ (takeMember_fails hvalue _ named hleft)
    rw [List.cons_append, readValue_object]
    simp only [List.append_assoc, List.cons_append, List.nil_append]
    exact hfails.bind _

end DrawStream.Json
