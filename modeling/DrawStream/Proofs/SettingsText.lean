import DrawStream.Proofs.Lines
import DrawStream.Settings

/-! # The settings in a text

The settings are three names of the outermost table, so what a text says of them does not depend on
the order of its statements nor on what it says of other names.  A text that gives a name a value
of its kind sets it, and a name that no statement is about has its default (`ofText?_of_gives`).
The reader and the writer agree: the text of settings is three lines, and lines are read as what
they spell (`ofText?_text`). -/
namespace DrawStream.Settings
open Toml

/-- The settings with the values that are given, and with the defaults of the others. -/
def filled (level : Option String) (deferred : Option Bool) (usage : Option BufferUsage) :
    Settings :=
  let default : Settings := {}
  { logLevel := level.getD default.logLevel
    deferred := deferred.getD default.deferred
    usage := usage.getD default.usage }

/-- A usage by its name. -/
def usageText (usage : BufferUsage) : Toml := .text (Choice.word usage)

theorem usageOf?_usageText (usage : BufferUsage) : usageOf? (usageText usage) = some usage := by
  cases usage <;> rfl

theorem valueOr_map {α : Type} {read? : Toml → Option α} {form : α → Toml}
    (h : ∀ a, read? (form a) = some a) (default : α) (a : Option α) :
    valueOr read? default (a.map form) = some (a.getD default) := by
  cases a with
  | none => rfl
  | some a => exact h a

variable {level : Option String} {deferred : Option Bool} {usage : Option BufferUsage}

/-- A table gives the settings that it has. -/
theorem ofMembers?_of_lookup {ms : Members} (hlevel : ms.lookup "log_level" = level.map .text)
    (hdeferred : ms.lookup "deferred" = deferred.map .flag)
    (husage : ms.lookup "buffer_usage" = usage.map usageText) :
    ofMembers? ms = some (filled level deferred usage) := by
  have htext : ∀ s : String, textOf? (.text s) = some s := fun _ => rfl
  have hflag : ∀ b : Bool, flagOf? (.flag b) = some b := fun _ => rfl
  rw [ofMembers?, hlevel, hdeferred, husage, valueOr_map htext, valueOr_map hflag,
    valueOr_map usageOf?_usageText]
  rfl

/-- Statements give a name of the outermost table a value of a kind, or none of them is about the
name. -/
inductive Gives {α : Type} (statements : List Statement) (name : String) (form : α → Toml) :
    Option α → Prop
  | value {a : α} (h : Statement.given? name statements = some (form a)) :
    Gives statements name form (some a)
  | leftOut (h : name ∉ Statement.outermost [] statements) : Gives statements name form none

theorem lookup_of_gives {α : Type} {statements : List Statement} {name : String} {form : α → Toml}
    {a : Option α} {ms : Members} (hform : ∀ a, (form a).isLeaf)
    (hdocument : Document.ofStatements? statements = some ms) (h : Gives statements name form a) :
    ms.lookup name = a.map form := by
  obtain ⟨hvalue, hnone⟩ := Document.lookup_ofStatements? hdocument name
  cases h with
  | value h => exact hvalue _ h (hform _)
  | leftOut h => exact hnone h

/-- **A text sets what it gives**, whatever else it says and in whatever order. -/
theorem ofText?_of_gives {text : String} {statements : List Statement}
    (hread : Statement.readAll? text = some statements)
    (hdocument : (Document.ofStatements? statements).isSome)
    (hlevel : Gives statements "log_level" .text level)
    (hdeferred : Gives statements "deferred" .flag deferred)
    (husage : Gives statements "buffer_usage" usageText usage) :
    ofText? text = some (filled level deferred usage) := by
  obtain ⟨ms, hms⟩ := Option.isSome_iff_exists.mp hdocument
  rw [ofText?, Toml.read?, hread]
  show (Document.ofStatements? statements).bind ofMembers? = _
  rw [hms, Option.bind_some]
  exact ofMembers?_of_lookup (lookup_of_gives (fun _ => rfl) hms hlevel)
    (lookup_of_gives (fun _ => rfl) hms hdeferred) (lookup_of_gives (fun _ => rfl) hms husage)

/-- Lines set what they give. -/
theorem ofText?_of_spells {ms : Members} {cs : List Char} (h : SpellsLines ms cs)
    (hkeys : (ms.map Prod.fst).Nodup) (hlevel : ms.lookup "log_level" = level.map .text)
    (hdeferred : ms.lookup "deferred" = deferred.map .flag)
    (husage : ms.lookup "buffer_usage" = usage.map usageText) :
    ofText? (String.ofList cs) = some (filled level deferred usage) := by
  rw [ofText?, read?_of_spells h hkeys]
  exact ofMembers?_of_lookup hlevel hdeferred husage

/-! ## The text of settings -/

/-- A pair as it is written: a blank on both sides of the equals sign, and nothing else. -/
def line (name : String) (value : List Char) : List Char :=
  name.toList ++ ([' ', '=', ' '] ++ (value ++ ['\n']))

theorem spellsPair_line {name : String} {v : Toml} {value : List Char} (hname : name ≠ "")
    (hbare : name.toList.all isBare) (hvalue : SpellsValue v value) :
    SpellsPair name v (line name value) := by
  have hkey : SpellsKey (String.ofList name.toList) name.toList :=
    .bare (by simpa using hname) (List.all_eq_true.mp hbare)
  rw [String.ofList_toList] at hkey
  have hnone : Blank [] := fun _ h => absurd h List.not_mem_nil
  have hblank : Blank [' '] := fun c h => by rw [List.mem_singleton.mp h]; rfl
  exact .mk hnone hkey hblank hblank hvalue (.plain hnone (.inl rfl))

/-- A character that needs no escape. -/
def isPlain (c : Char) : Bool := isPrinting c && c != '"' && c != '\\'

theorem spellsText_plain {s : String} (h : s.toList.all isPlain) :
    SpellsText s ('"' :: (s.toList ++ ['"'])) := by
  refine .quoted ?_
  generalize s.toList = cs at h
  induction cs with
  | nil => exact .nil
  | cons c cs ih =>
    rw [List.all_cons, Bool.and_eq_true] at h
    obtain ⟨hc, hcs⟩ := h
    simp only [isPlain, Bool.and_eq_true, bne_iff_ne] at hc
    exact .cons (.plain hc.1.1 hc.1.2 hc.2) (ih hcs)

/-- The text of settings is a line for each of them. -/
theorem text_eq (s : Settings) :
    s.text = String.ofList (line "log_level" ('"' :: (s.logLevel.toList ++ ['"'])) ++
      (line "deferred" (toString s.deferred).toList ++
        (line "buffer_usage" ('"' :: ((Choice.word s.usage).toList ++ ['"'])) ++ []))) := by
  have hfirst : "log_level = \"".toList = "log_level".toList ++ [' ', '=', ' ', '"'] := by decide
  have hsecond : "\"\ndeferred = ".toList =
      ['"', '\n'] ++ "deferred".toList ++ [' ', '=', ' '] := by decide
  have hthird : "\nbuffer_usage = \"".toList =
      ['\n'] ++ "buffer_usage".toList ++ [' ', '=', ' ', '"'] := by decide
  have hend : "\"\n".toList = ['"', '\n'] := by decide
  rw [← String.toList_inj, String.toList_ofList]
  unfold text
  simp only [String.toList_append, hfirst, hsecond, hthird, hend, line, List.append_assoc,
    List.cons_append, List.nil_append, List.append_nil]

/-- **Settings are read from their text**, if the level needs no escape. -/
theorem ofText?_text (s : Settings) (h : s.logLevel.toList.all isPlain) :
    ofText? s.text = some s := by
  have hflag : SpellsValue (.flag s.deferred) (toString s.deferred).toList := by
    cases s.deferred
    · exact .no
    · exact .yes
  have hword : (Choice.word s.usage).toList.all isPlain := by
    cases s.usage <;> decide
  have hlevel := spellsPair_line (by decide : "log_level" ≠ "") (by decide)
    (.text (spellsText_plain h))
  have hdeferred := spellsPair_line (by decide : "deferred" ≠ "") (by decide) hflag
  have husage := spellsPair_line (by decide : "buffer_usage" ≠ "") (by decide)
    (.text (spellsText_plain hword))
  have hkeys : ["log_level", "deferred", "buffer_usage"].Nodup := by decide
  have hlines := SpellsLines.pair hlevel (.pair hdeferred (.pair husage .nil))
  have hread : ofText? (String.ofList _) =
      some (filled (some s.logLevel) (some s.deferred) (some s.usage)) :=
    ofText?_of_spells hlines hkeys rfl rfl rfl
  rw [text_eq, hread]
  rfl

end DrawStream.Settings
