import DrawStream.Proofs.Encodings
import DrawStream.Proofs.SettingsText
import DrawStream.Proofs.Ways

/-! # Loading settings from a tree of files

There are four ways in which settings are loaded (`Loads`): the way to the file cannot be made,
something is at the path and is read, the path leads nowhere, or nothing is there and the defaults
are written.  To load again takes the same way, save for the last one, after which the file is
found; and then it is read, and gives what was written, because encodings are decoded and the text
of settings is read (`ofText?_text`).  In each of these ways nothing that was in the tree is lost,
as directories are made only where nothing is and a file is written only where nothing was found.
So loading is steady (`Steady`), and what a file gives is a matter of its text alone
(`loading_settles`).  It makes no difference whether the path is absolute or not. -/
namespace DrawStream.Settings
variable {path : String} {t u : FileTree}

/-- What loading settings comes to, and the tree after it. -/
def loaded (path : String) (t : FileTree) : Except SettingsFault Settings × FileTree :=
  (load path).play FileTree.answer t

/-- What the bytes of a file come to, if there are any. -/
def ofBytes (bytes : Option (List UInt8)) : Except SettingsFault Settings :=
  match bytes.bind Text.Utf8.decode? with
  | none => .error .read
  | some text =>
    match ofText? text with
    | none => .error .parse
    | some s => .ok s

/-- The bytes that are written where a file is missing. -/
def defaultBytes : List UInt8 := Text.Utf8.encode ({} : Settings).text

/-- The ways in which settings are loaded. -/
inductive Loads (path : String) (t : FileTree) :
    Except SettingsFault Settings × FileTree → Prop
  /-- The way cannot be made. -/
  | wayless (hway : t.makeWay? path = none) : Loads path t (.error .directory, t)
  /-- Something is at the path, and is read. -/
  | found {u : FileTree} (hway : t.makeWay? path = some u) (hthere : u.contains path) :
    Loads path t (ofBytes (u.read? path), u)
  /-- The path leads nowhere. -/
  | placeless {u : FileTree} (hway : t.makeWay? path = some u) (hplace : u.find? path = none) :
    Loads path t (.error .write, u)
  /-- Nothing is at the path, and the defaults are written there. -/
  | created {u : FileTree} {place : Place} (hway : t.makeWay? path = some u)
      (hplace : u.find? path = some place) (hmissing : u.entry place = none) :
    Loads path t (.ok {}, u.put place (.file defaultBytes))

/-! ## Loading in terms of the tree -/

theorem play_read (path : String) (t : FileTree) :
    (read path).play FileTree.answer t = (ofBytes (t.read? path), t) := by
  rw [read, ofBytes]
  simp only [Dialogue.question, Dialogue.bind_eq, Dialogue.ask_bind, Dialogue.done_bind,
    FileTree.play_read]
  cases (t.read? path).bind Text.Utf8.decode? with
  | none => rfl
  | some text =>
    dsimp only
    cases ofText? text <;> rfl

theorem loaded_eq (path : String) (t : FileTree) :
    loaded path t =
      match t.makeWay? path with
      | none => (.error .directory, t)
      | some u =>
        if u.contains path then (ofBytes (u.read? path), u)
        else
          match u.write? path defaultBytes with
          | none => (.error .write, u)
          | some v => (.ok {}, v) := by
  rw [loaded, load]
  simp only [Dialogue.question, Dialogue.bind_eq, Dialogue.ask_bind, Dialogue.done_bind,
    FileTree.play_makeWay]
  cases t.makeWay? path with
  | none => rfl
  | some u =>
    simp only [Option.isSome_some, Bool.not_true, Bool.false_eq_true, if_false,
      Option.getD_some, FileTree.play_exists]
    cases u.contains path with
    | true => exact play_read path u
    | false =>
      simp only [Bool.false_eq_true, if_false, FileTree.play_write, defaultBytes]
      cases u.write? path (Text.Utf8.encode ({} : Settings).text) <;> rfl

theorem loaded_of_loads {r : Except SettingsFault Settings × FileTree} (h : Loads path t r) :
    loaded path t = r := by
  rw [loaded_eq]
  cases h with
  | wayless hway => rw [hway]
  | found hway hthere => simp only [hway, hthere, if_true]
  | placeless hway hplace =>
    simp only [hway, FileTree.contains, FileTree.write?, hplace]
    rfl
  | created hway hplace hmissing =>
    rename_i u place
    have hthere : ¬u.contains path := by simp [FileTree.contains, hplace, hmissing]
    have hwrite : u.write? path defaultBytes = some (u.put place (.file defaultBytes)) := by
      simp only [FileTree.write?, hplace, Option.bind_eq_bind, Option.bind_some, hmissing]
      rfl
    simp only [hway, if_neg hthere, hwrite]

theorem loads_loaded (path : String) (t : FileTree) : Loads path t (loaded path t) := by
  suffices hloads : ∃ r, Loads path t r by
    obtain ⟨r, hr⟩ := hloads
    rw [loaded_of_loads hr]
    exact hr
  cases hway : t.makeWay? path with
  | none => exact ⟨_, .wayless hway⟩
  | some u =>
    cases hplace : u.find? path with
    | none => exact ⟨_, .placeless hway hplace⟩
    | some place =>
      cases hentry : u.entry place with
      | none => exact ⟨_, .created hway hplace hentry⟩
      | some e =>
        exact ⟨_, .found hway (FileTree.contains_of_entry hplace hentry)⟩

/-! ## Loading again -/

theorem ofBytes_encode {text : String} {s : Settings} (h : ofText? text = some s) :
    ofBytes (some (Text.Utf8.encode text)) = .ok s := by
  simp only [ofBytes, Option.bind_some, Text.Utf8.decode?_encode, h]

theorem ofText?_default : ofText? ({} : Settings).text = some {} := ofText?_text {} (by decide)

variable {r : Except SettingsFault Settings × FileTree}

/-- Where the defaults were written they are read. -/
theorem read?_of_created {place : Place} (hplace : u.find? path = some place)
    (hmissing : u.entry place = none) :
    (u.put place (.file defaultBytes)).find? path = some place ∧
      (u.put place (.file defaultBytes)).read? path = some defaultBytes := by
  have hfind := FileTree.find?_mono (FileTree.le_put hmissing (.file defaultBytes)) hplace
  exact ⟨hfind, FileTree.read?_eq_some_iff.mpr ⟨place, hfind, FileTree.entry_put_self ..⟩⟩

/-- Loading again comes to the same. -/
theorem Loads.again (h : Loads path t r) : loaded path r.2 = r := by
  cases h with
  | wayless hway => exact loaded_of_loads (.wayless hway)
  | found hway hthere =>
    exact loaded_of_loads (.found (FileTree.makeWay?_of_le hway (FileTree.le_refl _)) hthere)
  | placeless hway hplace =>
    exact loaded_of_loads (.placeless (FileTree.makeWay?_of_le hway (FileTree.le_refl _)) hplace)
  | created hway hplace hmissing =>
    obtain ⟨hfind, hread⟩ := read?_of_created hplace hmissing
    have hway' := FileTree.makeWay?_of_le hway (FileTree.le_put hmissing (.file defaultBytes))
    have hthere := FileTree.contains_of_entry hfind (FileTree.entry_put_self ..)
    have hsame := loaded_of_loads (.found hway' hthere)
    rwa [hread, defaultBytes, ofBytes_encode ofText?_default] at hsame

theorem Loads.le (h : Loads path t r) : t ≤ r.2 := by
  cases h with
  | wayless => exact FileTree.le_refl t
  | found hway | placeless hway => exact FileTree.le_makeWay? hway
  | created hway _ hmissing =>
    exact FileTree.le_trans (FileTree.le_makeWay? hway) (FileTree.le_put hmissing _)

/-- A file can come about at a path: its way can be made, and leads to a place where nothing is. -/
def Missing (path : String) (t : FileTree) : Prop :=
  ∃ u place, t.makeWay? path = some u ∧ u.find? path = some place ∧ u.entry place = none

theorem missing_of_plain (hpath : Files.Plain path)
    (hstart : t.entry (t.start path) = some .directory)
    (hfree : ∀ front, front <+: (Files.steps path).dropLast →
      ∀ bytes, t.entry (t.start path ++ front) ≠ some (.file bytes))
    (hmissing : t.entry (t.start path ++ Files.steps path) = none) : Missing path t := by
  obtain ⟨u, hway, hplace, hentry⟩ := FileTree.exists_makeWay? hpath hstart hfree
  exact ⟨u, _, hway, hplace, hentry.trans hmissing⟩

/-- What loading does to files, however often. -/
structure Steady (path : String) (t : FileTree) : Prop where
  /-- Loading again comes to the same settings or the same fault, and changes nothing. -/
  again : loaded path (loaded path t).2 = loaded path t
  /-- Everything that was there is there. -/
  keeps : t ≤ (loaded path t).2
  /-- If there is something at the path, nothing is made at all. -/
  found : t.contains path → (loaded path t).2 = t
  /-- A fault brings no file about. -/
  faulty : ∀ fault, (loaded path t).1 = .error fault → ∀ place bytes,
    (loaded path t).2.entry place = some (.file bytes) → t.entry place = some (.file bytes)
  /-- A file that is missing comes about, and gives the defaults. -/
  created : Missing path t → (loaded path t).1 = .ok {} ∧
    ∃ text, (loaded path t).2.read? path = some (Text.Utf8.encode text) ∧ ofText? text = some {}
  /-- A file is missing where a plain path, absolute or not, leads from a directory to nothing
  and no other file is in the way. -/
  missing : Files.Plain path → t.entry (t.start path) = some .directory →
    (∀ front, front <+: (Files.steps path).dropLast →
      ∀ bytes, t.entry (t.start path ++ front) ≠ some (.file bytes)) →
    t.entry (t.start path ++ Files.steps path) = none → Missing path t

theorem loaded_of_contains (h : t.contains path) :
    loaded path t = (ofBytes (t.read? path), t) := by
  obtain ⟨place, e, hplace, hentry⟩ := FileTree.exists_of_contains h
  exact loaded_of_loads (.found (FileTree.makeWay?_of_find? hplace) h)

theorem steady (path : String) (t : FileTree) : Steady path t where
  again := (loads_loaded path t).again
  keeps := (loads_loaded path t).le
  found h := by rw [loaded_of_contains h]
  faulty := by
    have hloads := loads_loaded path t
    generalize loaded path t = r at hloads
    intro fault hfault place bytes hfile
    cases hloads with
    | wayless => exact hfile
    | found hway | placeless hway => exact FileTree.file_of_makeWay? hway hfile
    | created => cases hfault
  created := by
    rintro ⟨u, place, hway, hplace, hmissing⟩
    rw [loaded_of_loads (.created hway hplace hmissing)]
    exact ⟨rfl, _, (read?_of_created hplace hmissing).2, ofText?_default⟩
  missing := missing_of_plain

/-- A file with a text gives the settings in the text. -/
theorem loaded_of_text {text : String} {s : Settings}
    (hfile : t.read? path = some (Text.Utf8.encode text)) (htext : ofText? text = some s) :
    loaded path t = (.ok s, t) := by
  obtain ⟨place, hplace, hentry⟩ := FileTree.read?_eq_some_iff.mp hfile
  rw [loaded_of_contains (FileTree.contains_of_entry hplace hentry), hfile, ofBytes_encode htext]

open Toml in
/-- **Loading settings is steady, and a file sets what it gives.**  Whatever a tree is like, to load
again comes to the same and changes nothing, a file that is there stays as it is, and a missing one
comes about with the defaults.  From a file with a TOML document come the values that it gives the
settings in its outermost table, whatever its other statements are and in whatever order, and the
defaults of the settings that none is about.  Any lines with pairs are such a document, so any text
can be given as the level. -/
theorem loading_settles (path : String) (t : FileTree) :
    Steady path t ∧
    (∀ (text : String) (statements : List Statement) (level : Option String)
        (deferred : Option Bool) (usage : Option BufferUsage),
      t.read? path = some (Text.Utf8.encode text) →
      Statement.readAll? text = some statements →
      (Document.ofStatements? statements).isSome →
      Gives statements "log_level" .text level →
      Gives statements "deferred" .flag deferred →
      Gives statements "buffer_usage" usageText usage →
      loaded path t = (.ok (filled level deferred usage), t)) ∧
    (∀ (lines : List Char) (ms : Members) (level : Option String) (deferred : Option Bool)
        (usage : Option BufferUsage),
      t.read? path = some (Text.Utf8.encode (String.ofList lines)) →
      SpellsLines ms lines → (ms.map Prod.fst).Nodup →
      ms.lookup "log_level" = level.map .text →
      ms.lookup "deferred" = deferred.map .flag →
      ms.lookup "buffer_usage" = usage.map usageText →
      loaded path t = (.ok (filled level deferred usage), t)) ∧
    ∀ s : String, ∃ cs, SpellsValue (.text s) cs := by
  refine ⟨steady path t, ?_, ?_, ?_⟩
  · intro text statements level deferred usage hfile hread hdocument hlevel hdeferred husage
    exact loaded_of_text hfile (ofText?_of_gives hread hdocument hlevel hdeferred husage)
  · intro lines ms level deferred usage hfile hlines hkeys hlevel hdeferred husage
    exact loaded_of_text hfile (ofText?_of_spells hlines hkeys hlevel hdeferred husage)
  · intro s
    obtain ⟨cs, hcs⟩ := exists_spellsText s
    exact ⟨cs, .text hcs⟩

/-! ## The settings of a user -/

/-- Where the settings of a user are. -/
def userPlace : Place := ["home", "user", ".config", "glcache", "glcache.toml"]

/-- The path to them. -/
def userPath : String := "/home/user/.config/glcache/glcache.toml"

/-- A tree with the settings of a user, who is at work elsewhere. -/
def withSettings (text : String) : FileTree where
  entry place :=
    if place = userPlace then some (.file (Text.Utf8.encode text))
    else if place.isPrefixOf userPlace || place = ["work"] then some .directory
    else none
  here := ["work"]

/-- Two of the settings, among other names and in front of a table. -/
def mixedText : String :=
  "window.title = 'x'\nbuffer_usage = 'static_draw'\nlog_level = \"\\u00e9\"\n[t]\ndeferred = false"

/-- The statements of that text. -/
def mixedStatements : List Toml.Statement :=
  [.pair ⟨["window"], "title"⟩ (.text "x"), .pair ⟨[], "buffer_usage"⟩ (.text "static_draw"),
    .pair ⟨[], "log_level"⟩ (.text "é"), .table ⟨[], "t"⟩,
    .pair ⟨[], "deferred"⟩ (.flag false)]

theorem plain_userPath : Files.Plain userPath := by
  have hparts : Files.parts userPath = "" :: userPlace := by decide
  have hsteps : Files.steps userPath = userPlace := by
    rw [Files.steps, hparts]
    decide
  refine ⟨by decide, fun part hpart => ?_,
    "" :: userPlace.dropLast, "glcache.toml", hparts, by decide⟩
  rw [hsteps] at hpart
  have hnames : ∀ part ∈ userPlace, Files.staysPut part = false ∧ part ≠ ".." ∧
      FileTree.isName part := by decide
  obtain ⟨hmoves, hdescends, hname⟩ := hnames part hpart
  exact ⟨hmoves, hdescends, hname⟩

/-- The mode has its default, as what a table says of a name is not about the setting; and a user
who has no settings gets the defaults. -/
theorem mixedText_loaded :
    path? none (some "/home/user") = some userPath ∧
    ((withSettings mixedText).read? userPath = some (Text.Utf8.encode mixedText) ∧
      Toml.Statement.readAll? mixedText = some mixedStatements ∧
      (Toml.Document.ofStatements? mixedStatements).isSome ∧
      loaded userPath (withSettings mixedText) =
        (.ok { logLevel := "é", usage := .staticDraw }, withSettings mixedText)) ∧
    (Toml.SpellsLines [("deferred", .flag false)] "deferred = false\n".toList ∧
      (loaded userPath (withSettings "deferred = false\n")).1 = .ok { deferred := false }) ∧
    (Files.Plain userPath ∧ (loaded userPath .empty).1 = .ok {}) := by
  have hread (text : String) : (withSettings text).read? userPath =
      some (Text.Utf8.encode text) :=
    FileTree.read?_eq_some_iff.mpr ⟨userPlace, rfl, rfl⟩
  have hstatements : Toml.Statement.readAll? mixedText = some mixedStatements := by rfl
  have hdocument : (Toml.Document.ofStatements? mixedStatements).isSome := by decide +kernel
  have hlines : Toml.SpellsLines [("deferred", .flag false)] "deferred = false\n".toList :=
    .pair (spellsPair_line (by decide) (by decide) .no) .nil
  refine ⟨by decide, ⟨hread _, hstatements, hdocument, ?_⟩, ⟨hlines, ?_⟩, plain_userPath, ?_⟩
  · exact (loading_settles _ _).2.1 _ _ (some "é") none (some .staticDraw) (hread _)
      hstatements hdocument (.value rfl) (.leftOut (by decide)) (.value rfl)
  · exact congrArg Prod.fst ((loading_settles _ _).2.2.1 _ _ none (some false) none (hread _) hlines
      (by decide) rfl rfl rfl)
  · have hsteady := (loading_settles userPath .empty).1
    have hfree (place : Place) (bytes : List UInt8) :
        FileTree.empty.entry place ≠ some (.file bytes) := by
      show (if place = [] then some FileEntry.directory else none) ≠ _
      split <;> simp
    exact (hsteady.created (hsteady.missing plain_userPath rfl (fun _ _ => hfree _) rfl)).1

end DrawStream.Settings
