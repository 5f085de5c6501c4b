import DrawStream.Device.Options
import DrawStream.Files.Basic
import DrawStream.Note
import DrawStream.Text.Utf8
import DrawStream.Toml.Document

/-! # Settings

The settings are three keys of a TOML file.  A key that the file leaves out has its
default, and any other key means nothing.  If the file is missing, it is written with the
defaults first. -/
namespace DrawStream

/-- What a user can set. -/
structure Settings where
  /-- Which notes are shown; a word that names no level means the default. -/
  logLevel : String := "info"
  /-- Commands wait until the queue is executed. -/
  deferred : Bool := true
  /-- The usage of buffers that commands create. -/
  usage : BufferUsage := .dynamicDraw
  deriving DecidableEq

/-- Why settings cannot be loaded. -/
inductive SettingsFault
  /-- Nothing says where the file is. -/
  | nowhere
  | directory | write | read | parse
  deriving DecidableEq, Repr

/-- The words for a fault. -/
def SettingsFault.message : SettingsFault → String
  | nowhere => "Couldn't determine project directory"
  | directory => "Failed to create config directory"
  | write => "Failed to write default config"
  | read => "Failed to read config file"
  | parse => "Failed to parse config file"

namespace Settings

/-- The notes to be shown. -/
def filter (s : Settings) : LevelFilter :=
  (LevelFilter.ofWord? s.logLevel).getD (some .info)

/-! ## Settings as text -/

/-- The value of a key, or the default if the key is not there. -/
def valueOr {α : Type} (read? : Toml → Option α) (default : α) : Option Toml → Option α
  | none => some default
  | some v => read? v

/-- A text. -/
def textOf? : Toml → Option String
  | .text s => some s
  | _ => none

/-- A truth value. -/
def flagOf? : Toml → Option Bool
  | .flag b => some b
  | _ => none

/-- A usage: its name, or a table that holds the name with an empty table. -/
def usageOf? : Toml → Option BufferUsage
  | .text s => Choice.ofWord? s
  | .table _ [(s, .table _ [])] => Choice.ofWord? s
  | _ => none

/-- The settings in a table. -/
def ofMembers? (ms : Toml.Members) : Option Settings := do
  let default : Settings := {}
  let logLevel ← valueOr textOf? default.logLevel (ms.lookup "log_level")
  let deferred ← valueOr flagOf? default.deferred (ms.lookup "deferred")
  let usage ← valueOr usageOf? default.usage (ms.lookup "buffer_usage")
  return { logLevel, deferred, usage }

/-- The settings in a text. -/
def ofText? (text : String) : Option Settings := do ofMembers? (← Toml.read? text)

/-- Settings as a text, if the level is a word that needs no escape. -/
def text (s : Settings) : String :=
  "log_level = \"" ++ s.logLevel ++ "\"\ndeferred = " ++ toString s.deferred ++
    "\nbuffer_usage = \"" ++ Choice.word s.usage ++ "\"\n"

/-! ## Settings in a file -/

/-- Where the file is: in the user's directory of settings, which must be absolute, or else
in the customary place below the user's own. -/
def path? (configHome home : Option String) : Option String :=
  let base := match configHome.filter Files.isAbsolute with
    | some directory => some directory
    | none => (home.filter (· ≠ "")).map (· ++ "/.config")
  base.map (· ++ "/glcache/glcache.toml")

/-- Reads the settings in a file that is there. -/
def read (path : String) : Dialogue FileRequest (Except SettingsFault Settings) := do
  let bytes ← Dialogue.question (.read path)
  match bytes.bind Text.Utf8.decode? with
  | none => return .error .read
  | some text =>
    match ofText? text with
    | none => return .error .parse
    | some s => return .ok s

/-- Loads the settings from a file, which comes about if it is missing. -/
def load (path : String) : Dialogue FileRequest (Except SettingsFault Settings) := do
  if !(← Dialogue.question (.makeWay path)) then return .error .directory
  if ← Dialogue.question (.exists path) then read path
  else
    let default : Settings := {}
    if ← Dialogue.question (.write path default.text) then return .ok default
    else return .error .write

end Settings
end DrawStream
