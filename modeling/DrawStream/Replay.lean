import DrawStream.Command.Reader
import DrawStream.Context.Queue
import DrawStream.Device.Recorder
import DrawStream.Settings

/-! # Replaying a file of commands

The commands of a file are submitted to a context over a permissive recorder, the queue is
executed, and the calls that the recorder was asked for are listed.  What is noted
meanwhile is listed before them, as far as the settings let it through.  In which orders
tables are gone through is not for the settings or the file to say, so those of the
recorder are given as well. -/
namespace DrawStream

/-- Why a replay stops. -/
inductive ReplayFault
  | settings (fault : SettingsFault)
  /-- No file was named. -/
  | noFile
  | unreadable (path : String)
  | commands (fault : TextFault)
  | failed (failure : Failure)

/-- The words for a fault. -/
def ReplayFault.message : ReplayFault → String
  | settings fault => fault.message
  | noFile => "usage: glcache-replay <commands.json>"
  | unreadable path => "Failed to read command file " ++ path
  | commands _ => "command parse error"
  | failed failure => failure.message

/-- What a replay prints, and why it stopped early if it did. -/
structure Replay where
  lines : List String := []
  fault : Option ReplayFault := none

namespace Replay

/-- A replay that stops before anything is printed. -/
def stopped (fault : ReplayFault) : Replay := { fault := some fault }

/-- The code that the program ends with. -/
def exitCode (r : Replay) : UInt32 := if r.fault.isNone then 0 else 1

/-- What the program says on the error output. -/
def complaint? (r : Replay) : Option String :=
  r.fault.map fun fault => "Error: " ++ fault.message

/-- Submits commands from a file to a new context and executes the queue. -/
def script (settings : Settings) (path : String) (commands : List Command) :
    Script (Outcome Unit) := do
  Script.note (.replaying commands.length path)
  let context : Context := { deferred := settings.deferred, usage := settings.usage }
  match ← context.submitAll commands with
  | (.error failure, _) => return .error failure
  | (.ok (), context) =>
    match ← context.executePending with
    | (.error failure, _) => return .error failure
    | (.ok count, _) =>
      Script.note (.replayed count)
      return .ok ()

/-- Replays commands from a file. -/
def ofCommands (settings : Settings) (path : String) (commands : List Command)
    (arrangements : List Arrangement := []) : Replay :=
  let recorder : Recorder := { permissive := true, arrangements }
  let ran := Script.run (script settings path commands) recorder
  let notes := (Event.notes ran.events).filter fun n => settings.filter.keeps n.level
  match ran.value with
  | .error failure => ⟨notes.map Note.line, some (.failed failure)⟩
  | .ok () => ⟨notes.map Note.line ++ (Event.calls ran.events).map Call.describe, none⟩

/-- Replays the file that the arguments name first. -/
def ofArguments (settings : Settings) (arguments : List String)
    (arrangements : List Arrangement := []) : Dialogue FileRequest Replay := do
  match arguments with
  | [] => return stopped .noFile
  | path :: _ =>
    match (← Dialogue.question (.read path)).bind Text.Utf8.decode? with
    | none => return stopped (.unreadable path)
    | some text =>
      match Command.readAll text with
      | .error fault => return stopped (.commands fault)
      | .ok commands => return ofCommands settings path commands arrangements

/-- Loads the settings and replays the file that the arguments name first. -/
def perform (settingsPath : Option String) (arguments : List String)
    (arrangements : List Arrangement := []) : Dialogue FileRequest Replay := do
  match settingsPath with
  | none => return stopped (.settings .nowhere)
  | some path =>
    match ← Settings.load path with
    | .error fault => return stopped (.settings fault)
    | .ok settings => ofArguments settings arguments arrangements

end Replay
end DrawStream
