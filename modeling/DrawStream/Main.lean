import DrawStream.Replay

/-! # The replay program

It replays the file of commands that its first argument names.  What the replay lists goes
to the output, and what stopped it, if anything did, to the error output. -/
namespace DrawStream

/-- Whether an action succeeds. -/
def succeeds (action : IO Unit) : IO Bool := do
  try
    action
    return true
  catch _ => return false

/-- Answers a request with the files that are there. -/
def askFiles : {β : Type} → FileRequest β → IO β
  | _, .makeWay path =>
    let directory := Files.directory path
    if directory = "" then return true else succeeds (IO.FS.createDirAll directory)
  | _, .exists path => succeeds (discard (IO.FS.realPath path))
  | _, .write path text => succeeds (IO.FS.writeFile path text)
  | _, .read path => do
    try
      return some (← IO.FS.readBinFile path).toList
    catch _ => return none

end DrawStream

open DrawStream in
/-- Replays the file that the first argument names. -/
def main (arguments : List String) : IO UInt32 := do
  let path := Settings.path? (← IO.getEnv "XDG_CONFIG_HOME") (← IO.getEnv "HOME")
  let replay ← (Replay.perform path arguments).playM askFiles
  replay.lines.forM IO.println
  replay.complaint?.forM IO.eprintln
  return replay.exitCode
