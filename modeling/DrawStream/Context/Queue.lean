import DrawStream.Context.Execute

/-! # The queue of a context

In deferred mode commands wait until the queue is executed, so that they can be sent before
a device is there.  Executing the queue stops at the first command that fails; that command
is gone, and those behind it go on waiting. -/
namespace DrawStream.Context

/-- Sets the mode.  Commands that wait already go on waiting. -/
def setDeferred (c : Context) (deferred : Bool) : Context := { c with deferred }

/-- How many commands wait. -/
def pending (c : Context) : Nat := c.queue.length

/-- Queues a command or executes it at once, depending on the mode. -/
def submit (c : Context) (command : Command) : Script Result := do
  if c.deferred then return (.ok (), { c with queue := c.queue ++ [command] })
  c.execute command

/-- Executes commands in order up to the first one that fails; `waiting` becomes the queue
at that point.  Gives the number of commands that succeeded. -/
def executeAll (c : Context) (count : Nat) : List Command → Script (Outcome Nat × Context)
  | [] => return (.ok count, c)
  | command :: waiting => do
    let (outcome, c) ← { c with queue := waiting }.execute command
    match outcome with
    | .error failure => return (.error failure, c)
    | .ok () => executeAll c (count + 1) waiting

/-- Executes the queue and gives the number of commands executed. -/
def executePending (c : Context) : Script (Outcome Nat × Context) := do
  let (outcome, c) ← c.executeAll 0 c.queue
  match outcome with
  | .ok count =>
    if 0 < count then Script.note (.executedQueue count)
    return (.ok count, c)
  | .error failure => return (.error failure, c)

/-- Submits commands in order up to the first one that fails. -/
def submitAll (c : Context) : List Command → Script Result
  | [] => return (.ok (), c)
  | command :: rest => do
    let (outcome, c) ← c.submit command
    match outcome with
    | .error failure => return (.error failure, c)
    | .ok () => submitAll c rest

end DrawStream.Context
