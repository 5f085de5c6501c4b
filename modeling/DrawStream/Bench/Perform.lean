import DrawStream.Bench.Basic

/-! # Performing steps on a bench -/
namespace DrawStream.Bench

/-- The object of one's own with a name. -/
def named? (b : Bench) (name : String) : Option Object := b.named.lookup name

/-- All objects of one's own but the one with a name. -/
def without (b : Bench) (name : String) : List (String × Object) :=
  b.named.filter fun entry => entry.1 ≠ name

/-- The bench after a script has run. -/
def after {α : Type} (b : Bench) (ran : Ran Recorder α) : Bench :=
  { b with recorder := ran.device }

/-- Runs a script that leaves the objects alone. -/
def consult {α : Type} (b : Bench) (script : Script α) (answer : α → Answer) : Report × Bench :=
  let ran := Script.run script b.recorder
  ({ answer := answer ran.value, events := ran.events }, b.after ran)

/-- The object that a command addresses. -/
def addressee : Command → Command.Id
  | .create id _ | .delete id | .shaders id _ _ | .size id _ | .data id _ _ _
  | .attribute id _ _ _ | .uniform id _ _ _ | .texture id _ _ | .interpolation id _ _
  | .wrapping id _ | .draw id _ _ => id

/-- Submits one command. -/
def submit (b : Bench) (command : Command) : CommandReport × Bench :=
  let ran := Script.run (b.context.submit command) b.recorder
  let context := ran.value.2
  ({ outcome := ran.value.1, pending := context.pending,
     object := context.object? (addressee command), events := ran.events },
    { b.after ran with context })

/-- Submits commands one by one, whether or not they fail. -/
def submitEach (b : Bench) : List Command → List CommandReport × Bench
  | [] => ([], b)
  | command :: rest =>
    let (report, b) := b.submit command
    let (reports, b) := submitEach b rest
    (report :: reports, b)

/-- Creates an object of one's own; an older one of the same name is deleted. -/
def create (b : Bench) (name : String) (kind : ObjectKind) (usage : Option BufferUsage) :
    Report × Bench :=
  let script : Script Object := do
    let object ← Object.create (usage.getD .dynamicDraw) kind
    match b.named? name with
    | some old => old.delete
    | none => pure ()
    return object
  let ran := Script.run script b.recorder
  ({ answer := .number ran.value.handle, events := ran.events },
    { b.after ran with named := b.without name ++ [(name, ran.value)] })

/-- Changes how the recorder behaves. -/
def Scripting.apply : Scripting → Recorder → Recorder
  | failCompile stage, r => { r with failingStage := stage }
  | failLink fail, r => { r with failLink := fail }
  | failValidation fail, r => { r with failValidation := fail }
  | failDraw code, r => { r with drawError := code }
  | pushError code, r => { r with errors := r.errors ++ [code] }

/-- What has become of work on an object: the answer, and the object unless it is gone. -/
abbrev Worked := Answer × Option Object

/-- The object is of a kind on which the work cannot be done. -/
def unsuited (object : Object) : Script Worked := return (.unsuited, some object)

/-- Work that leaves what is known of the object unchanged. -/
def simply (object : Object) (script : Script Unit) : Script Worked := do
  script
  return (.done, some object)

/-- Work that may fail and leaves what is known of the object unchanged. -/
def checked (object : Object) (script : Script (Outcome Unit)) : Script Worked := do
  return (.ofOutcome (← script), some object)

/-- Work on a program. -/
def onProgram (script : Script (Outcome Unit × Program)) : Script Worked := do
  let (outcome, p) ← script
  return (.ofOutcome outcome, some (.program p))

/-- Work on a buffer. -/
def workOnBuffer (object : Object) (b : Buffer) (wrap : Buffer → Object) : Work → Script Worked
  | .bufferSetSize bytes => do return (.done, some (wrap (← b.setSize bytes)))
  | .bufferSetData offset data => checked object (b.setData offset data)
  | _ => unsuited object

/-- Work on a texture. -/
def workOnTexture (t : Texture) : Work → Script Worked
  | .textureSetSize storage => do
    let (outcome, t) ← t.setStorage storage
    return (.ofOutcome outcome, some (.texture t))
  | .textureSetData offset shape data => checked (.texture t) (t.setData offset shape data)
  | .textureSetWrapping s r => simply (.texture t) (t.setWrapping s r)
  | .textureSetInterpolation min mag => simply (.texture t) (t.setInterpolation min mag)
  | _ => unsuited (.texture t)

/-- Work on a program; `find` finds other objects by name. -/
def workOnProgram (find : String → Option Object) (p : Program) : Work → Script Worked
  | .activation => do
    p.activate
    return (.number p.handle, some (.program p))
  | .setShaders vertex fragment => onProgram (p.setShaders vertex fragment)
  | .setUniform name type value => onProgram (p.setUniform name type value)
  | .setAttribute name type source => onProgram (p.setAttribute name type source)
  | .setTexture name texture =>
    match find texture with
    | some (.texture t) => onProgram (p.bindSampler name Texture.target t.handle)
    | _ => unsuited (.program p)
  | .bindSampler name target texture => onProgram (p.bindSampler name target texture)
  | .draw mode selection => onProgram (p.draw mode selection)
  | _ => unsuited (.program p)

/-- Work on an object. -/
def workOn (find : String → Option Object) (object : Object) : Work → Script Worked
  | .activate => simply object object.activate
  | .deactivate => simply object object.deactivate
  | .delete => do
    object.delete
    return (.done, none)
  | work =>
    match object with
    | .vertexBuffer b => workOnBuffer object b .vertexBuffer work
    | .indexBuffer b => workOnBuffer object b .indexBuffer work
    | .texture t => workOnTexture t work
    | .program p => workOnProgram find p work

/-- Works on an object of one's own. -/
def work (b : Bench) (name : String) (work : Work) : Report × Bench :=
  match b.named? name with
  | none => ({ answer := .unsuited }, b)
  | some object =>
    let ran := Script.run (workOn b.named? object work) b.recorder
    let (answer, object) := ran.value
    let named := match object with
      | some object => b.named.map fun e => if e.1 = name then (name, object) else e
      | none => b.without name
    ({ answer, events := ran.events, object }, { b.after ran with named })

/-- Executes what waits in the context. -/
def executePending (b : Bench) : Report × Bench :=
  let ran := Script.run b.context.executePending b.recorder
  let (outcome, context) := ran.value
  ({ answer := .executed outcome context.pending, events := ran.events },
    { b.after ran with context })

/-- The number of an object as commands write it. -/
def id? (n : Nat) : Option Command.Id := Word.ofInt? .u32 n

/-- The program whose locations are asked for. -/
def firstProgram : Handle := 1

/-- Performs a step. -/
def perform (b : Bench) : Step → Report × Bench
  | .commands text =>
    match Command.readAll text with
    | .error fault => ({ answer := .unreadable fault }, b)
    | .ok commands =>
      let (reports, b) := b.submitEach commands
      ({ answer := .submitted reports }, b)
  | .setDeferred deferred =>
    ({ answer := .flag deferred }, { b with context := b.context.setDeferred deferred })
  | .executePending => b.executePending
  | .object id => ({ answer := .state (id? id >>= b.context.object?) }, b)
  | .program id =>
    match id? id with
    | none => ({ answer := .unsuited }, b)
    | some id =>
      match b.context.program id with
      | .ok p => ({ answer := .number p.handle }, b)
      | .error failure => ({ answer := .failed failure }, b)
  | .script change => ({ answer := .done }, { b with recorder := change.apply b.recorder })
  | .takeError => b.consult (Script.request .takeError) fun code => .number code
  | .uniformLocation name =>
    b.consult (Script.request (.uniformLocation firstProgram name)) .number
  | .attributeLocation name =>
    b.consult (Script.request (.attributeLocation firstProgram name)) .number
  | .checkErrors checkpoint => b.consult (Script.checkErrors checkpoint) .ofOutcome
  | .create name kind usage => b.create name kind usage
  | .work name work => b.work name work

/-- Performs steps one after the other. -/
def performAll (b : Bench) : List Step → List Report × Bench
  | [] => ([], b)
  | step :: rest =>
    let (report, b) := b.perform step
    let (reports, b) := performAll b rest
    (report :: reports, b)

/-- All objects on the bench, by handle. -/
def objects (b : Bench) : List Object :=
  (b.context.objects.map Prod.snd ++ b.named.map Prod.snd).mergeSort
    fun a c => a.handle ≤ c.handle

/-- Deletes all objects. -/
def teardown (b : Bench) : Script Unit := Program.inOrder Object.delete b.objects

end DrawStream.Bench
