import DrawStream.Program.Basic

/-! # Linking

A program gets its code from a vertex and a fragment shader.  The shaders exist only while
the program is linked: they are deleted whether or not compiling and linking succeed. -/
namespace DrawStream.Program

/-- Compiles a shader of a stage. -/
def compile (stage : Stage) (shader : Handle) (source : String) : Script (Outcome Unit) := do
  Script.request (.shaderSource shader source)
  Script.request (.compileShader shader)
  if ← Script.request (.compileStatus shader) then return .ok ()
  return .error (.shaderCompile stage (← Script.request (.shaderLog shader)))

/-- What the device says about a link that failed; nothing if it succeeded. -/
def linkFault (p : Program) : Script (Option String) := do
  if ← Script.request (.linkStatus p.handle) then return none
  return some (← Script.request (.programLog p.handle))

/-- Links the program from two compiled shaders. -/
def linkShaders (p : Program) (vertex fragment : Handle) : Script (Outcome Unit) := do
  Script.request (.attachShader p.handle vertex)
  Script.request (.attachShader p.handle fragment)
  Script.request (.linkProgram p.handle)
  let fault ← p.linkFault
  Script.request (.detachShader p.handle vertex)
  Script.request (.detachShader p.handle fragment)
  match fault with
  | some log => return .error (.programLink log)
  | none => return .ok ()

/-- Compiles both shaders and links them, as long as all goes well. -/
def build (p : Program) (vertex fragment : Handle) (vertexSource fragmentSource : String) :
    Script (Outcome Unit) := do
  match ← compile .vertex vertex vertexSource with
  | .error failure => return .error failure
  | .ok () =>
    match ← compile .fragment fragment fragmentSource with
    | .error failure => return .error failure
    | .ok () => p.linkShaders vertex fragment

/-- Asks for `count` variables one by one, from the `i`-th on. -/
def collect (ask : Nat → Request Variable) : (count i : Nat) → Script (List Variable)
  | 0, _ => return []
  | count + 1, i => do
    let v ← Script.request (ask i)
    return v :: (← collect ask count (i + 1))

/-- The variables that the device reports for the linked program. -/
def reported (p : Program) : Script (List Variable) := do
  let attributes ← collect (.activeAttribute p.handle)
    (← Script.request (.attributeCount p.handle)) 0
  let uniforms ← collect (.activeUniform p.handle)
    (← Script.request (.uniformCount p.handle)) 0
  return attributes ++ uniforms

/-- Gives the program new code.  It is unlinked until that has succeeded. -/
def setShaders (p : Program) (vertexSource fragmentSource : String) :
    Script (Outcome Unit × Program) := do
  let vertex ← Script.request (.createShader .vertex)
  let fragment ← Script.request (.createShader .fragment)
  let built ← p.build vertex fragment vertexSource fragmentSource
  Script.request (.deleteShader vertex)
  Script.request (.deleteShader fragment)
  match built with
  | .error failure => return (.error failure, { p with linked := false })
  | .ok () =>
    let cache := LinkCache.fresh (← p.reported)
    Script.note (.linked p.handle cache.active.length)
    return (.ok (), { p with linked := true, cache })

end DrawStream.Program
