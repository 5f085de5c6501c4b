import DrawStream.Program.Basic

/-! # Drawing

A draw makes the program current, binds the texture of every sampler and the source of
every attribute, and only then draws.  Samplers and attributes are kept in tables, so the
order in which they are bound may be another one at every draw.  The first draw of a link
that gets so far has the device validate the program, now that all texture units are
settled.  The device is asked for errors before and after. -/
namespace DrawStream

/-- Which vertices are drawn. -/
inductive Selection
  /-- As many indices, of this type, from an index buffer of the device. -/
  | elements (buffer : Handle) (type : IndexType) (count : Nat)
  /-- Consecutive vertices. -/
  | range (first count : Nat)
  deriving DecidableEq, Repr

/-- How many vertices are drawn. -/
def Selection.count : Selection → Nat
  | elements _ _ count | range _ count => count

/-- Binds the texture of a sampler to its unit. -/
def Sampler.bind (s : Sampler) : Script Unit := do
  Script.request (.activeTexture s.unit)
  Script.request (.bindTexture s.target s.texture)

/-- Connects the location of an attribute with its source. -/
def Attribute.bind (a : Attribute) : Script Unit := do
  match a.source with
  | .buffer handle stride offset =>
    Script.request (.bindBuffer BufferTarget.array.number handle)
    Script.request (.enableAttribute a.location)
    Script.request (.attributePointer a.location a.type.components a.type.number false stride
      offset)
  | .constant values =>
    Script.request (.bindBuffer BufferTarget.array.number 0)
    Script.request (.disableAttribute a.location)
    Script.request (.attributeValue a.location values)

namespace Program

/-- Does one thing after the other. -/
def inOrder {α : Type} (act : α → Script Unit) : List α → Script Unit
  | [] => return ()
  | a :: rest => do
    act a
    inOrder act rest

/-- Makes the program current and applies all that is recorded for it, in the orders in which
the two tables are gone through this time. -/
def bindAll (p : Program) : Script Unit := do
  p.activate
  inOrder Sampler.bind (← Script.arranged p.cache.samplers)
  inOrder Attribute.bind (← Script.arranged p.cache.attributes)

/-- Names in the order of their characters. -/
def sortNames (names : List String) : List String := names.mergeSort

/-- Has the device validate the program, with a note on variables that have no value. -/
def validate (p : Program) : Script (Outcome Unit) := do
  if !p.cache.unset.isEmpty then
    Script.note (.unsetVariables (sortNames p.cache.unset))
  Script.request (.validateProgram p.handle)
  if ← Script.request (.validateStatus p.handle) then return .ok ()
  return .error (.programValidation (← Script.request (.programLog p.handle)))

/-- Has the device validate the program once per link. -/
def validateOnce (p : Program) : Script (Outcome Unit × Program) := do
  if p.cache.validated then return (.ok (), p)
  return (← p.validate, { p with cache := { p.cache with validated := true } })

/-- A draw call, with its numbers as the device takes them. -/
inductive DrawCall
  | elements (buffer : Handle) (type : IndexType) (count : Int)
  | range (first count : Int)
  deriving DecidableEq, Repr

/-- The draw call for a selection; the count is looked at first. -/
def drawCall (selection : Selection) : Outcome DrawCall := do
  let count ← quantity .drawCount selection.count
  match selection with
  | .elements buffer type _ => return .elements buffer type count
  | .range first _ => return .range (← quantity .firstVertex first) count

/-- Makes a draw call of the current program. -/
def DrawCall.issue (mode : DrawMode) : DrawCall → Script Unit
  | elements buffer type count => do
    Script.request (.bindBuffer BufferTarget.elements.number buffer)
    Script.request (.drawElements mode.number count type.number 0)
    Script.request (.bindBuffer BufferTarget.elements.number 0)
  | range first count => Script.request (.drawArrays mode.number first count)

/-- Draws; an empty selection does nothing. -/
def draw (p : Program) (mode : DrawMode) (selection : Selection) :
    Script (Outcome Unit × Program) := do
  if !p.linked then return (.error .programNotLinked, p)
  if selection.count = 0 then return (.ok (), p)
  match drawCall selection with
  | .error failure => return (.error failure, p)
  | .ok call =>
    match ← Script.checkErrors "before draw" with
    | .error failure => return (.error failure, p)
    | .ok () =>
      p.bindAll
      match ← p.validateOnce with
      | (.error failure, p) => return (.error failure, p)
      | (.ok (), p) =>
        call.issue mode
        return (← Script.checkErrors "after draw", p)

end Program
end DrawStream
