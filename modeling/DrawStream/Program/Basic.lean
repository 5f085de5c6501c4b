import DrawStream.Script
import DrawStream.Program.ActiveName

/-! # Programs

A program remembers what it has learnt and been told since it was last linked
(`LinkCache`): the active names and which of them have no value yet, the locations
found and the names without one, the textures of its samplers and the sources of its
attributes, and whether the device has validated it.  A successful link starts a
new cache; a failed one leaves the old cache in place, but the program cannot be
used.  Uniforms reach the device at once, samplers and attributes when the program
draws. -/
namespace DrawStream

/-- A texture attached to a sampler. -/
structure Sampler where
  name : String
  target : Nat
  texture : Handle
  /-- The texture unit of the sampler. -/
  unit : Nat
  deriving DecidableEq, Repr

/-- The source of an attribute, at its location. -/
structure Attribute where
  name : String
  location : Nat
  type : AttributeType
  source : AttributeSource
  deriving DecidableEq

/-- What a program remembers of one link. -/
structure LinkCache where
  /-- The names that the device reported, arrays element by element. -/
  active : List String := []
  /-- The active names without a value. -/
  unset : List String := []
  /-- The locations found. -/
  locations : List (String × Int) := []
  /-- The names that have no location. -/
  invalid : List String := []
  /-- A table by names, listed as its entries have come; it is gone through in any order. -/
  samplers : List Sampler := []
  /-- A table by names, as the samplers are. -/
  attributes : List Attribute := []
  validated : Bool := false
  deriving DecidableEq

/-- A program of the device. -/
structure Program where
  handle : Handle
  linked : Bool := false
  cache : LinkCache := {}
  deriving DecidableEq

namespace LinkCache

/-- The cache of a link that reported these variables. -/
def fresh (declared : List Variable) : LinkCache :=
  let names := Program.activeNames declared
  { active := names, unset := names }

/-- A name and its first `count` elements have a value now. -/
def markSet (c : LinkCache) (name : String) (count : Nat) : LinkCache :=
  let covered := name :: (List.range count).map (Program.elementName name)
  { c with unset := c.unset.filter fun n => !covered.contains n }

/-- The unit of a sampler that has one. -/
def unit? (c : LinkCache) (name : String) : Option Nat :=
  (c.samplers.find? (·.name == name)).map (·.unit)

/-- Attaches a texture to a sampler.  Its first texture gives a sampler the next unit,
which it keeps.  Units are counted without a bound: they are exact as long as a program has
fewer than 2³¹ samplers, the units that a device can be told of. -/
def attach (c : LinkCache) (name : String) (target : Nat) (texture : Handle) : LinkCache :=
  match c.unit? name with
  | some unit =>
    { c with samplers := c.samplers.map fun s =>
        if s.name = name then ⟨name, target, texture, unit⟩ else s }
  | none => { c with samplers := c.samplers ++ [⟨name, target, texture, c.samplers.length⟩] }

/-- Records the source of an attribute in place of an earlier one. -/
def record (c : LinkCache) (a : Attribute) : LinkCache :=
  if c.attributes.any (·.name == a.name) then
    { c with attributes := c.attributes.map fun b => if b.name = a.name then a else b }
  else { c with attributes := c.attributes ++ [a] }

end LinkCache

namespace Program

/-- Creates a program. -/
def create : Script Program := do
  return { handle := ← Script.request .createProgram }

/-- Makes the program the current one. -/
def activate (p : Program) : Script Unit := Script.request (.useProgram p.handle)

/-- Leaves the device without a current program. -/
def deactivate (_ : Program) : Script Unit := Script.request (.useProgram 0)

/-- Gives the program back to the device. -/
def delete (p : Program) : Script Unit := Script.request (.deleteProgram p.handle)

end Program
end DrawStream
