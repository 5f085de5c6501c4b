import DrawStream.Program.Basic

/-! # Setting the variables of a program

A name is looked up at the device once per link, whatever it is looked up as; afterwards
the program knows its location, or that it has none.  Setting a name without a location
does nothing, and is noted the first time.  A value that does not suit its type is
refused. -/
namespace DrawStream.Program

/-- What a program knows about a name. -/
inductive Lookup
  | found (location : Int)
  /-- The device has just said that there is no such variable. -/
  | newlyInvalid
  /-- The device has said so before. -/
  | knownInvalid
  deriving DecidableEq, Repr

/-- The request that looks a name up. -/
def locationRequest (p : Program) (kind : VariableKind) (name : String) : Request Int :=
  match kind with
  | .uniform => .uniformLocation p.handle name
  | .attribute => .attributeLocation p.handle name

/-- Looks a name up, at the device if it is new. -/
def lookup (p : Program) (kind : VariableKind) (name : String) : Script (Lookup × Program) := do
  match p.cache.locations.lookup name with
  | some location => return (.found location, p)
  | none =>
    if name ∈ p.cache.invalid then return (.knownInvalid, p)
    let location ← Script.request (p.locationRequest kind name)
    if location < 0 then
      return (.newlyInvalid,
        { p with cache := { p.cache with invalid := name :: p.cache.invalid } })
    return (.found location,
      { p with cache := { p.cache with locations := (name, location) :: p.cache.locations } })

/-- Looks a uniform up; none, with a note the first time, if there is no such uniform. -/
def uniformLocation (p : Program) (name : String) : Script (Option Int × Program) := do
  match ← p.lookup .uniform name with
  | (.found location, p) => return (some location, p)
  | (.knownInvalid, p) => return (none, p)
  | (.newlyInvalid, p) =>
    Script.note (.unknownVariable name .uniform)
    return (none, p)

/-- Whole numbers for a type that takes only such. -/
def wholeNumbers : UniformValue → List Int
  | .ints data => data
  | .floats data => data.map Single.toInt

/-- Sends a value to a location of the current program.  The value must suit the type. -/
def upload (location : Int) (type : UniformType) (value : UniformValue) : Script Unit :=
  match type.upload, value with
  | .floats n, .floats data => Script.request (.uniformFloats location n data)
  | .matrix dim, .floats data => Script.request (.uniformMatrix location dim data)
  | .ints n, value => Script.request (.uniformInts location n (wholeNumbers value))
  | .sampler, value => Script.request (.uniformInt location ((wholeNumbers value).headD 0))
  | .floats _, .ints _ | .matrix _, .ints _ => Script.note (.wholeNumbersRefused location)

/-- Gives a uniform a value; an array takes all its elements at once. -/
def setUniform (p : Program) (name : String) (type : UniformType) (value : UniformValue) :
    Script (Outcome Unit × Program) := do
  if !p.linked then return (.error .programNotLinked, p)
  match ← p.uniformLocation name with
  | (none, p) => return (.ok (), p)
  | (some location, p) =>
    match type.refusal? value with
    | some refusal => return (.error (.uniformValue name refusal), p)
    | none =>
      let count := value.length / type.components
      let p := { p with cache := p.cache.markSet name count }
      p.activate
      upload location type value
      return (.ok (), p)

/-- The note on an attribute that the program does not have.  A member of an
interleaved buffer often goes unused, so it is not worth a warning. -/
def missingAttribute (name : String) : AttributeSource → Note
  | .buffer _ _ offset =>
    if 0 < offset then .skippedAttribute name else .unknownVariable name .attribute
  | .constant _ => .unknownVariable name .attribute

/-- Why a source does not suit a type: it must give as many numbers as the type has. -/
def sourceFailure? (name : String) (type : AttributeType) : AttributeSource → Option Failure
  | .constant values =>
    if values.length = type.components then none
    else some (.attributeValue name values.length type)
  | .buffer .. => none

/-- Records the source of an attribute for the draws to come. -/
def setAttribute (p : Program) (name : String) (type : AttributeType)
    (source : AttributeSource) : Script (Outcome Unit × Program) := do
  if !p.linked then return (.error .programNotLinked, p)
  match ← p.lookup .attribute name with
  | (.knownInvalid, p) => return (.ok (), p)
  | (.newlyInvalid, p) =>
    Script.note (missingAttribute name source)
    return (.ok (), p)
  | (.found location, p) =>
    match sourceFailure? name type source with
    | some failure => return (.error failure, p)
    | none =>
      let cache := (p.cache.markSet name 0).record ⟨name, location.toNat, type, source⟩
      return (.ok (), { p with cache })

/-- Attaches a texture to a sampler and tells the device the sampler's unit, which is exact as
an integer of the device as long as it is exact as a unit (see `LinkCache.attach`). -/
def bindSampler (p : Program) (name : String) (target : Nat) (texture : Handle) :
    Script (Outcome Unit × Program) := do
  if !p.linked then return (.error .programNotLinked, p)
  match ← p.uniformLocation name with
  | (none, p) => return (.ok (), p)
  | (some location, p) =>
    let cache := (p.cache.markSet name 0).attach name target texture
    let p := { p with cache }
    p.activate
    Script.request (.uniformInt location ((cache.unit? name).getD 0 : Nat))
    return (.ok (), p)

end DrawStream.Program
