import DrawStream.Program.Set
import DrawStream.Texture.Basic
import DrawStream.Proofs.Topics

/-! # Setting variables, whatever they are

Uniforms, attributes and samplers are set in the same way: the name is looked up, the value
is looked at, the name is marked as set, and then something is recorded or sent.  An
`Assignment` is one of the three, and `Program.assign` is what they have in common; that
setting a uniform, an attribute or a sampler is nothing else is `perform_eq_assign`.

What a program knows of a name decides what an assignment does: it has a location for it
(`assign_of_located`), it knows that there is none (`assign_of_invalid`), or it has to ask
(`assign_of_unknown`) and then remembers the answer (`Program.learn`). -/
namespace DrawStream.Program

/-- A variable that is to be set. -/
inductive Assignment
  | uniform (name : String) (type : UniformType) (value : UniformValue)
  | «attribute» (name : String) (type : AttributeType) (source : AttributeSource)
  | sampler (name : String) (target : Nat) (texture : Handle)

namespace Assignment

/-- Sets the variable. -/
def perform (p : Program) : Assignment → Script (Outcome Unit × Program)
  | uniform name type value => p.setUniform name type value
  | «attribute» name type source => p.setAttribute name type source
  | sampler name target texture => p.bindSampler name target texture

/-- The name that is set. -/
def name : Assignment → String
  | uniform name _ _ | «attribute» name _ _ | sampler name _ _ => name

/-- What the name is looked up as. -/
def kind : Assignment → VariableKind
  | uniform .. | sampler .. => .uniform
  | «attribute» .. => .attribute

/-- The note on a variable that the program does not have. -/
def missing : Assignment → Note
  | uniform name _ _ | sampler name _ _ => .unknownVariable name .uniform
  | «attribute» name _ source => missingAttribute name source

/-- Why the value is refused, if it is. -/
def refusal? : Assignment → Option Failure
  | uniform name type value => (type.refusal? value).map (.uniformValue name)
  | «attribute» name type source => sourceFailure? name type source
  | sampler .. => none

/-- Elements of an array that get a value. -/
def elements : Assignment → Nat
  | uniform _ type value => value.length / type.components
  | «attribute» .. | sampler .. => 0

/-- The names that get a value: the name itself, and those of its elements. -/
def covers (a : Assignment) : List String :=
  a.name :: (List.range a.elements).map (elementName a.name)

/-- The locations that a value for a location is uploaded to. -/
def uploads (location : Int) : Assignment → List Int
  | uniform .. | sampler .. => [location]
  | «attribute» .. => []

/-- What is recorded of a variable at a location. -/
def store (location : Int) (c : LinkCache) : Assignment → LinkCache
  | uniform .. => c
  | «attribute» name type source => c.record ⟨name, location.toNat, type, source⟩
  | sampler name target texture => c.attach name target texture

/-- What is sent to the location of a variable. -/
def send (p : Program) (location : Int) : Assignment → Script Unit
  | uniform _ type value => do
    p.activate
    upload location type value
  | «attribute» .. => return ()
  | sampler name _ _ => do
    p.activate
    Script.request (.uniformInt location ((p.cache.unit? name).getD 0 : Nat))

end Assignment

variable (p : Program) (a : Assignment)

/-- The program with a variable marked as set and recorded. -/
def stored (location : Int) : Program :=
  { p with cache := a.store location (p.cache.markSet a.name a.elements) }

/-- Sets a variable that has a location, unless the value is refused. -/
def settle (location : Int) : Script (Outcome Unit × Program) :=
  match a.refusal? with
  | some failure => return (.error failure, p)
  | none => do
    a.send (p.stored a location) location
    return (.ok (), p.stored a location)

/-- Sets a variable. -/
def assign : Script (Outcome Unit × Program) := do
  if !p.linked then return (.error .programNotLinked, p)
  match ← p.lookup a.kind a.name with
  | (.knownInvalid, p) => return (.ok (), p)
  | (.newlyInvalid, p) =>
    Script.note a.missing
    return (.ok (), p)
  | (.found location, p) => p.settle a location

/-! ## The three are one -/

theorem uniformLocation_bind {γ : Type} (name : String) (f : Option Int × Program → Script γ) :
    Dialogue.bind (p.uniformLocation name) f =
      Dialogue.bind (p.lookup .uniform name) fun found =>
        match found with
        | (.found location, p) => f (some location, p)
        | (.knownInvalid, p) => f (none, p)
        | (.newlyInvalid, p) =>
          Dialogue.bind (Script.note (.unknownVariable name .uniform)) fun _ => f (none, p) := by
  simp only [uniformLocation, Dialogue.bind_eq, Dialogue.bind_assoc]
  refine congrArg _ (funext fun found => ?_)
  obtain ⟨found, p⟩ := found
  cases found <;> rfl

/-- **Setting a uniform, an attribute or a sampler is an assignment.** -/
theorem perform_eq_assign : a.perform p = p.assign a := by
  cases a with
  | uniform name type value =>
    simp only [Assignment.perform, setUniform, assign, Dialogue.bind_eq, uniformLocation_bind]
    refine ite_congr rfl (fun _ => rfl) fun _ => congrArg _ (funext fun found => ?_)
    obtain ⟨found, p⟩ := found
    cases found with
    | found location =>
      simp only [settle, Assignment.refusal?]
      cases type.refusal? value with
      | some refusal => rfl
      | none => simp [Assignment.send, stored, Assignment.store, Assignment.name,
          Assignment.elements, Dialogue.bind_assoc, activate]
    | newlyInvalid | knownInvalid => rfl
  | «attribute» name type source =>
    simp only [Assignment.perform, setAttribute, assign, Dialogue.bind_eq]
    refine ite_congr rfl (fun _ => rfl) fun _ => congrArg _ (funext fun found => ?_)
    obtain ⟨found, p⟩ := found
    cases found with
    | found location =>
      simp only [settle, Assignment.refusal?]
      cases sourceFailure? name type source <;> rfl
    | newlyInvalid | knownInvalid => rfl
  | sampler name target texture =>
    simp only [Assignment.perform, bindSampler, assign, Dialogue.bind_eq, uniformLocation_bind]
    refine ite_congr rfl (fun _ => rfl) fun _ => congrArg _ (funext fun found => ?_)
    obtain ⟨found, p⟩ := found
    cases found <;> rfl

/-! ## What is known of a name -/

/-- What a program knows of a name once it has been told its location. -/
def learn (name : String) (location : Int) : Program :=
  if location < 0 then { p with cache := { p.cache with invalid := name :: p.cache.invalid } }
  else { p with cache := { p.cache with locations := (name, location) :: p.cache.locations } }

/-- Nothing is known of a name. -/
def Unknown (name : String) : Prop :=
  p.cache.locations.lookup name = none ∧ name ∉ p.cache.invalid

variable {p a}

theorem assign_of_unlinked (h : p.linked = false) :
    p.assign a = .done (.error .programNotLinked, p) := by
  simp [assign, h]

theorem assign_of_located (hlinked : p.linked = true) {location : Int}
    (h : p.cache.locations.lookup a.name = some location) : p.assign a = p.settle a location := by
  simp [assign, hlinked, lookup, h]

theorem assign_of_invalid (hlinked : p.linked = true)
    (hnone : p.cache.locations.lookup a.name = none) (h : a.name ∈ p.cache.invalid) :
    p.assign a = .done (.ok (), p) := by
  simp [assign, hlinked, lookup, hnone, h]

/-- A name is asked for once, and the answer is remembered. -/
theorem assign_of_unknown (hlinked : p.linked = true) (h : p.Unknown a.name) :
    p.assign a =
      Dialogue.bind (Script.request (p.locationRequest a.kind a.name)) fun location =>
        if location < 0 then
          Dialogue.bind (Script.note a.missing) fun _ => .done (.ok (), p.learn a.name location)
        else (p.learn a.name location).settle a location := by
  simp only [assign, hlinked, Bool.not_true, Bool.false_eq_true, if_false, lookup, h.1, if_neg h.2,
    Dialogue.bind_eq, Dialogue.bind_assoc]
  refine congrArg _ (funext fun location => ?_)
  by_cases hneg : location < 0 <;> simp [hneg, learn, hlinked]

end DrawStream.Program
