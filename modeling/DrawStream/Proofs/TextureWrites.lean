import DrawStream.Proofs.Storage

/-! # Which writes to a texture are let through

A write looks at the storage, at the block and at the length of the data, in that order, and
only then converts its numbers for the device.  It multiplies lengths without looking whether
the products still have 64 bits.  None of that can go wrong: storage is allocated only with a
height and a width that the device takes (`Texture.Within`), and a block that lies inside such
a storage is no greater (`Texture.products_of_fits`).  So a write is let through just if it fits,
and is refused for the first thing that does not (`Texture.write_decided`). -/
namespace DrawStream

/-- The device takes any number that is not too great. -/
theorem quantity_of_le {what : Quantity} {value : Nat} (h : value ≤ greatestQuantity) :
    quantity what value = .ok (value : Int) :=
  if_pos h

theorem le_of_quantity {what : Quantity} {value : Nat} {n : Int}
    (h : quantity what value = .ok n) : value ≤ greatestQuantity := by
  unfold quantity at h
  split at h
  · next hle => exact hle
  · cases h

namespace TextureStorage

/-- The device takes the height and the width. -/
def Within (s : TextureStorage) : Prop :=
  s.height ≤ greatestQuantity ∧ s.width ≤ greatestQuantity

/-- A block lies inside the storage. -/
def Fits (s : TextureStorage) (offset shape : Extent) : Prop :=
  offset.1 + shape.1 ≤ s.height ∧ offset.2 + shape.2 ≤ s.width

instance (s : TextureStorage) (offset shape : Extent) : Decidable (s.Fits offset shape) :=
  inferInstanceAs (Decidable (_ ∧ _))

/-- The numbers that fill a block. -/
def blockLength (s : TextureStorage) (shape : Extent) : Nat :=
  shape.1 * shape.2 * s.format.components

end TextureStorage

namespace Texture
variable {s : TextureStorage} {offset shape : Extent} {data : Elements}

/-! ## Lengths -/

theorem components_le (format : TextureFormat) : format.components ≤ 4 := by
  cases format <;> decide

theorem byteSize_le (type : ElementType) : type.byteSize ≤ 4 := by
  cases type <;> decide

/-- None of the products that a write of a block computes goes beyond 64 bits: the number of
elements of a row and of the block, and the bytes of a row. -/
theorem products_of_fits (hs : s.Within) (h : s.Fits offset shape) (type : ElementType) :
    rowLength s shape ≤ greatestSize ∧ shape.1 * rowLength s shape ≤ greatestSize ∧
      rowLength s shape * type.byteSize ≤ greatestSize := by
  obtain ⟨hheight, hwidth⟩ := hs
  obtain ⟨hrows, hcolumns⟩ := h
  have hrow : rowLength s shape ≤ greatestQuantity * 4 :=
    Nat.mul_le_mul (by omega) (components_le s.format)
  have hblock : shape.1 * rowLength s shape ≤ greatestQuantity * (greatestQuantity * 4) :=
    Nat.mul_le_mul (by omega) hrow
  have hbytes : rowLength s shape * type.byteSize ≤ greatestQuantity * 4 * 4 :=
    Nat.mul_le_mul hrow (byteSize_le type)
  simp only [greatestQuantity, greatestSize] at *
  omega

/-- The block of the greatest storage comes as near to 64 bits as it gets. -/
example : greatestQuantity * (greatestQuantity * 4) + 17179869180 = greatestSize + 1 := by decide

/-! ## The checks of a write -/

/-- Ends of ranges that 64 bits cannot tell make no difference to what fits. -/
theorem region_iff (hs : s.Within) :
    (!rangeFits s.height offset.1 shape.1 || !rangeFits s.width offset.2 shape.2) = true ↔
      ¬ s.Fits offset shape := by
  obtain ⟨hheight, hwidth⟩ := hs
  have hsizes : greatestQuantity ≤ greatestSize := by decide
  have hrows : rangeFits s.height offset.1 shape.1 = true ↔ _ :=
    rangeFits_iff (Nat.le_trans hheight hsizes)
  have hcolumns : rangeFits s.width offset.2 shape.2 = true ↔ _ :=
    rangeFits_iff (Nat.le_trans hwidth hsizes)
  rw [TextureStorage.Fits, ← hrows, ← hcolumns]
  simp only [Bool.or_eq_true, Bool.not_eq_true', not_and_or, Bool.not_eq_true]

/-- The device takes all four numbers of a block that lies inside. -/
theorem quantities_of_fits (hs : s.Within) (h : s.Fits offset shape) :
    quantity .texelX offset.2 = .ok (offset.2 : Int) ∧
      quantity .texelY offset.1 = .ok (offset.1 : Int) ∧
      quantity .textureWidth shape.2 = .ok (shape.2 : Int) ∧
      quantity .textureHeight shape.1 = .ok (shape.1 : Int) := by
  obtain ⟨hheight, hwidth⟩ := hs
  obtain ⟨hrows, hcolumns⟩ := h
  refine ⟨quantity_of_le ?_, quantity_of_le ?_, quantity_of_le ?_, quantity_of_le ?_⟩ <;> omega

/-- What the checks of a write come to: the first of them that finds fault decides. -/
theorem checkBlock_eq (hs : s.Within) : checkBlock s offset shape data =
    if s.Fits offset shape then
      if data.length = s.blockLength shape then .ok ⟨offset.2, offset.1, shape.2, shape.1⟩
      else .error (.textureDataSize (s.blockLength shape) data.length)
    else .error (.textureRegion offset shape (s.height, s.width)) := by
  have hregion : _ ↔ ¬ s.Fits offset shape := region_iff hs
  have hlength : shape.1 * rowLength s shape = s.blockLength shape := by
    rw [rowLength, TextureStorage.blockLength, Nat.mul_assoc]
  unfold checkBlock
  by_cases hfits : s.Fits offset shape
  · obtain ⟨hx, hy, hwidth, hheight⟩ := quantities_of_fits hs hfits
    rw [if_neg fun h => hregion.mp h hfits, if_pos hfits, hlength]
    by_cases hdata : data.length = s.blockLength shape
    · rw [if_pos hdata]
      simp only [hdata, ne_eq, not_true_eq_false, if_false, hx, hy, hwidth, hheight]
      rfl
    · rw [if_neg hdata]
      simp only [ne_eq, hdata, not_false_eq_true, if_true]
      rfl
  · rw [if_pos (hregion.mpr hfits), if_neg hfits]
    rfl

/-! ## Whatever has been done with a texture -/

/-- Something that is done with a texture. -/
inductive Operation
  | setStorage (storage : TextureStorage)
  | setData (offset shape : Extent) (data : Elements)
  | setWrapping (s t : TextureWrap)
  | setInterpolation (min mag : TextureFilter)
  | activate
  | deactivate

namespace Operation

/-- Does something with a texture. -/
def perform (t : Texture) : Operation → Script (Outcome Unit × Texture)
  | setStorage storage => t.setStorage storage
  | setData offset shape data => do return (← t.setData offset shape data, t)
  | setWrapping s r => do
    t.setWrapping s r
    return (.ok (), t)
  | setInterpolation min mag => do
    t.setInterpolation min mag
    return (.ok (), t)
  | activate => do
    t.activate
    return (.ok (), t)
  | deactivate => do
    t.deactivate
    return (.ok (), t)

end Operation

section Uses
variable {σ : Type} [Device σ]

/-- The texture after operations, each on a device in a state of its own. -/
def now (t : Texture) : List (Operation × σ) → Texture
  | [] => t
  | (o, d) :: rest => now ((o.perform t).run d).value.2 rest

/-- The device takes the height and the width of what is allocated. -/
def Within (t : Texture) : Prop := ∀ s, t.storage = some s → s.Within

theorem within_of_deviceShape {storage : TextureStorage} {shape : Int × Int}
    (h : deviceShape storage = .ok shape) : storage.Within := by
  obtain ⟨width, hwidth, hrest⟩ := ok_of_bind h
  obtain ⟨height, hheight, -⟩ := ok_of_bind hrest
  exact ⟨le_of_quantity hheight, le_of_quantity hwidth⟩

/-- Storage is allocated only with a height and a width that the device takes. -/
theorem Within.setStorage {t : Texture} (h : t.Within) (storage : TextureStorage) (d : σ) :
    ((t.setStorage storage).run d).value.2.Within := by
  unfold Texture.setStorage
  split
  · exact h
  · split
    · exact h
    · next width height hshape =>
      intro s hs
      cases (Option.some.inj hs : storage = s)
      exact within_of_deviceShape hshape

/-- Nothing that is done with a texture takes its storage beyond that. -/
theorem Within.perform {t : Texture} (h : t.Within) (o : Operation) (d : σ) :
    ((o.perform t).run d).value.2.Within := by
  cases o with
  | setStorage storage => exact h.setStorage storage d
  | setData | setWrapping | setInterpolation | activate | deactivate =>
    simpa [Operation.perform, Script.run_bind] using h

theorem Within.now {t : Texture} (h : t.Within) (uses : List (Operation × σ)) :
    (t.now uses).Within := by
  induction uses generalizing t with
  | nil => exact h
  | cons use rest ih => exact ih (h.perform use.1 use.2)

end Uses

/-! ## What can be relied on -/

/-- The first thing about a write that does not fit, if anything does not. -/
def misfit? (t : Texture) (offset shape : Extent) (length : Nat) : Option Failure :=
  match t.storage with
  | none => some .textureNotAllocated
  | some s =>
    if ¬ s.Fits offset shape then some (.textureRegion offset shape (s.height, s.width))
    else if length ≠ s.blockLength shape then
      some (.textureDataSize (s.blockLength shape) length)
    else none

theorem misfit?_eq_none_iff {t : Texture} {length : Nat} :
    t.misfit? offset shape length = none ↔ ∃ s, t.storage = some s ∧
      offset.1 + shape.1 ≤ s.height ∧ offset.2 + shape.2 ≤ s.width ∧
      length = shape.1 * shape.2 * s.format.components := by
  unfold misfit?
  cases t.storage with
  | none => simp
  | some s =>
    by_cases hfits : s.Fits offset shape
    · by_cases hlength : length = s.blockLength shape
      · simp only [hfits, hlength, not_true_eq_false, if_false, ne_eq, true_iff]
        exact ⟨s, rfl, hfits.1, hfits.2, rfl⟩
      · simp only [hfits, hlength, not_true_eq_false, if_false, ne_eq, not_false_eq_true, if_true]
        refine ⟨fun h => absurd h (by simp), ?_⟩
        rintro ⟨s', hs', -, -, hlength'⟩
        cases hs'
        exact absurd hlength' hlength
    · simp only [hfits, not_false_eq_true, if_true]
      refine ⟨fun h => absurd h (by simp), ?_⟩
      rintro ⟨s', hs', hrows, hcolumns, -⟩
      cases hs'
      exact absurd ⟨hrows, hcolumns⟩ hfits

/-- A write that does not fit is never refused for a number that is too great. -/
theorem misfit?_ne_outOfRange {t : Texture} {length : Nat} (what : Quantity) (value : Nat) :
    t.misfit? offset shape length ≠ some (.outOfRange what value) := by
  unfold misfit?
  split
  · simp
  · split
    · simp
    · split <;> simp

/-- A write is refused for what does not fit, and for nothing else. -/
theorem value_setData {σ : Type} [Device σ] {t : Texture} (h : t.Within) (d : σ) :
    ((t.setData offset shape data).run d).value =
      match t.misfit? offset shape data.length with
      | some failure => .error failure
      | none => .ok () := by
  unfold setData misfit?
  cases hstorage : t.storage with
  | none => rfl
  | some s =>
    dsimp only
    rw [checkBlock_eq (h s hstorage)]
    by_cases hfits : s.Fits offset shape
    · by_cases hdata : data.length = s.blockLength shape
      · simp [hfits, hdata, Script.run_bind]
      · simp [hfits, hdata]
    · simp [hfits]

/-- What becomes of a write to a texture. -/
structure WriteDecided (t : Texture) (offset shape : Extent) (data : Elements)
    (outcome : Outcome Unit) : Prop where
  /-- A write is let through just if storage is allocated, the block lies inside, and the data
  fills it. -/
  ok_iff : outcome = .ok () ↔ ∃ s, t.storage = some s ∧
    offset.1 + shape.1 ≤ s.height ∧ offset.2 + shape.2 ≤ s.width ∧
    data.length = shape.1 * shape.2 * s.format.components
  /-- Otherwise it is refused for the first of these that fails. -/
  error_iff : ∀ failure, outcome = .error failure ↔
    t.misfit? offset shape data.length = some failure
  /-- No product that is computed, for a block that lies inside, goes beyond 64 bits. -/
  products : ∀ s, t.storage = some s → s.Fits offset shape →
    rowLength s shape ≤ greatestSize ∧ shape.1 * rowLength s shape ≤ greatestSize ∧
      rowLength s shape * data.type.byteSize ≤ greatestSize
  /-- No number of such a block is too great for the device. -/
  quantities : ∀ s, t.storage = some s → s.Fits offset shape →
    quantity .texelX offset.2 = .ok (offset.2 : Int) ∧
      quantity .texelY offset.1 = .ok (offset.1 : Int) ∧
      quantity .textureWidth shape.2 = .ok (shape.2 : Int) ∧
      quantity .textureHeight shape.1 = .ok (shape.1 : Int)
  /-- So that is never what a write is refused for. -/
  inRange : ∀ what value, outcome ≠ .error (.outOfRange what value)

/-- **A write is let through just if it fits**, and is otherwise refused for the first thing that
does not fit, whatever has been done with the texture before, and on whatever devices. -/
theorem write_decided {σ : Type} [Device σ] (handle : Handle) (uses : List (Operation × σ))
    (offset shape : Extent) (data : Elements) (d : σ) :
    WriteDecided (now { handle } uses) offset shape data
      (((now { handle } uses).setData offset shape data).run d).value := by
  have hwithin : (now { handle } uses).Within :=
    Within.now (t := { handle }) (fun s hs => by cases hs) uses
  generalize now { handle } uses = t at hwithin ⊢
  rw [value_setData hwithin]
  refine ⟨?_, ?_, ?_, ?_, ?_⟩
  · rw [← misfit?_eq_none_iff]
    cases t.misfit? offset shape data.length <;> simp
  · intro failure
    cases t.misfit? offset shape data.length <;> simp
  · exact fun s hs hfits => products_of_fits (hwithin s hs) hfits data.type
  · exact fun s hs hfits => quantities_of_fits (hwithin s hs) hfits
  · intro what value
    have hother : t.misfit? offset shape data.length ≠ some (.outOfRange what value) :=
      misfit?_ne_outOfRange what value
    cases hmisfit : t.misfit? offset shape data.length with
    | none => simp
    | some failure =>
      rw [hmisfit] at hother
      simpa using hother

end Texture
end DrawStream
