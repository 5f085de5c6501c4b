import DrawStream.Proofs.Demands
import DrawStream.Proofs.Monitor

/-! # What is known of an object agrees with what the device holds for it

An object remembers what it was told: a buffer its size, a texture its storage, a program
the units of its samplers.  It relies on that instead of asking the device, so it has to be
what a machine that obeys would hold (`Object.Agrees`).  Work on one object keeps to what
is held for it and leaves the rest of the store alone (`Store.Steady`), so the other
objects go on agreeing.

`Machine.watch` turns the machine and the demands on it into a monitor of scripts.  What is
shown of an operation, in the modules that follow, is always that the monitor is content
with it and what store it leaves. -/
namespace DrawStream

/-- Only what is held for one object may differ. -/
structure Store.Steady (handle : Handle) (s s' : Store) : Prop where
  uniforms : ∀ k, k ≠ handle → s'.uniforms k = s.uniforms k
  sizes : ∀ k, k ≠ handle → s'.sizes k = s.sizes k
  images : ∀ k, k ≠ handle → s'.images k = s.images k
  alignment : s'.alignment = s.alignment

namespace Store.Steady
variable {handle : Handle} {s s' : Store}

theorem refl (handle : Handle) (s : Store) : Steady handle s s :=
  ⟨fun _ _ => rfl, fun _ _ => rfl, fun _ _ => rfl, rfl⟩

theorem of_eq (h : s' = s) : Steady handle s s' := h ▸ refl handle s

/-! What is held for the object itself may be anything. -/

theorem update_uniforms (u : Int → Option Uniform) :
    Steady handle s { s with uniforms := Function.update s.uniforms handle u } := by
  refine ⟨?_, fun _ _ => rfl, fun _ _ => rfl, rfl⟩
  intro k hk
  exact Function.update_of_ne hk ..

theorem update_sizes (n : Nat) :
    Steady handle s { s with sizes := Function.update s.sizes handle n } := by
  refine ⟨fun _ _ => rfl, ?_, fun _ _ => rfl, rfl⟩
  intro k hk
  exact Function.update_of_ne hk ..

theorem update_images (image : Option Image) :
    Steady handle s { s with images := Function.update s.images handle image } := by
  refine ⟨fun _ _ => rfl, fun _ _ => rfl, ?_, rfl⟩
  intro k hk
  exact Function.update_of_ne hk ..

end Store.Steady

/-! ## Agreement -/

/-- The device holds as many bytes as the buffer was told. -/
structure Buffer.Agrees (b : Buffer) (s : Store) : Prop where
  size : s.sizes b.handle = b.size
  /-- Sizes have 64 bits. -/
  le : b.size ≤ greatestSize

/-- The device holds the storage that the texture was told. -/
def Texture.Agrees (t : Texture) (s : Store) : Prop :=
  s.images t.handle = t.storage.map TextureStorage.image

/-- Every name stands once, and the samplers have the units from 0 on. -/
structure LinkCache.Coherent (c : LinkCache) : Prop where
  samplerNames : (c.samplers.map (·.name)).Nodup
  units : c.samplers.map (·.unit) = List.range c.samplers.length
  attributeNames : (c.attributes.map (·.name)).Nodup

/-- A uniform that was set for a sampler is at the location of its name and has the unit
at which the texture will be bound. -/
def LinkCache.Explains (c : LinkCache) (uniforms : Int → Option Uniform) : Prop :=
  ∀ location uniform object name target texture, uniforms location = some uniform →
    uniform.deed = some ⟨object, .bindSampler name target texture⟩ →
      c.locations.lookup name = some location ∧
        ∃ unit : Nat, ⟨name, target, texture, unit⟩ ∈ c.samplers ∧
          uniform.value = .ints [(unit : Int)]

/-- The device holds the units of the samplers. -/
structure Program.Agrees (p : Program) (s : Store) : Prop where
  coherent : p.cache.Coherent
  explains : p.cache.Explains (s.uniforms p.handle)

/-- What is known of the object is what the device holds for it. -/
def Object.Agrees : Object → Store → Prop
  | vertexBuffer b, s | indexBuffer b, s => b.Agrees s
  | texture t, s => t.Agrees s
  | program p, s => p.Agrees s

/-- What is held for other objects does not matter. -/
theorem Object.Agrees.steady {o : Object} {handle : Handle} {s s' : Store} (h : o.Agrees s)
    (hs : s.Steady handle s') (hne : o.handle ≠ handle) : o.Agrees s' := by
  cases o with
  | vertexBuffer b | indexBuffer b =>
    have hsize : s'.sizes b.handle = s.sizes b.handle := hs.sizes _ hne
    exact ⟨hsize.trans h.size, h.le⟩
  | texture t =>
    have himage : s'.images t.handle = s.images t.handle := hs.images _ hne
    exact himage.trans h
  | program p =>
    have huniforms : s'.uniforms p.handle = s.uniforms p.handle := hs.uniforms _ hne
    refine ⟨h.coherent, ?_⟩
    rw [huniforms]
    exact h.explains

/-! ## Watching a deed -/

/-- The answer tells whether links succeed, if it is about that. -/
def LinksAs (links : Bool) : {β : Type} → Request β → β → Prop
  | _, .linkStatus _, b => b = links
  | _, _, _ => True

/-- Calls that demand something of the machine. -/
def Call.demanding : Call → Bool
  | .uniformFloats .. | .uniformInts .. | .uniformMatrix .. | .uniformInt .. | .drawArrays ..
  | .drawElements .. | .bufferStorage .. | .bufferWrite .. | .textureStorage ..
  | .textureWrite .. => true
  | _ => false

/-- Calls that demand nothing of the machine and do nothing to it. -/
def Call.idle : Call → Bool
  | .deleteProgram _ | .validateProgram _ | .createShader .. | .shaderSource _
  | .compileShader _ | .attachShader .. | .detachShader .. | .deleteShader _
  | .uniformLocation _ | .attributeLocation _ | .getError | .textureParameter .. => true
  | _ => false

namespace Machine

/-- Lets the machine obey the calls of a deed and looks at the demands of each. -/
def watch (deed : Option Deed) (links : Bool) : Monitor Machine where
  allows := LinksAs links
  admits m
    | .call c => m.Fits ⟨c, deed, links⟩
    | .note _ => True
  next m
    | .call c => m.obey ⟨c, deed, links⟩
    | .note _ => m

variable {m : Machine} {deed : Option Deed} {links : Bool} {β : Type}

theorem fits_of_not_demanding {c : Call} (h : c.demanding = false) :
    m.Fits ⟨c, deed, links⟩ := by
  cases c <;> first | exact ⟨trivial, trivial, trivial, trivial⟩ | cases h

theorem not_demanding_of_idle {c : Call} (h : c.idle = true) : c.demanding = false := by
  cases c <;> first | rfl | cases h

theorem obey_of_idle {c : Call} (h : c.idle = true) : m.obey ⟨c, deed, links⟩ = m := by
  cases c <;> first | rfl | cases h

/-- A request that leaves a call. -/
theorem always_call {r : Request Unit} {c : Call} {post : Unit → Machine → Prop}
    (hc : Call.ofAnswer? r () = some c) (hfits : m.Fits ⟨c, deed, links⟩)
    (hpost : post () (m.obey ⟨c, deed, links⟩)) :
    (Script.request r).Always (watch deed links) post m := by
  rw [Script.always_request]
  intro _ _
  rw [hc]
  exact ⟨⟨hfits, trivial⟩, hpost⟩

/-- A request that leaves a call which demands nothing. -/
theorem always_plain {r : Request Unit} {c : Call} {post : Unit → Machine → Prop}
    (hc : Call.ofAnswer? r () = some c) (hplain : c.demanding = false)
    (hpost : post () (m.obey ⟨c, deed, links⟩)) :
    (Script.request r).Always (watch deed links) post m :=
  always_call hc (fits_of_not_demanding hplain) hpost

/-- A request that means nothing to the machine. -/
theorem always_idle {r : Request β} {post : β → Machine → Prop}
    (hr : ∀ b, (Call.ofAnswer? r b).all Call.idle = true)
    (hpost : ∀ b, LinksAs links r b → post b m) :
    (Script.request r).Always (watch deed links) post m := by
  rw [Script.always_request]
  intro b hb
  have hidle := hr b
  -- Some requests leave no call at all, and the calls of the others are idle.
  cases hc : Call.ofAnswer? r b with
  | none => exact ⟨trivial, hpost b hb⟩
  | some c =>
    rw [hc] at hidle
    refine ⟨⟨fits_of_not_demanding (not_demanding_of_idle hidle), trivial⟩, ?_⟩
    change post b (m.obey _)
    rw [obey_of_idle hidle]
    exact hpost b hb

theorem always_watch_note (n : Note) {post : Unit → Machine → Prop} (hpost : post () m) :
    (Script.note n).Always (watch deed links) post m := ⟨trivial, hpost⟩

theorem always_watch_checkErrors {checkpoint : String} {post : Outcome Unit → Machine → Prop}
    (hpost : ∀ outcome, post outcome m) :
    (Script.checkErrors checkpoint).Always (watch deed links) post m :=
  have hfits : m.Fits ⟨.getError, deed, links⟩ := fits_of_not_demanding rfl
  Script.always_checkErrors hfits rfl hpost

end Machine
end DrawStream
