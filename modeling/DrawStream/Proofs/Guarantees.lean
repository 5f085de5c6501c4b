import DrawStream.Proofs.Runs

/-! # What can be relied on, whatever has been done

A run is a list of actions on a new bench: commands, in either mode, and work on objects,
in any order, at a recorder that starts out and is told to behave in any way.  Its trace is
what the device was asked for, and its history is the same calls with what each was made
for.  The machine obeys the history from its beginning.

Then draws find what was bound for them (`draws_find_bindings`), data lands in the storage
of its buffer (`buffers_hold_data`), and texels in that of their texture
(`textures_hold_texels`).  In the last two what a buffer or a texture remembers is also
what the device holds at the end of the run, and so after any part of it, since that is a
run too. -/
namespace DrawStream
open Machine

namespace Bench
variable (deferred : Bool) (usage : BufferUsage) (recorder : Recorder) (actions : List Action)

/-! ## Programs -/

/-- **Uploads reach their program, and draws find their bindings.**  Every value of a
uniform is uploaded while the program is current that it is meant for.  When a program
draws, it is current, the textures of its samplers are at the units that the samplers have
been told, and its attributes take their numbers from where it was told that they do. -/
theorem draws_find_bindings :
    ((fresh deferred usage recorder).history actions).map Entry.call =
        (fresh deferred usage recorder).trace actions ∧
      Throughout (fun m e => m.UploadFits e ∧ m.DrawFits e) {}
        ((fresh deferred usage recorder).history actions) := by
  obtain ⟨hfits, -⟩ := follows_fresh deferred usage recorder actions
  refine ⟨calls_history _ actions, hfits.mono ?_⟩
  intro m e h
  exact ⟨h.upload, h.draw⟩

end Bench

/-! ## Buffers -/

namespace Buffer
variable {b : Buffer} {offset : Nat} {data : Elements} {σ : Type} [Device σ]

/-- Data is uploaded, all its bytes and from its offset on, exactly if it fits; otherwise
it is refused, and the device is not asked anything. -/
def Guarded (b : Buffer) : Prop :=
  ∀ (σ : Type) [Device σ] (d : σ) (offset : Nat) (data : Elements),
    let bytes := data.length * data.type.byteSize
    let ran := Script.run (b.setData offset data) d
    data.bytes.length = bytes ∧
      (ran.value = .ok () ∧
          Event.calls ran.events = [.bindBuffer b.target.number b.handle,
            .bufferWrite b.target.number offset bytes] ↔
        offset + bytes ≤ b.size) ∧
      (b.size < offset + bytes → ran = ⟨.error (.bufferOverflow offset bytes b.size), d, []⟩)

theorem run_setData_of_fits (h : rangeFits b.size offset data.byteLength = true) (d : σ) :
    ((b.setData offset data).run d).value = .ok () ∧
      Event.calls ((b.setData offset data).run d).events =
        [.bindBuffer b.target.number b.handle,
          .bufferWrite b.target.number offset data.byteLength] := by
  simp only [setData, h, Bool.not_true, Bool.false_eq_true, if_false]
  exact ⟨rfl, rfl⟩

theorem run_setData_of_not_fits (h : rangeFits b.size offset data.byteLength = false) (d : σ) :
    (b.setData offset data).run d =
      ⟨.error (.bufferOverflow offset data.byteLength b.size), d, []⟩ := by
  simp only [setData, h, Bool.not_false, if_true]
  rfl

/-- Sizes with 64 bits are a sufficient guard, although offsets near the greatest number
would let the end of the data wrap around. -/
theorem guarded (hsize : b.size ≤ greatestSize) : b.Guarded := by
  intro σ _ d offset data
  -- What the check cuts off because 64 bits cannot tell it would not fit anyway.
  refine ⟨data.length_bytes, ?_, fun hover => ?_⟩
  · cases hfits : rangeFits b.size offset data.byteLength with
    | true =>
      have hle := (rangeFits_iff hsize).mp hfits
      exact ⟨fun _ => hle, fun _ => run_setData_of_fits hfits d⟩
    | false =>
      have hnot : ¬ offset + data.byteLength ≤ b.size := by
        rw [← rangeFits_iff hsize, hfits]
        exact Bool.false_ne_true
      refine ⟨fun hok => ?_, fun hle => absurd hle hnot⟩
      rw [run_setData_of_not_fits hfits] at hok
      cases hok.1
  · have hfits : rangeFits b.size offset data.byteLength = false := by
      rw [← Bool.not_eq_true, rangeFits_iff hsize]
      exact Nat.not_le_of_gt hover
    exact run_setData_of_not_fits hfits d

end Buffer

namespace Bench
variable (deferred : Bool) (usage : BufferUsage) (recorder : Recorder) (actions : List Action)

/-- **Data lands in the storage of its buffer.**  Storage and data reach the buffer that
they are meant for, and data stays inside what is allocated for it.  For every buffer that
there is, as many bytes are allocated as it remembers, and it takes exactly the data that
fits into them. -/
theorem buffers_hold_data :
    ((fresh deferred usage recorder).history actions).map Entry.call =
        (fresh deferred usage recorder).trace actions ∧
      Throughout BufferFits {} ((fresh deferred usage recorder).history actions) ∧
      ∀ place object b, ((fresh deferred usage recorder).actAll actions).at? place = some object →
        object.buffer? = some b →
          (run {} ((fresh deferred usage recorder).history actions)).sizes b.handle = b.size ∧
            b.Guarded := by
  obtain ⟨hfits, hend⟩ := follows_fresh deferred usage recorder actions
  refine ⟨calls_history _ actions, hfits.mono fun _ _ h => h.buffer, ?_⟩
  intro place object b hfound hbuffer
  have hagrees : b.Agrees (run {} ((fresh deferred usage recorder).history actions)).toStore := by
    have hobject := hend.agrees place object hfound
    cases object <;> cases hbuffer <;> exact hobject
  exact ⟨hagrees.size, Buffer.guarded hagrees.le⟩

/-- A vertex buffer of one's own that has been given eight bytes. -/
theorem vertices_hold_data :
    (run {} ((fresh false .dynamicDraw {}).history
      [.step (.create "vertices" .vertexBuffer none) trivial,
        .step (.work "vertices" (.bufferSetSize 8))
          (show 8 ≤ greatestSize by decide)])).sizes 1 = 8 ∧
      Buffer.Guarded ⟨1, .array, .dynamicDraw, 8⟩ := by
  obtain ⟨-, -, hlive⟩ := buffers_hold_data false .dynamicDraw {}
    [.step (.create "vertices" .vertexBuffer none) trivial,
      .step (.work "vertices" (.bufferSetSize 8)) (show 8 ≤ greatestSize by decide)]
  exact hlive (.inr "vertices") (.vertexBuffer ⟨1, .array, .dynamicDraw, 8⟩) _ rfl rfl

/-! ## Textures -/

/-- **Texels land in the storage of their texture.**  Storage and texels reach the texture
that they are meant for, texels stay inside what is allocated for it, and the device reads
them as they lie, since the alignment leaves no gaps between rows.  For every texture that
there is, what is allocated is what it remembers, and the alignment is the default one. -/
theorem textures_hold_texels :
    ((fresh deferred usage recorder).history actions).map Entry.call =
        (fresh deferred usage recorder).trace actions ∧
      Throughout TextureFits {} ((fresh deferred usage recorder).history actions) ∧
      (run {} ((fresh deferred usage recorder).history actions)).alignment = 4 ∧
      ∀ place t,
        ((fresh deferred usage recorder).actAll actions).at? place = some (.texture t) →
          (run {} ((fresh deferred usage recorder).history actions)).images t.handle =
            t.storage.map TextureStorage.image := by
  obtain ⟨hfits, hend⟩ := follows_fresh deferred usage recorder actions
  refine ⟨calls_history _ actions, hfits.mono fun _ _ h => h.texture, hend.alignment, ?_⟩
  exact fun place t hfound => hend.agrees place (.texture t) hfound

/-- A texture of one's own that has been given two rows of three texels. -/
theorem image_holds_texels :
    (run {} ((fresh false .dynamicDraw {}).history
      [.step (.create "image" .texture none) trivial,
        .step (.work "image" (.textureSetSize ⟨2, 3, .rgb⟩)) trivial])).images 1 =
      some ⟨2, 3, 0x1907⟩ := by
  obtain ⟨-, -, -, hlive⟩ := textures_hold_texels false .dynamicDraw {}
    [.step (.create "image" .texture none) trivial,
      .step (.work "image" (.textureSetSize ⟨2, 3, .rgb⟩)) trivial]
  exact hlive (.inr "image") ⟨1, some ⟨2, 3, .rgb⟩⟩ rfl

end Bench
end DrawStream
