import DrawStream.Proofs.Agreement

/-! # Buffers and textures keep in step with the device

Each operation binds its object first, so that the requests that follow speak of it; what
the device then holds is what the object remembers.  A write is let through only if it
stays inside, and the rows of a block of texels are aligned so that none has a gap behind
it (`Texture.paddedLength_of_dvd`). -/
namespace DrawStream
open Machine

/-! ## Buffers -/

namespace Buffer
variable {b : Buffer} {m : Machine} {deed : Option Deed} {links : Bool} {object : Object}

theorem always_activate {post : Unit → Machine → Prop}
    (hpost : post () (m.bindBuffer b.target.number b.handle)) :
    b.activate.Always (watch deed links) post m :=
  always_plain rfl rfl hpost

theorem always_deactivate {post : Unit → Machine → Prop}
    (hpost : post () (m.bindBuffer b.target.number 0)) :
    b.deactivate.Always (watch deed links) post m :=
  always_plain rfl rfl hpost

theorem always_delete :
    b.delete.Always (watch deed links) (fun _ m' => m.toStore.Steady b.handle m'.toStore) m := by
  refine always_plain rfl rfl ?_
  exact .update_sizes 0

theorem always_setSize {bytes : Nat} (hb : b.Agrees m.toStore) (hbytes : bytes ≤ greatestSize)
    (hobject : object.buffer? = some b) :
    (b.setSize bytes).Always (watch (some ⟨object, .bufferSetSize bytes⟩) links)
      (fun b' m' => m.toStore.Steady b.handle m'.toStore ∧ b'.handle = b.handle ∧
        b'.Agrees m'.toStore) m := by
  unfold setSize
  split
  · exact ⟨.refl _ _, rfl, hb⟩
  · simp only [Dialogue.bind_eq, Script.always_bind]
    refine always_activate (always_call rfl ?_ (always_watch_note _ ?_))
    · exact ⟨trivial, trivial, ⟨object, b, rfl, hobject, m.buffers_bindBuffer _ _⟩, trivial⟩
    · simp only [obey, buffers_bindBuffer]
      exact ⟨.update_sizes bytes, rfl, Function.update_self .., hbytes⟩

theorem always_setData {offset : Nat} {data : Elements} (hb : b.Agrees m.toStore)
    (hobject : object.buffer? = some b) :
    (b.setData offset data).Always (watch (some ⟨object, .bufferSetData offset data⟩) links)
      (fun _ m' => m'.toStore = m.toStore) m := by
  unfold setData
  split
  · exact rfl
  · next hfits =>
    have hend : offset + data.byteLength ≤ b.size := by
      refine le_of_rangeFits ?_
      simpa using hfits
    simp only [Dialogue.bind_eq, Script.always_bind]
    refine always_activate (always_call rfl ?_ rfl)
    refine ⟨trivial, trivial, ⟨object, b, data, rfl, hobject, m.buffers_bindBuffer _ _, rfl, ?_⟩,
      trivial⟩
    exact Nat.le_trans hend (Nat.le_of_eq hb.size.symm)

end Buffer

/-! ## Textures -/

namespace Texture
variable {t : Texture} {m : Machine} {deed : Option Deed} {links : Bool}

/-- Rows that fill multiples of the alignment are read without gaps. -/
theorem paddedLength_of_dvd {alignment rows rowBytes : Nat} (hpos : 0 < alignment)
    (h : alignment ∣ rowBytes) : paddedLength alignment rows rowBytes = rows * rowBytes := by
  obtain ⟨k, rfl⟩ := h
  have hdiv : (alignment * k + alignment - 1) / alignment = k := by
    rw [Nat.div_eq_iff hpos, Nat.mul_comm k]
    omega
  rw [paddedLength, hdiv, Nat.mul_comm k]

/-- Two rows of nine bytes have gaps at the default alignment, and none at another. -/
example : paddedLength 4 2 9 = 24 ∧ paddedLength (rowAlignment 9) 2 9 = 18 := by decide

theorem eq_of_deviceShape {s : TextureStorage} {width height : Int}
    (h : deviceShape s = .ok (width, height)) : width = s.width ∧ height = s.height := by
  obtain ⟨w, hwidth, hrest⟩ := ok_of_bind h
  obtain ⟨k, hheight, hpair⟩ := ok_of_bind hrest
  cases hpair
  exact ⟨eq_of_quantity hwidth, eq_of_quantity hheight⟩

/-- A block that is let through lies inside the storage, and the data fills it. -/
theorem of_checkBlock {storage : TextureStorage} {offset shape : Extent} {data : Elements}
    {block : Block} (h : checkBlock storage offset shape data = .ok block) :
    offset.1 + shape.1 ≤ storage.height ∧ offset.2 + shape.2 ≤ storage.width ∧
      data.length = shape.1 * rowLength storage shape ∧
      block = ⟨offset.2, offset.1, shape.2, shape.1⟩ := by
  unfold checkBlock at h
  split at h
  · cases h
  · next hregion =>
    dsimp only at h
    split at h
    · cases h
    · next hlength =>
      -- All four numbers reach the device as they are.
      obtain ⟨x, hx, h⟩ := ok_of_bind h
      obtain ⟨y, hy, h⟩ := ok_of_bind h
      obtain ⟨width, hwidth, h⟩ := ok_of_bind h
      obtain ⟨height, hheight, h⟩ := ok_of_bind h
      cases h
      simp only [Bool.or_eq_true, Bool.not_eq_true', not_or, Bool.not_eq_false] at hregion
      refine ⟨le_of_rangeFits hregion.1, le_of_rangeFits hregion.2, not_not.mp hlength, ?_⟩
      rw [eq_of_quantity hx, eq_of_quantity hy, eq_of_quantity hwidth, eq_of_quantity hheight]

/-! ### Texture operations -/

/-- After binding, the texture is the one that requests for its target speak of. -/
theorem bound : (m.bindTexture target t.handle).activeTexture = t.handle := by
  simp [Machine.activeTexture, Machine.bindTexture, target]

theorem always_activate {post : Unit → Machine → Prop}
    (hpost : post () (m.bindTexture target t.handle)) :
    t.activate.Always (watch deed links) post m :=
  always_plain rfl rfl hpost

theorem always_deactivate {post : Unit → Machine → Prop}
    (hpost : post () (m.bindTexture target 0)) :
    t.deactivate.Always (watch deed links) post m :=
  always_plain rfl rfl hpost

theorem always_delete :
    t.delete.Always (watch deed links) (fun _ m' => m.toStore.Steady t.handle m'.toStore) m := by
  refine always_plain rfl rfl ?_
  exact .update_images none

theorem always_setWrapping {s r : TextureWrap} :
    (t.setWrapping s r).Always (watch deed links) (fun _ m' => m'.toStore = m.toStore) m := by
  simp only [setWrapping, Dialogue.bind_eq, Script.always_bind]
  refine always_activate (always_idle (fun _ => rfl) fun _ _ => ?_)
  exact always_idle (fun _ => rfl) fun _ _ => rfl

theorem always_setInterpolation {min mag : TextureFilter} :
    (t.setInterpolation min mag).Always (watch deed links)
      (fun _ m' => m'.toStore = m.toStore) m := by
  simp only [setInterpolation, Dialogue.bind_eq, Script.always_bind]
  refine always_activate (always_idle (fun _ => rfl) fun _ _ => ?_)
  exact always_idle (fun _ => rfl) fun _ _ => rfl

theorem always_setStorage {storage : TextureStorage} (ht : t.Agrees m.toStore) :
    (t.setStorage storage).Always (watch (some ⟨.texture t, .textureSetSize storage⟩) links)
      (fun r m' => m.toStore.Steady t.handle m'.toStore ∧ r.2.handle = t.handle ∧
        r.2.Agrees m'.toStore) m := by
  unfold setStorage
  split
  · exact ⟨.refl _ _, rfl, ht⟩
  · split
    · exact ⟨.refl _ _, rfl, ht⟩
    · next width height hshape =>
      obtain ⟨rfl, rfl⟩ := eq_of_deviceShape hshape
      simp only [Dialogue.bind_eq, Script.always_bind]
      refine always_activate (always_call rfl ?_ (always_watch_note _ ?_))
      · exact ⟨trivial, trivial, trivial, t, storage, rfl, bound, rfl⟩
      · simp only [obey, bound]
        exact ⟨.update_images _, rfl, Function.update_self ..⟩

/-- Setting the alignment, or leaving it where it is right already. -/
theorem always_align {alignment value : Nat} {post : Unit → Machine → Prop}
    (hright : alignment = defaultAlignment → m.alignment = value)
    (hpost : post () { m with alignment := value }) :
    (align alignment value).Always (watch deed links) post m := by
  unfold align
  split
  · exact always_plain rfl rfl hpost
  · next h =>
    -- Nothing is asked, and the alignment is the wanted one already.
    obtain ⟨⟨uniforms, sizes, images, alignment⟩, _⟩ := m
    cases hright (not_not.mp h)
    exact hpost

/-- A block is written with an alignment that leaves no gaps, and the alignment is the
default one again afterwards. -/
theorem always_setData {offset shape : Extent} {data : Elements} (ht : t.Agrees m.toStore)
    (hm : m.alignment = defaultAlignment) :
    (t.setData offset shape data).Always
      (watch (some ⟨.texture t, .textureSetData offset shape data⟩) links)
      (fun _ m' => m'.toStore = m.toStore) m := by
  unfold setData
  split
  · exact rfl
  · next storage hstorage =>
    split
    · exact rfl
    · next block hblock =>
      obtain ⟨hheight, hwidth, hlength, rfl⟩ := of_checkBlock hblock
      have himage : m.images t.handle = some storage.image := by
        rw [ht, hstorage]
        rfl
      simp only [write, Dialogue.bind_eq, Script.always_bind]
      -- The write comes between two settings of the alignment, which the default one needs
      -- neither of.
      refine always_activate (always_align (fun h => hm.trans (h ▸ rfl)) ?_)
      refine always_call rfl ?_ (always_align (fun h => ?_) ?_)
      · have hbytes : data.byteLength =
            shape.1 * (shape.2 * storage.format.components * data.type.byteSize) := by
          rw [Elements.byteLength, hlength, rowLength, Nat.mul_assoc]
        refine ⟨trivial, trivial, trivial, t, storage, offset, shape, data, rfl, rfl, rfl, rfl, ?_⟩
        refine ⟨bound (m := m) (t := t), hstorage, himage, hheight, hwidth, rfl, ?_, ?_⟩
        · rw [hbytes]
          simp only [Nat.mul_assoc]
        · refine ⟨rowAlignment (rowLength storage shape * data.type.byteSize), rfl,
            rowAlignment_dvd _, ?_⟩
          rw [hbytes]
          exact paddedLength_of_dvd (rowAlignment_pos _) (rowAlignment_dvd _)
      · exact congrArg Nat.cast h
      · change ({ m.toStore with alignment := (defaultAlignment : Nat) } : Store) = m.toStore
        rw [← hm]

end Texture
end DrawStream
