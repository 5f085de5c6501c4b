import DrawStream.Proofs.Works

/-! # Executing commands keeps a context in step with the device

A command finds its objects and then does work on one of them, or creates one.  Whatever
becomes of it, at most one object of the context has been worked on, and the calls are
those that the deed of the command demands (`Context.always_execute`). -/
namespace DrawStream
open Machine
open Command (Id)

namespace Context
variable {c : Context} {id : Id} {deed : Option Deed} {links : Bool} {m : Machine}

theorem object?_of_object {o : Object} (h : c.object id = .ok o) : c.object? id = some o := by
  unfold object at h
  split at h
  · next hfound =>
    cases h
    exact hfound
  · cases h

theorem object?_of_program {p : Program} (h : c.program id = .ok p) :
    c.object? id = some (.program p) := by
  obtain ⟨o, ho, h⟩ := ok_of_bind h
  cases o <;> cases h
  exact object?_of_object ho

theorem program_of_object? {p : Program} (h : c.object? id = some (.program p)) :
    c.program id = .ok p := by
  simp only [program, object, h]
  rfl

/-- One object of a context after work on it. -/
theorem moved_put {o x : Object} {s s' : Store} (hfound : c.object? id = some o)
    (hkept : o.KeptAs s (some x) s') : Moved c.object? s (c.put id x).object? s' := by
  rw [object?_put]
  exact .work hfound hkept

/-- No object has changed, and nothing that is held. -/
theorem moved_same {s s' : Store} (hs : s' = s) : Moved c.object? s c.object? s' :=
  hs ▸ .same

theorem always_onProgram {act : Program → Script (Outcome Unit × Program)}
    (hact : ∀ p, c.object? id = some (.program p) →
      (act p).Always (watch deed links) (fun r m' => p.KeptAs m.toStore r.2 m'.toStore) m) :
    (c.onProgram id act).Always (watch deed links)
      (fun r m' => Moved c.object? m.toStore r.2.object? m'.toStore) m := by
  unfold onProgram
  split
  · exact .same
  · next p hp =>
    have hfound := object?_of_program hp
    refine (Script.always_bind _ _).mpr ((hact p hfound).mono fun r m' h => ?_)
    exact moved_put hfound (.of_agrees h.steady h.handle h.agrees)

theorem always_onTexture {act : Texture → Script Unit}
    (hact : ∀ t, (act t).Always (watch deed links) (fun _ m' => m'.toStore = m.toStore) m) :
    (c.onTexture id act).Always (watch deed links)
      (fun r m' => Moved c.object? m.toStore r.2.object? m'.toStore) m := by
  unfold onTexture
  split
  · exact .same
  · exact (Script.always_bind _ _).mpr ((hact _).mono fun _ _ hs => moved_same hs)

theorem always_delete :
    (c.delete id).Always (watch deed links)
      (fun r m' => Moved c.object? m.toStore r.2.object? m'.toStore) m := by
  unfold delete
  split
  · exact .same
  · next o ho =>
    refine (Script.always_bind _ _).mpr (always_watch_note _ ?_)
    refine (Script.always_bind _ _).mpr (Object.always_delete.mono fun _ m' hs => ?_)
    change Moved c.object? m.toStore (c.remove id).object? m'.toStore
    rw [object?_remove]
    exact .work (object?_of_object ho) (.gone hs)

/-- A number that a command carries has 64 bits. -/
theorem toNat_le_greatestSize (n : Command.Count) : n.toNat ≤ greatestSize := by
  have := n.le_greatest
  simp only [WordKind.greatest] at this
  simp only [Word.toNat, greatestSize]
  omega

/-- The deed of a command whose object and work are found. -/
theorem deed?_of_found (command : Command) {o : Object} {work : Bench.Work}
    (hfound : c.object? (Bench.addressee command) = some o)
    (hwork : c.workOf o command = some work) : c.deed? command = some ⟨o, work⟩ := by
  simp [deed?, hfound, hwork]

theorem always_setSize {storage : Command.Storage}
    (hagrees : ∀ id o, c.object? id = some o → o.Agrees m.toStore) :
    (c.setSize id storage).Always (watch (c.deed? (.size id storage)) links)
      (fun r m' => Moved c.object? m.toStore r.2.object? m'.toStore) m := by
  unfold setSize
  split
  · exact .same
  next o ho =>
  have hfound := object?_of_object ho
  have hobject := hagrees id o hfound
  split
  · next b n =>
    rw [deed?_of_found (.size id (.bytes n)) hfound rfl]
    refine (Script.always_bind _ _).mpr
      ((Buffer.always_setSize hobject (toNat_le_greatestSize n) rfl).mono ?_)
    rintro b' m' ⟨hsteady, hhandle, hb'⟩
    exact moved_put hfound (.of_agrees hsteady hhandle hb')
  · next b n =>
    rw [deed?_of_found (.size id (.bytes n)) hfound rfl]
    refine (Script.always_bind _ _).mpr
      ((Buffer.always_setSize hobject (toNat_le_greatestSize n) rfl).mono ?_)
    rintro b' m' ⟨hsteady, hhandle, hb'⟩
    exact moved_put hfound (.of_agrees hsteady hhandle hb')
  · next t height width format =>
    rw [deed?_of_found (.size id (.texture (height, width) format)) hfound rfl]
    refine (Script.always_bind _ _).mpr ((Texture.always_setStorage hobject).mono ?_)
    rintro r m' ⟨hsteady, hhandle, ht'⟩
    exact moved_put hfound (.of_agrees hsteady hhandle ht')
  · exact .same

theorem always_setBufferData {o : Object} {b : Buffer} {offset : Command.Offset}
    {shape : Option (Command.Count × Command.Count)} {data : Elements}
    (hfound : c.object? id = some o) (hbuffer : o.buffer? = some b) (hb : b.Agrees m.toStore) :
    (c.setBufferData id b offset data).Always (watch (c.deed? (.data id offset shape data)) links)
      (fun r m' => Moved c.object? m.toStore r.2.object? m'.toStore) m := by
  cases offset with
  | texel place => exact .same
  | linear n =>
    have hwork : c.workOf o (.data id (.linear n) shape data) =
        some (.bufferSetData n.toNat data) := by
      cases o <;> first | rfl | cases hbuffer
    rw [deed?_of_found (.data id (.linear n) shape data) hfound hwork]
    refine (Script.always_bind _ _).mpr ((Buffer.always_setData hb hbuffer).mono ?_)
    exact fun _ _ hs => moved_same hs

theorem always_setTextureData {t : Texture} {offset : Command.Offset}
    {shape : Option (Command.Count × Command.Count)} {data : Elements}
    (hfound : c.object? id = some (.texture t)) (ht : t.Agrees m.toStore)
    (hm : m.alignment = (Texture.defaultAlignment : Nat)) :
    (c.setTextureData id t offset shape data).Always
      (watch (c.deed? (.data id offset shape data)) links)
      (fun r m' => Moved c.object? m.toStore r.2.object? m'.toStore) m := by
  unfold setTextureData
  split
  · exact .same
  · next place hplace =>
    split
    · exact .same
    · next extent hextent =>
      have hwork : c.workOf (.texture t) (.data id offset shape data) =
          some (.textureSetData place extent data) := by
        simp [workOf, uploadOf, hplace, hextent]
      rw [deed?_of_found (.data id offset shape data) hfound hwork]
      refine (Script.always_bind _ _).mpr ((Texture.always_setData ht hm).mono ?_)
      exact fun _ _ hs => moved_same hs

theorem always_setData {offset : Command.Offset}
    {shape : Option (Command.Count × Command.Count)} {data : Elements}
    (hagrees : ∀ id o, c.object? id = some o → o.Agrees m.toStore)
    (hm : m.alignment = (Texture.defaultAlignment : Nat)) :
    (c.setData id offset shape data).Always (watch (c.deed? (.data id offset shape data)) links)
      (fun r m' => Moved c.object? m.toStore r.2.object? m'.toStore) m := by
  unfold setData
  split
  · exact .same
  · next b ho =>
    have hfound := object?_of_object ho
    exact always_setBufferData hfound rfl (hagrees id _ hfound)
  · next b ho =>
    have hfound := object?_of_object ho
    exact always_setBufferData hfound rfl (hagrees id _ hfound)
  · next t ho =>
    have hfound := object?_of_object ho
    exact always_setTextureData hfound (hagrees id _ hfound) hm
  · exact .same

/-- **Executing a command makes the calls that its deed demands and moves at most one
object.**  Commands that create objects are looked at apart, since their objects are new. -/
theorem always_execute {command : Command}
    (hagrees : ∀ id o, c.object? id = some o → o.Agrees m.toStore)
    (hm : m.alignment = (Texture.defaultAlignment : Nat))
    (hold : ∀ id kind, command ≠ .create id kind) :
    (c.execute command).Always (watch (c.deed? command) links)
      (fun r m' => Moved c.object? m.toStore r.2.object? m'.toStore) m := by
  refine (Script.always_bind _ _).mpr (always_watch_note _ ?_)
  -- Commands that refer to another object are refused at once if it is not there.
  cases command with
  | create id kind => exact absurd rfl (hold id kind)
  | delete id => exact always_delete
  | shaders id vertex fragment =>
    refine always_onProgram ?_
    intro p hp
    exact Program.always_setShaders (hagrees id _ hp)
  | size id storage => exact always_setSize hagrees
  | data id offset shape data => exact always_setData hagrees hm
  | «attribute» id name type value =>
    dsimp only [carryOut]
    split
    · exact .same
    · exact always_onProgram fun p hp => Program.always_setAttribute (hagrees id _ hp)
  | uniform id name type value =>
    refine always_onProgram ?_
    intro p hp
    rw [deed?_of_found (.uniform id name type value) hp rfl]
    exact Program.always_setUniform (hagrees id _ hp)
  | texture id name image =>
    dsimp only [carryOut]
    split
    · exact .same
    · next t ht =>
      refine always_onProgram ?_
      intro p hp
      have hwork : c.workOf (.program p) (.texture id name image) =
          some (.bindSampler name Texture.target t.handle) := by
        simp [workOf, ht, Except.toOption]
      rw [deed?_of_found (.texture id name image) hp hwork]
      exact Program.always_bindSampler (hagrees id _ hp)
  | interpolation id min mag => exact always_onTexture fun t => Texture.always_setInterpolation
  | wrapping id wrap => exact always_onTexture fun t => Texture.always_setWrapping
  | draw id mode selection =>
    dsimp only [carryOut]
    split
    · exact .same
    · next selected hselected =>
      refine always_onProgram ?_
      intro p hp
      have hwork : c.workOf (.program p) (.draw id mode selection) =
          some (.draw mode selected) := by
        simp [workOf, hselected, Except.toOption]
      rw [deed?_of_found (.draw id mode selection) hp hwork]
      exact Program.always_draw (hagrees id _ hp)

end Context
end DrawStream
