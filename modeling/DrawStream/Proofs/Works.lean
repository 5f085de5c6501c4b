import DrawStream.Proofs.History
import DrawStream.Proofs.Pool
import DrawStream.Proofs.Programs
import DrawStream.Proofs.Storage

/-! # Work on an object, watched on a recorder

A machine that obeys follows a recorder through an episode: what is shown of a script by
watching it holds of the entries of its run (`Script.Always.episode`).  The operations on
buffers, textures and programs together make up the work that can be done on an object of
a bench (`Bench.always_workOn`). -/
namespace DrawStream
open Machine

/-! ## The recorder -/

namespace Recorder

theorem find_fields (r : Recorder) (declared : List Variable) (name : String) :
    (r.find declared name).2.failLink = r.failLink ∧
      (r.find declared name).2.lastHandle = r.lastHandle := by
  unfold find
  dsimp only
  split
  · exact ⟨rfl, rfl⟩
  · split <;> exact ⟨rfl, rfl⟩

/-- An answer changes neither whether links succeed nor, except forward, which handle comes
next. -/
theorem answer_fields {β : Type} (q : Request β) (r : Recorder) :
    (r.answer q).2.failLink = r.failLink ∧ r.lastHandle ≤ (r.answer q).2.lastHandle := by
  cases q with
  | createProgram | createBuffer | createTexture | createShader =>
    exact ⟨rfl, Nat.le_succ r.lastHandle⟩
  | uniformLocation program name =>
    obtain ⟨hlink, hlast⟩ := find_fields r r.uniforms name
    exact ⟨hlink, Nat.le_of_eq hlast.symm⟩
  | attributeLocation program name =>
    obtain ⟨hlink, hlast⟩ := find_fields r r.attributes name
    exact ⟨hlink, Nat.le_of_eq hlast.symm⟩
  | drawArrays | drawElements =>
    simp only [answer, raise]
    split <;> exact ⟨rfl, Nat.le_refl _⟩
  | takeError =>
    simp only [answer, Recorder.takeError]
    split <;> exact ⟨rfl, Nat.le_refl _⟩
  | _ => exact ⟨rfl, Nat.le_refl _⟩

/-- The recorder answers as a deed reckons that it does. -/
theorem suits (deed : Option Deed) (r : Recorder) :
    (watch deed (!r.failLink)).Suits
      (fun r' : Recorder => r'.failLink = r.failLink ∧ r.lastHandle ≤ r'.lastHandle) := by
  refine ⟨fun q r' hr' => ?_, fun q r' hr' => ?_, fun r' hr' => hr'⟩
  · cases q with
    | linkStatus program => exact congrArg (!·) hr'.1
    | _ => exact trivial
  · obtain ⟨hlink, hlast⟩ := answer_fields q r'
    exact ⟨hlink.trans hr'.1, Nat.le_trans hr'.2 hlast⟩

end Recorder

/-! ## Episodes -/

/-- Watching a deed is letting the machine obey the entries of its episode. -/
theorem after_watch (deed : Option Deed) (links : Bool) (m : Machine) (events : List Event) :
    (watch deed links).after m events = m.run (Episode.entries ⟨deed, links, events⟩) := by
  induction events generalizing m with
  | nil => rfl
  | cons e rest ih =>
    cases e with
    | call c => exact ih _
    | note n => exact ih _

theorem throughout_watch {deed : Option Deed} {links : Bool} {m : Machine} {events : List Event}
    (h : (watch deed links).AdmitsAll m events) :
    Throughout Fits m (Episode.entries ⟨deed, links, events⟩) := by
  induction events generalizing m with
  | nil => trivial
  | cons e rest ih =>
    cases e with
    | call c => exact ⟨h.1, ih h.2⟩
    | note n => exact ih h.2

/-- What always holds of a script holds of the episode that its run is. -/
theorem Script.Always.episode {α : Type} {x : Script α} {deed : Option Deed} {m : Machine}
    {post : α → Machine → Prop} (r : Recorder)
    (h : x.Always (watch deed (!r.failLink)) post m) :
    Throughout Fits m (Episode.entries ⟨deed, !r.failLink, (x.run r).events⟩) ∧
      post (x.run r).value (m.run (Episode.entries ⟨deed, !r.failLink, (x.run r).events⟩)) ∧
      r.lastHandle ≤ (x.run r).device.lastHandle := by
  obtain ⟨hadmits, hpost, hend⟩ :=
    Script.Always.run (Recorder.suits deed r) ⟨rfl, Nat.le_refl _⟩ h
  rw [after_watch] at hpost
  exact ⟨throughout_watch hadmits, hpost, hend.2⟩

/-! ## Work on objects -/

/-- An object stays as it is if what is held stays as it is. -/
theorem Object.KeptAs.same {o : Object} {s s' : Store} (ho : o.Agrees s) (hs : s' = s) :
    o.KeptAs s (some o) s' := by
  subst hs
  refine ⟨.refl _ _, fun x hx => ?_, fun x hx => ?_⟩ <;> cases hx
  · rfl
  · exact ho

/-- What is known of an object afterwards. -/
theorem Object.KeptAs.of_agrees {o x : Object} {s s' : Store} (hs : s.Steady o.handle s')
    (hhandle : x.handle = o.handle) (hx : x.Agrees s') : o.KeptAs s (some x) s' := by
  refine ⟨hs, fun y hy => ?_, fun y hy => ?_⟩ <;> cases hy
  · exact hhandle
  · exact hx

/-- Nothing is known of an object that is gone. -/
theorem Object.KeptAs.gone {o : Object} {s s' : Store} (hs : s.Steady o.handle s') :
    o.KeptAs s none s' := by
  refine ⟨hs, fun y hy => ?_, fun y hy => ?_⟩ <;> cases hy

theorem Object.always_activate {o : Object} {deed : Option Deed} {links : Bool} {m : Machine} :
    o.activate.Always (watch deed links) (fun _ m' => m'.toStore = m.toStore) m := by
  cases o with
  | vertexBuffer b | indexBuffer b => exact Buffer.always_activate rfl
  | texture t => exact Texture.always_activate rfl
  | program p => exact Program.always_activate rfl

theorem Object.always_deactivate {o : Object} {deed : Option Deed} {links : Bool} {m : Machine} :
    o.deactivate.Always (watch deed links) (fun _ m' => m'.toStore = m.toStore) m := by
  cases o with
  | vertexBuffer b | indexBuffer b => exact Buffer.always_deactivate rfl
  | texture t => exact Texture.always_deactivate (t := t) rfl
  | program p => exact Program.always_deactivate (p := p) rfl

theorem Object.always_delete {o : Object} {deed : Option Deed} {links : Bool} {m : Machine} :
    o.delete.Always (watch deed links) (fun _ m' => m.toStore.Steady o.handle m'.toStore) m := by
  cases o with
  | vertexBuffer b | indexBuffer b => exact Buffer.always_delete
  | texture t => exact Texture.always_delete
  | program p => exact Program.always_delete (.refl _ _)

namespace Bench
variable {object : Object} {deed : Option Deed} {links : Bool} {m : Machine}

theorem always_simply {x : Script Unit} (hobject : object.Agrees m.toStore)
    (hx : x.Always (watch deed links) (fun _ m' => m'.toStore = m.toStore) m) :
    (simply object x).Always (watch deed links)
      (fun r m' => object.KeptAs m.toStore r.2 m'.toStore) m :=
  (Script.always_bind _ _).mpr (hx.mono fun _ _ hs => .same hobject hs)

theorem always_checked {x : Script (Outcome Unit)} (hobject : object.Agrees m.toStore)
    (hx : x.Always (watch deed links) (fun _ m' => m'.toStore = m.toStore) m) :
    (checked object x).Always (watch deed links)
      (fun r m' => object.KeptAs m.toStore r.2 m'.toStore) m :=
  (Script.always_bind _ _).mpr (hx.mono fun _ _ hs => .same hobject hs)

theorem always_onProgram {p : Program} {x : Script (Outcome Unit × Program)}
    (hx : x.Always (watch deed links) (fun r m' => p.KeptAs m.toStore r.2 m'.toStore) m) :
    (onProgram x).Always (watch deed links)
      (fun r m' => (Object.program p).KeptAs m.toStore r.2 m'.toStore) m :=
  (Script.always_bind _ _).mpr (hx.mono fun _ _ h => .of_agrees h.steady h.handle h.agrees)

theorem always_workOnBuffer {find : String → Option Object} {b : Buffer} {work : Work}
    (wrap : Buffer → Object)
    (hobject : object.Agrees m.toStore) (hb : b.Agrees m.toStore)
    (hbuffer : object.buffer? = some b) (hhandle : object.handle = b.handle)
    (hwrap : ∀ b' s, (wrap b').handle = b'.handle ∧ (b'.Agrees s → (wrap b').Agrees s))
    (hsized : work.Sized) :
    (workOnBuffer object b wrap work).Always (watch (some ⟨object, work.resolve find⟩) links)
      (fun r m' => object.KeptAs m.toStore r.2 m'.toStore) m := by
  cases work with
  | bufferSetSize bytes =>
    refine (Script.always_bind _ _).mpr ((Buffer.always_setSize hb hsized hbuffer).mono ?_)
    rintro b' m' ⟨hsteady, hhandle', hagrees⟩
    obtain ⟨hwrapped, hwrap⟩ := hwrap b' m'.toStore
    exact .of_agrees (hhandle ▸ hsteady) (by rw [hwrapped, hhandle', hhandle]) (hwrap hagrees)
  | bufferSetData offset data => exact always_checked hobject (Buffer.always_setData hb hbuffer)
  | _ => exact Object.KeptAs.same hobject rfl

theorem always_workOnTexture {find : String → Option Object} {t : Texture} {work : Work}
    (ht : t.Agrees m.toStore) (hm : m.alignment = (Texture.defaultAlignment : Nat)) :
    (workOnTexture t work).Always (watch (some ⟨.texture t, work.resolve find⟩) links)
      (fun r m' => (Object.texture t).KeptAs m.toStore r.2 m'.toStore) m := by
  have hobject : (Object.texture t).Agrees m.toStore := ht
  cases work with
  | textureSetSize storage =>
    refine (Script.always_bind _ _).mpr ((Texture.always_setStorage ht).mono ?_)
    rintro r m' ⟨hsteady, hhandle, hagrees⟩
    exact .of_agrees hsteady hhandle hagrees
  | textureSetData offset shape data => exact always_checked hobject (Texture.always_setData ht hm)
  | textureSetWrapping => exact always_simply hobject Texture.always_setWrapping
  | textureSetInterpolation => exact always_simply hobject Texture.always_setInterpolation
  | _ => exact Object.KeptAs.same hobject rfl

theorem always_workOnProgram {find : String → Option Object} {p : Program} {work : Work}
    (hp : p.Agrees m.toStore) :
    (workOnProgram find p work).Always (watch (some ⟨.program p, work.resolve find⟩) links)
      (fun r m' => (Object.program p).KeptAs m.toStore r.2 m'.toStore) m := by
  have hobject : (Object.program p).Agrees m.toStore := hp
  cases work with
  | activation =>
    refine (Script.always_bind _ _).mpr (Program.always_activate ?_)
    exact Object.KeptAs.same hobject rfl
  | setShaders => exact always_onProgram (Program.always_setShaders hp)
  | setUniform => exact always_onProgram (Program.always_setUniform hp)
  | setAttribute => exact always_onProgram (Program.always_setAttribute hp)
  | setTexture name texture =>
    simp only [workOnProgram, Work.resolve]
    cases find texture with
    | none => exact Object.KeptAs.same hobject rfl
    | some found =>
      cases found with
      | texture t => exact always_onProgram (Program.always_bindSampler hp)
      | _ => exact Object.KeptAs.same hobject rfl
  | bindSampler => exact always_onProgram (Program.always_bindSampler hp)
  | draw => exact always_onProgram (Program.always_draw hp)
  | _ => exact Object.KeptAs.same hobject rfl

/-- **Work on an object makes the calls that are demanded and keeps the object in step.** -/
theorem always_workOn {find : String → Option Object} {work : Work}
    (hobject : object.Agrees m.toStore) (hm : m.alignment = (Texture.defaultAlignment : Nat))
    (hsized : work.Sized) :
    (workOn find object work).Always (watch (some ⟨object, work.resolve find⟩) links)
      (fun r m' => object.KeptAs m.toStore r.2 m'.toStore) m := by
  cases work with
  | activate => exact always_simply hobject Object.always_activate
  | deactivate => exact always_simply hobject Object.always_deactivate
  | delete =>
    exact (Script.always_bind _ _).mpr (Object.always_delete.mono fun _ _ hs => .gone hs)
  | _ =>
    cases object with
    | vertexBuffer b =>
      exact always_workOnBuffer .vertexBuffer hobject hobject rfl rfl (fun _ _ => ⟨rfl, id⟩) hsized
    | indexBuffer b =>
      exact always_workOnBuffer .indexBuffer hobject hobject rfl rfl (fun _ _ => ⟨rfl, id⟩) hsized
    | texture t => exact always_workOnTexture hobject hm
    | program p => exact always_workOnProgram hobject

end Bench
end DrawStream
