import DrawStream.Proofs.Replies
import DrawStream.Proofs.TextureWrites

/-! # What becomes of requests for storage

A buffer or a texture is asked for storage, by a command or by work on it.  It compares the
request with the storage that it remembers (`Object.Settles`): if it is the same, nothing
happens; if it is too great for a device, it is rejected and nothing happens either; otherwise
the object is bound, the device is told to allocate, and the object remembers.  The calls that
allocate do so for the object that was asked and for no other (`Machine.allots_of_fits`), since
it is the one that is bound. -/
namespace DrawStream
open Machine

/-! ## Requests for storage -/

/-- A buffer or a texture, by its handle. -/
inductive Holder
  | buffer (handle : Handle)
  | texture (handle : Handle)
  deriving DecidableEq

def Holder.handle : Holder → Handle
  | buffer handle | texture handle => handle

/-- Storage as it is asked for. -/
inductive Allocation
  | bytes (n : Nat)
  | texels (s : TextureStorage)
  deriving DecidableEq

namespace Allocation

/-- What there is before any has been asked for. -/
def nothing : Allocation := .bytes 0

/-- Storage as the device is told of it. -/
def told : Allocation → Nat ⊕ Image
  | bytes n => .inl n
  | texels s => .inr s.image

/-- A width or a height is more than a device takes. -/
def TooGreat : Allocation → Prop
  | bytes _ => False
  | texels s => greatestQuantity < s.width ∨ greatestQuantity < s.height

end Allocation

/-- The failure that names what is too great, the width first. -/
def TextureStorage.outOfRange (s : TextureStorage) : Failure :=
  if greatestQuantity < s.width then .outOfRange .textureWidth s.width
  else .outOfRange .textureHeight s.height

namespace Object

/-- The buffer or texture that an object is. -/
def holder? : Object → Option Holder
  | vertexBuffer b | indexBuffer b => some (.buffer b.handle)
  | texture t => some (.texture t.handle)
  | program _ => none

/-- The storage that an object remembers. -/
def allocation : Object → Allocation
  | vertexBuffer b | indexBuffer b => .bytes b.size
  | texture t => (t.storage.map .texels).getD .nothing
  | program _ => .nothing

theorem handle_of_holder? {o : Object} {holder : Holder} (h : o.holder? = some holder) :
    o.handle = holder.handle := by
  cases o <;> cases h <;> rfl

end Object

/-- The storage that a deed asks for, and for whom. -/
def Deed.asked? : Deed → Option (Holder × Allocation)
  | ⟨.vertexBuffer b, .bufferSetSize n⟩ | ⟨.indexBuffer b, .bufferSetSize n⟩ =>
    some (.buffer b.handle, .bytes n)
  | ⟨.texture t, .textureSetSize s⟩ => some (.texture t.handle, .texels s)
  | _ => none

/-- A way to be a buffer. -/
structure Object.Wraps (wrap : Buffer → Object) : Prop where
  holder : ∀ b, (wrap b).holder? = some (.buffer b.handle)
  allocation : ∀ b, (wrap b).allocation = .bytes b.size
  asked : ∀ b n, Deed.asked? ⟨wrap b, .bufferSetSize n⟩ = some (.buffer b.handle, .bytes n)
  unasked : ∀ b s, Deed.asked? ⟨wrap b, .textureSetSize s⟩ = none

theorem Object.wraps_vertexBuffer : Wraps vertexBuffer :=
  ⟨fun _ => rfl, fun _ => rfl, fun _ _ => rfl, fun _ _ => rfl⟩

theorem Object.wraps_indexBuffer : Wraps indexBuffer :=
  ⟨fun _ => rfl, fun _ => rfl, fun _ _ => rfl, fun _ _ => rfl⟩

/-- The storage that a reply answers to. -/
def Answered.asked? (reply : Answered) : Option (Holder × Allocation) :=
  reply.episode.deed.bind Deed.asked?

/-- What has been asked for was granted. -/
def Bench.Answer.grants : Bench.Answer → Bool
  | .done => true
  | _ => false

/-- **How a request has to be answered** where there is some storage already: it is rejected just
if it asks for other storage that is too great, and the failure says so. -/
structure Judged (current asked : Allocation) (answer : Bench.Answer) : Prop where
  rejected_iff : answer ≠ .done ↔ asked ≠ current ∧ asked.TooGreat
  failure : answer ≠ .done → ∃ s, asked = .texels s ∧ answer = .failed s.outOfRange

/-! ## What the device is told -/

namespace Machine

/-- The holder that a call allocates storage for, and what is allocated. -/
def allots? (m : Machine) (e : Entry) : Option (Holder × (Nat ⊕ Image)) :=
  match e.call with
  | .bufferStorage target size _ => some (.buffer (m.buffers target), .inl size)
  | .textureStorage format width height =>
    some (.texture m.activeTexture, .inr ⟨height, width, format⟩)
  | _ => none

/-- All that is allocated for a holder, call by call. -/
def allotted (holder : Holder) : Machine → List Entry → List (Nat ⊕ Image)
  | _, [] => []
  | m, e :: rest =>
    (match m.allots? e with
      | some (h, x) => if h = holder then [x] else []
      | none => []) ++ allotted holder (m.obey e) rest

theorem allotted_append (holder : Holder) (m : Machine) (xs ys : List Entry) :
    allotted holder m (xs ++ ys) = allotted holder m xs ++ allotted holder (m.run xs) ys := by
  induction xs generalizing m with
  | nil => rfl
  | cons e rest ih => rw [List.cons_append, allotted, allotted, ih, run_cons, List.append_assoc]

/-- A call that allocates does so for the object that was asked. -/
theorem allots_of_fits {m : Machine} {e : Entry} (h : m.Fits e) {holder : Holder}
    {x : Nat ⊕ Image} (hallots : m.allots? e = some (holder, x)) :
    ∃ a, e.deed.bind Deed.asked? = some (holder, a) ∧ a.told = x := by
  obtain ⟨call, deed, links⟩ := e
  cases call with
  | bufferStorage target size =>
    obtain ⟨object, b, hdeed, hbuffer, htarget⟩ := h.buffer
    cases hallots
    cases hdeed
    refine ⟨.bytes size, ?_, rfl⟩
    rw [htarget]
    cases object <;> cases hbuffer <;> rfl
  | textureStorage format width height =>
    obtain ⟨t, s, hdeed, htexture, himage⟩ := h.texture
    cases hallots
    cases hdeed
    refine ⟨.texels s, ?_, congrArg Sum.inr himage⟩
    rw [htexture]
    rfl
  | _ => cases hallots

/-- Who asks for nothing is allotted nothing. -/
theorem allotted_eq_nil (holder : Holder) {m : Machine} {entries : List Entry}
    (hfits : Throughout Fits m entries)
    (h : ∀ e ∈ entries, e.deed.bind Deed.asked? = none) : allotted holder m entries = [] := by
  induction entries generalizing m with
  | nil => rfl
  | cons e rest ih =>
    obtain ⟨hfirst, hrest⟩ := List.forall_mem_cons.mp h
    rw [allotted, ih hfits.2 hrest, List.append_nil]
    cases hallots : m.allots? e with
    | none => rfl
    | some allotment =>
      obtain ⟨a, hasked, -⟩ := allots_of_fits hfits.1 hallots
      rw [hfirst] at hasked
      cases hasked

end Machine

/-- Calls that allocate storage for a holder once, whatever the machine is in. -/
def Holder.Allots (holder : Holder) (a : Allocation) (calls : List Call) : Prop :=
  ∀ (m : Machine) (deed : Option Deed) (links : Bool) (holder' : Holder),
    allotted holder' m (calls.map fun c => ⟨c, deed, links⟩) =
      if holder = holder' then [a.told] else []

/-- What becomes of an object that is asked for storage: the answer, the calls, and the object
afterwards. -/
inductive Object.Settles (o : Object) (a : Allocation) : Bench.Answer → List Call → Object → Prop
  | same (h : a = o.allocation) : Settles o a .done [] o
  | refused {s : TextureStorage} (ha : a = .texels s) (h : a ≠ o.allocation)
      (hgreat : a.TooGreat) : Settles o a (.failed s.outOfRange) [] o
  | made {holder : Holder} {calls : List Call} {o' : Object} (h : a ≠ o.allocation)
      (hsmall : ¬ a.TooGreat) (hholder : o.holder? = some holder)
      (hcalls : holder.Allots a calls) (hsame : o'.holder? = some holder)
      (hnow : o'.allocation = a) : Settles o a .done calls o'

section Settles
variable {σ : Type} [Device σ]

theorem Object.Wraps.settles {wrap : Buffer → Object} (h : Wraps wrap) (b : Buffer) (n : Nat)
    (d : σ) :
    (wrap b).Settles (.bytes n) .done (Event.calls ((b.setSize n).run d).events)
      (wrap ((b.setSize n).run d).value) := by
  by_cases hsame : n = b.size
  · have hrun : (b.setSize n).run d = ⟨b, d, []⟩ := by simp [Buffer.setSize, hsame]
    rw [hrun]
    exact .same (by rw [h.allocation, hsame])
  · have hrun : ((b.setSize n).run d).value = { b with size := n } ∧
        Event.calls ((b.setSize n).run d).events =
          [.bindBuffer b.target.number b.handle,
            .bufferStorage b.target.number n b.usage.number] := by
      simp only [Buffer.setSize, if_neg hsame]
      exact ⟨rfl, rfl⟩
    have hallots : Holder.Allots (.buffer b.handle) (.bytes n)
        [.bindBuffer b.target.number b.handle,
          .bufferStorage b.target.number n b.usage.number] := by
      intro m deed links holder'
      simp [allotted, allots?, obey, Allocation.told]
    have hother : Allocation.bytes n ≠ (wrap b).allocation := by
      rw [h.allocation]
      simpa using hsame
    rw [hrun.1, hrun.2]
    exact .made hother id (h.holder b) hallots (h.holder _) (h.allocation _)

theorem Texture.deviceShape_of_within {s : TextureStorage} (h : s.Within) :
    deviceShape s = .ok (s.width, s.height) := by
  simp only [deviceShape, quantity_of_le h.1, quantity_of_le h.2]
  rfl

/-- A width that is too great is noticed first. -/
theorem Texture.deviceShape_of_tooGreat {s : TextureStorage}
    (h : (Allocation.texels s).TooGreat) : deviceShape s = .error s.outOfRange := by
  unfold deviceShape TextureStorage.outOfRange
  by_cases hwidth : greatestQuantity < s.width
  · have hrefused : quantity .textureWidth s.width =
        .error (.outOfRange .textureWidth s.width) := if_neg (Nat.not_le.mpr hwidth)
    rw [if_pos hwidth, hrefused]
    rfl
  · have hheight : greatestQuantity < s.height := h.resolve_left hwidth
    have hrefused : quantity .textureHeight s.height =
        .error (.outOfRange .textureHeight s.height) := if_neg (Nat.not_le.mpr hheight)
    rw [if_neg hwidth, quantity_of_le (Nat.not_lt.mp hwidth), hrefused]
    rfl

theorem Object.settles_setStorage (t : Texture) (s : TextureStorage) (d : σ) :
    (Object.texture t).Settles (.texels s) (.ofOutcome ((t.setStorage s).run d).value.1)
      (Event.calls ((t.setStorage s).run d).events)
      (.texture ((t.setStorage s).run d).value.2) := by
  by_cases hsame : t.storage = some s
  · have hrun : (t.setStorage s).run d = ⟨(.ok (), t), d, []⟩ := by
      simp [Texture.setStorage, hsame]
    rw [hrun]
    exact .same (by simp [allocation, hsame])
  have hother : Allocation.texels s ≠ (Object.texture t).allocation := by
    change Allocation.texels s ≠ (t.storage.map .texels).getD (.bytes 0)
    cases hstorage : t.storage with
    | none => simp
    | some old =>
      rw [hstorage] at hsame
      simpa [eq_comm] using hsame
  by_cases hgreat : (Allocation.texels s).TooGreat
  · have hrun : (t.setStorage s).run d = ⟨(.error s.outOfRange, t), d, []⟩ := by
      simp [Texture.setStorage, hsame, Texture.deviceShape_of_tooGreat hgreat]
    rw [hrun]
    exact .refused rfl hother hgreat
  · have hwithin : s.Within :=
      ⟨Nat.not_lt.mp fun h => hgreat (.inr h), Nat.not_lt.mp fun h => hgreat (.inl h)⟩
    have hrun : ((t.setStorage s).run d).value = (.ok (), { t with storage := some s }) ∧
        Event.calls ((t.setStorage s).run d).events =
          [.bindTexture Texture.target t.handle,
            .textureStorage s.format.number s.width s.height] := by
      simp only [Texture.setStorage, if_neg hsame, Texture.deviceShape_of_within hwithin]
      exact ⟨rfl, rfl⟩
    have hallots : Holder.Allots (.texture t.handle) (.texels s)
        [.bindTexture Texture.target t.handle,
          .textureStorage s.format.number s.width s.height] := by
      intro m deed links holder'
      simp [allotted, allots?, obey, Allocation.told, activeTexture, bindTexture,
        TextureStorage.image, Texture.target]
    rw [hrun.1, hrun.2]
    exact .made hother hgreat rfl hallots rfl rfl

end Settles

/-! ## What can be said of a settled request -/

namespace Object.Settles
variable {o o' : Object} {a : Allocation} {answer : Bench.Answer} {calls : List Call}
  {holder : Holder}

theorem judged (h : o.Settles a answer calls o') : Judged o.allocation a answer := by
  cases h with
  | same heq => exact ⟨by simp [heq], fun hne => absurd rfl hne⟩
  | refused ha hne hgreat => exact ⟨by simp [hne, hgreat], fun _ => ⟨_, ha, rfl⟩⟩
  | made hne hsmall => exact ⟨by simp [hsmall], fun hne => absurd rfl hne⟩

/-- The object remembers what was granted, and is otherwise the same. -/
theorem after (h : o.Settles a answer calls o') :
    o'.holder? = o.holder? ∧ o'.allocation = if answer.grants then a else o.allocation := by
  cases h with
  | same heq => exact ⟨rfl, heq.symm⟩
  | refused => exact ⟨rfl, rfl⟩
  | made _ _ hholder _ hsame hnow => exact ⟨hsame.trans hholder.symm, hnow⟩

theorem silent (h : o.Settles a answer calls o') (hne : answer ≠ .done) : calls = [] := by
  cases h with
  | same | made => exact absurd rfl hne
  | refused => rfl

/-- Storage is allocated if it is granted and another one than there is, and only for the object
that was asked. -/
theorem allots (h : o.Settles a answer calls o') (hholder : o.holder? = some holder) (m : Machine)
    (deed : Option Deed) (links : Bool) (holder' : Holder) :
    allotted holder' m (calls.map fun c => ⟨c, deed, links⟩) =
      if holder = holder' ∧ answer.grants ∧ a ≠ o.allocation then [a.told] else [] := by
  cases h with
  | same heq => simp [heq, allotted]
  | refused => simp [Bench.Answer.grants, allotted]
  | made hne _ hholder' hcalls =>
    cases hholder.symm.trans hholder'
    simpa [hne, Bench.Answer.grants] using hcalls m deed links holder'

end Object.Settles

end DrawStream
