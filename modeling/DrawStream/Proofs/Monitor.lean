import DrawStream.Script

/-! # Watching scripts

A `Monitor` watches what comes about when a script runs: it has a state, which every event
moves on, and it says in every state which events it admits.  `Script.Always` says of a
script that whatever a device answers, all its events are admitted, and that its value and
the state of the monitor afterwards are as wanted.  It is defined by recursion on the
script, so it is proved by going through the script, one request at a time, and it holds
of one script after another if it holds of each (`always_bind`).

`Script.Always.run` brings this down to a run on a device.  What a script relies on in the
answers (`Monitor.allows`) has to be an invariant of the device. -/
namespace DrawStream

/-- A watcher with states `μ`. -/
structure Monitor (μ : Type) where
  /-- The answers that are reckoned with. -/
  allows : {β : Type} → Request β → β → Prop
  /-- The events that may come about in a state. -/
  admits : μ → Event → Prop
  /-- The state after an event. -/
  next : μ → Event → μ

namespace Monitor
variable {μ : Type} (M : Monitor μ)

/-- All events are admitted, each in the state in which it comes about. -/
def AdmitsAll : μ → List Event → Prop
  | _, [] => True
  | m, e :: rest => M.admits m e ∧ AdmitsAll (M.next m e) rest

/-- The state after events. -/
def after (m : μ) (events : List Event) : μ := events.foldl M.next m

@[simp] theorem admitsAll_nil (m : μ) : M.AdmitsAll m [] := trivial

@[simp] theorem admitsAll_cons (m : μ) (e : Event) (rest : List Event) :
    M.AdmitsAll m (e :: rest) ↔ M.admits m e ∧ M.AdmitsAll (M.next m e) rest := Iff.rfl

@[simp] theorem after_nil (m : μ) : M.after m [] = m := rfl

@[simp] theorem after_cons (m : μ) (e : Event) (rest : List Event) :
    M.after m (e :: rest) = M.after (M.next m e) rest := rfl

theorem after_append (m : μ) (xs ys : List Event) :
    M.after m (xs ++ ys) = M.after (M.after m xs) ys := List.foldl_append

theorem admitsAll_append (m : μ) (xs ys : List Event) :
    M.AdmitsAll m (xs ++ ys) ↔ M.AdmitsAll m xs ∧ M.AdmitsAll (M.after m xs) ys := by
  induction xs generalizing m with
  | nil => simp
  | cons e xs ih => simp only [List.cons_append, admitsAll_cons, after_cons, ih, and_assoc]

/-- Events that change nothing may be repeated. -/
theorem replicate_neutral {m : μ} {e : Event} (hadmits : M.admits m e) (hnext : M.next m e = m)
    (n : Nat) :
    M.AdmitsAll m (List.replicate n e) ∧ M.after m (List.replicate n e) = m := by
  induction n with
  | zero => exact ⟨trivial, rfl⟩
  | succ n ih =>
    rw [List.replicate_succ, admitsAll_cons, after_cons, hnext]
    exact ⟨⟨hadmits, ih.1⟩, ih.2⟩

end Monitor

section Always
variable {μ α γ : Type} (M : Monitor μ)

/-- Whatever the answer to an act, its events are admitted and `post` holds afterwards. -/
def Act.Always : {β : Type} → Act β → (β → μ → Prop) → μ → Prop
  | _, .request r, post, m => ∀ b, M.allows r b →
    M.AdmitsAll m ((Call.ofAnswer? r b).toList.map .call) ∧
      post b (M.after m ((Call.ofAnswer? r b).toList.map .call))
  | _, .drain, post, m => ∀ codes n,
    M.AdmitsAll m (List.replicate n (.call .getError)) ∧
      post codes (M.after m (List.replicate n (.call .getError)))
  | _, .arrange, post, m => ∀ arrangement, post arrangement m
  | _, .note n, post, m => M.admits m (.note n) ∧ post () (M.next m (.note n))

/-- Whatever the answers, all events of a script are admitted and `post` holds in the end. -/
def Script.Always (post : α → μ → Prop) : Script α → μ → Prop
  | .done a, m => post a m
  | .ask act next, m => act.Always M (fun b m => Script.Always post (next b) m) m

theorem Act.Always.mono {β : Type} {act : Act β} {post post' : β → μ → Prop} {m : μ}
    (h : act.Always M post m) (hpost : ∀ b m, post b m → post' b m) : act.Always M post' m := by
  cases act with
  | request r => exact fun b hb => ⟨(h b hb).1, hpost _ _ (h b hb).2⟩
  | drain => exact fun codes n => ⟨(h codes n).1, hpost _ _ (h codes n).2⟩
  | arrange => exact fun arrangement => hpost _ _ (h arrangement)
  | note n => exact ⟨h.1, hpost _ _ h.2⟩

namespace Script
variable {M} {post post' : α → μ → Prop} {m : μ}

@[simp] theorem always_done (a : α) :
    Script.Always M post (Dialogue.done a : Script α) m ↔ post a m := Iff.rfl

/-- A script that is always right for one purpose is so for a weaker one. -/
theorem Always.mono {x : Script α} (h : x.Always M post m)
    (hpost : ∀ a m, post a m → post' a m) : x.Always M post' m := by
  induction x generalizing m with
  | done a => exact hpost a m h
  | ask act next ih => exact Act.Always.mono M h fun b m hb => ih b hb

@[simp] theorem always_bind {post : γ → μ → Prop} (x : Script α) (f : α → Script γ) :
    Script.Always M post (Dialogue.bind x f) m ↔
      x.Always M (fun a m => (f a).Always M post m) m := by
  induction x generalizing m with
  | done a => rfl
  | ask act next ih =>
    constructor
    · exact fun h => Act.Always.mono M h fun b m hb => (ih b).1 hb
    · exact fun h => Act.Always.mono M h fun b m hb => (ih b).2 hb

theorem always_request {β : Type} (r : Request β) {post : β → μ → Prop} :
    (request r).Always M post m ↔ ∀ b, M.allows r b →
      M.AdmitsAll m ((Call.ofAnswer? r b).toList.map .call) ∧
        post b (M.after m ((Call.ofAnswer? r b).toList.map .call)) := Iff.rfl

@[simp] theorem always_note (n : Note) {post : Unit → μ → Prop} :
    (note n).Always M post m ↔ M.admits m (.note n) ∧ post () (M.next m (.note n)) := Iff.rfl

/-- A check for errors comes to some outcome or other, after some questions. -/
theorem always_checkErrors {checkpoint : String} {post : Outcome Unit → μ → Prop}
    (hadmits : M.admits m (.call .getError)) (hnext : M.next m (.call .getError) = m)
    (hpost : ∀ outcome, post outcome m) : (checkErrors checkpoint).Always M post m := by
  intro codes n
  obtain ⟨hall, hsame⟩ := M.replicate_neutral hadmits hnext n
  rw [hsame]
  exact ⟨hall, hpost _⟩

/-- A table may be gone through in any order. -/
theorem always_arranged {entries : List α} {post : List α → μ → Prop} :
    (arranged entries).Always M post m ↔ ∀ order, order.Perm entries → post order m := by
  constructor
  · intro h order horder
    obtain ⟨arrangement, rfl⟩ := Arrangement.exists_apply horder
    exact h arrangement
  · exact fun h arrangement => h _ (arrangement.apply_perm entries)

end Script

/-! ## Down to a device -/

section Run
variable {σ : Type} [Device σ] {M} {post : α → μ → Prop} {Inv : σ → Prop}

/-- The device keeps an invariant under which it gives no answer but the allowed ones. -/
structure Monitor.Suits (M : Monitor μ) (Inv : σ → Prop) : Prop where
  allows : ∀ {β : Type} (r : Request β) (d : σ), Inv d → M.allows r (Device.answer r d).1
  answer : ∀ {β : Type} (r : Request β) (d : σ), Inv d → Inv (Device.answer r d).2
  arrange : ∀ d : σ, Inv d → Inv (Device.arrange d).2

theorem Act.Always.perform {β : Type} {act : Act β} {post : β → μ → Prop} {m : μ} {d : σ}
    (hM : M.Suits Inv) (hd : Inv d) (h : act.Always M post m) :
    M.AdmitsAll m (act.perform d).events ∧
      post (act.perform d).value (M.after m (act.perform d).events) ∧
      Inv (act.perform d).device := by
  cases act with
  | request r =>
    have hallowed := hM.allows r d hd
    exact ⟨(h _ hallowed).1, (h _ hallowed).2, hM.answer r d hd⟩
  | drain =>
    obtain ⟨hadmits, hpost⟩ := h (Device.drain d).codes (Device.drain d).questions
    exact ⟨hadmits, hpost, Device.keeps_drainFrom (hM.answer .takeError) _ _ hd⟩
  | arrange => exact ⟨trivial, h _, hM.arrange d hd⟩
  | note n => exact ⟨⟨h.1, trivial⟩, h.2, hd⟩

/-- **What always holds of a script holds of its run.** -/
theorem Script.Always.run {x : Script α} {m : μ} {d : σ} (hM : M.Suits Inv) (hd : Inv d)
    (h : x.Always M post m) :
    M.AdmitsAll m (x.run d).events ∧ post (x.run d).value (M.after m (x.run d).events) ∧
      Inv (x.run d).device := by
  induction x generalizing m d with
  | done a => exact ⟨trivial, h, hd⟩
  | ask act next ih =>
    -- The device keeps its invariant, so the answers to come are allowed ones too.
    obtain ⟨hfirst, hrest, hkept⟩ := Act.Always.perform hM hd h
    obtain ⟨hadmits, hpost, hend⟩ := ih _ hkept hrest
    rw [Script.run_ask, M.admitsAll_append, M.after_append]
    exact ⟨⟨hfirst, hadmits⟩, hpost, hend⟩

end Run
end Always
end DrawStream
