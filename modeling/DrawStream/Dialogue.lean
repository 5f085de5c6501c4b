/-! # Dialogues

A dialogue asks questions one after the other and goes on with each answer.
`Dialogue Q α` is the tree of such a conversation: `Q β` are the questions whose
answers have type `β`, and `α` is what the conversation comes to.  Everything in
this library that talks to a graphics device, to the entry points below it or to
files is written as a dialogue, so one definition serves every partner: a
partner is a function that answers, `play` lets it hold the conversation, and
`translate` replaces each question by a dialogue of a lower level. -/
namespace DrawStream
universe u v

/-- A conversation that asks questions of the family `Q` and comes to an `α`. -/
inductive Dialogue (Q : Type → Type u) (α : Type) : Type (max 1 u) where
  /-- Nothing more to ask. -/
  | done (value : α)
  /-- Ask, and go on with the answer. -/
  | ask {β : Type} (question : Q β) (next : β → Dialogue Q α)

namespace Dialogue
variable {Q : Type → Type u} {R : Type → Type v} {α γ : Type}

/-- Goes on with `f` where the first conversation ends. -/
def bind : Dialogue Q α → (α → Dialogue Q γ) → Dialogue Q γ
  | done a, f => f a
  | ask q k, f => ask q fun b => (k b).bind f

instance : Monad (Dialogue Q) where
  pure := done
  bind := bind

/-- The conversation of a single question. -/
def question {β : Type} (q : Q β) : Dialogue Q β := ask q done

/-- Holds the conversation with a partner of state `σ`. -/
def play {σ : Type} (answer : {β : Type} → Q β → σ → β × σ) : Dialogue Q α → σ → α × σ
  | done a, s => (a, s)
  | ask q k, s => (k (answer q s).1).play answer (answer q s).2

/-- Holds the conversation with a partner that answers in a monad. -/
def playM {m : Type → Type} [Monad m] (answer : {β : Type} → Q β → m β) :
    Dialogue Q α → m α
  | done a => pure a
  | ask q k => do (k (← answer q)).playM answer

/-- Replaces each question by a dialogue that finds its answer a level below. -/
def translate (lower : {β : Type} → Q β → Dialogue R β) : Dialogue Q α → Dialogue R α
  | done a => done a
  | ask q k => (lower q).bind fun b => (k b).translate lower

@[simp] theorem pure_eq_done (a : α) : (pure a : Dialogue Q α) = done a := rfl

@[simp] theorem bind_eq (x : Dialogue Q α) (f : α → Dialogue Q γ) : x >>= f = x.bind f := rfl

@[simp] theorem done_bind (a : α) (f : α → Dialogue Q γ) : (done a).bind f = f a := rfl

@[simp] theorem ask_bind {β : Type} (q : Q β) (k : β → Dialogue Q α) (f : α → Dialogue Q γ) :
    (ask q k).bind f = ask q fun b => (k b).bind f := rfl

@[simp] theorem bind_done (x : Dialogue Q α) : x.bind done = x := by
  induction x with
  | done a => rfl
  | ask q k ih => simp only [ask_bind, ih]

theorem bind_assoc {δ : Type} (x : Dialogue Q α) (f : α → Dialogue Q γ)
    (g : γ → Dialogue Q δ) : (x.bind f).bind g = x.bind fun a => (f a).bind g := by
  induction x with
  | done a => rfl
  | ask q k ih => simp only [ask_bind, ih]

section Play
variable {σ : Type} (answer : {β : Type} → Q β → σ → β × σ)

@[simp] theorem play_done (a : α) (s : σ) :
    (done a : Dialogue Q α).play answer s = (a, s) := rfl

@[simp] theorem play_ask {β : Type} (q : Q β) (k : β → Dialogue Q α) (s : σ) :
    (ask q k).play answer s = (k (answer q s).1).play answer (answer q s).2 := rfl

theorem play_bind (x : Dialogue Q α) (f : α → Dialogue Q γ) (s : σ) :
    (x.bind f).play answer s = (f (x.play answer s).1).play answer (x.play answer s).2 := by
  induction x generalizing s with
  | done a => rfl
  | ask q k ih => simp only [ask_bind, play_ask, ih]

end Play

end Dialogue
end DrawStream
