/-!
# Dialogues

A `Dialogue` is a computation that asks questions of its surroundings: it either is done or asks a
question and goes on with the answer, whatever that is. The questions and the types of their answers
are an `Interface`. `interpret` runs a dialogue in a monad that can answer, which may be that of the
dialogues of another interface.
-/

namespace AlertConsole

structure Interface where
  Question : Type
  Answer : Question → Type

inductive Dialogue (I : Interface) (α : Type) : Type where
  | done (a : α)
  | ask (q : I.Question) (next : I.Answer q → Dialogue I α)

namespace Dialogue

variable {I : Interface} {α β γ : Type}

def bind : Dialogue I α → (α → Dialogue I β) → Dialogue I β
  | done a, f => f a
  | ask q next, f => ask q fun r => (next r).bind f

instance : Monad (Dialogue I) where
  pure := done
  bind := bind

/-- Asks one question. -/
def question (q : I.Question) : Dialogue I (I.Answer q) :=
  ask q done

@[simp] theorem pure_eq (a : α) : (pure a : Dialogue I α) = done a := rfl

@[simp] theorem done_bind (a : α) (f : α → Dialogue I β) : (done a >>= f) = f a := rfl

@[simp] theorem ask_bind (q : I.Question) (next : I.Answer q → Dialogue I α)
    (f : α → Dialogue I β) : (ask q next >>= f) = ask q fun r => next r >>= f := rfl

theorem bind_done (d : Dialogue I α) : (d >>= done) = d := by
  induction d with
  | done a => rfl
  | ask q next ih => simp [ih]

theorem bind_assoc (d : Dialogue I α) (f : α → Dialogue I β) (g : β → Dialogue I γ) :
    (d >>= f >>= g) = d >>= fun a => f a >>= g := by
  induction d with
  | done a => rfl
  | ask q next ih => simp [ih]

instance : LawfulMonad (Dialogue I) :=
  LawfulMonad.mk' (Dialogue I) bind_done (fun _ _ => rfl) bind_assoc

/-- Runs a dialogue in a monad that answers its questions. -/
def interpret {m : Type → Type} [Monad m] (answer : (q : I.Question) → m (I.Answer q)) :
    Dialogue I α → m α
  | done a => pure a
  | ask q next => do (next (← answer q)).interpret answer

@[simp] theorem interpret_done {m : Type → Type} [Monad m]
    (answer : (q : I.Question) → m (I.Answer q)) (a : α) :
    (done a).interpret answer = pure a := rfl

@[simp] theorem interpret_ask {m : Type → Type} [Monad m]
    (answer : (q : I.Question) → m (I.Answer q)) (q : I.Question)
    (next : I.Answer q → Dialogue I α) :
    (ask q next).interpret answer = answer q >>= fun r => (next r).interpret answer := rfl

theorem interpret_bind {m : Type → Type} [Monad m] [LawfulMonad m]
    (answer : (q : I.Question) → m (I.Answer q)) (d : Dialogue I α) (f : α → Dialogue I β) :
    (d >>= f).interpret answer = d.interpret answer >>= fun a => (f a).interpret answer := by
  induction d with
  | done a => simp
  | ask q next ih => simp [ih]

end Dialogue

end AlertConsole
