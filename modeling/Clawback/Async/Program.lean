import Mathlib.Tactic.Basic

/-!
# Asynchronous programs

`Prog E R X α` is an `async` function: it may suspend at an effect `e : E` (an `await`),
it resumes with an answer of type `R e` or with a rejection of type `X`, and it ends by
returning an `α` or by throwing an `X`.

* `bind_assoc`, `bind_pure`: the monad laws.
* `attempt`: the body of a `try` block, with what it returned or threw.
-/

namespace Async

/-- An `async` function that is about to run. -/
inductive Prog (E : Type) (R : E → Type) (X α : Type) where
  | pure (a : α)
  | throw (x : X)
  | await (e : E) (k : Except X (R e) → Prog E R X α)

namespace Prog

variable {E : Type} {R : E → Type} {X α β γ : Type}

/-- Run `p`, then `f` on what it returned. -/
protected def bind : Prog E R X α → (α → Prog E R X β) → Prog E R X β
  | .pure a, f => f a
  | .throw x, _ => .throw x
  | .await e k, f => .await e fun r => (k r).bind f

instance : Monad (Prog E R X) where
  pure := .pure
  bind := Prog.bind

/-- `await e`. -/
def perform (e : E) : Prog E R X (R e) :=
  .await e fun
    | .ok a => .pure a
    | .error x => .throw x

/-- A synchronous step that may throw. -/
def lift : Except X α → Prog E R X α
  | .ok a => .pure a
  | .error x => .throw x

/-- Run `p` to its end, and return what it returned or threw. -/
def attempt : Prog E R X α → Prog E R X (Except X α)
  | .pure a => .pure (.ok a)
  | .throw x => .pure (.error x)
  | .await e k => .await e fun r => (k r).attempt

/-- The result of a function that has ended. -/
def result? : Prog E R X α → Option (Except X α)
  | .pure a => some (.ok a)
  | .throw x => some (.error x)
  | .await _ _ => none

@[simp] theorem pure_bind (a : α) (f : α → Prog E R X β) : (Prog.pure a).bind f = f a := rfl

@[simp] theorem await_bind (e : E) (k : Except X (R e) → Prog E R X α)
    (f : α → Prog E R X β) : (Prog.await e k).bind f = .await e fun r => (k r).bind f := rfl

theorem bind_pure (p : Prog E R X α) : p.bind .pure = p := by
  induction p with
  | pure a => rfl
  | throw x => rfl
  | await e k ih =>
    rw [await_bind]
    congr 1
    funext r
    exact ih r

theorem bind_assoc (p : Prog E R X α) (f : α → Prog E R X β) (g : β → Prog E R X γ) :
    (p.bind f).bind g = p.bind fun a => (f a).bind g := by
  induction p with
  | pure a => rfl
  | throw x => rfl
  | await e k ih =>
    rw [await_bind, await_bind, await_bind]
    congr 1
    funext r
    exact ih r

instance : LawfulMonad (Prog E R X) :=
  LawfulMonad.mk' (Prog E R X) bind_pure (fun _ _ => rfl) bind_assoc

theorem pure_def (a : α) : (Pure.pure a : Prog E R X α) = .pure a := rfl

end Prog

end Async
