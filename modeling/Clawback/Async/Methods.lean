import Mathlib.Data.List.Forall2

/-!
# Objects that answer alike

A method works on the state of its object, and returns or throws. Two objects whose states are of
different types answer alike if their states are related at first and every method, called in
related states, gives the same result and leaves the states related. `Agrees R Q m m'` says so of
one method; what it returns satisfies `Q`.

* `Agrees.bind`, `Agrees.lift`: a rule for each way to build a method.
* `serve_agrees`: so the objects give the same results to every sequence of calls.
-/

namespace Async

variable {X σ τ α β : Type}

/-- A method of an object with state `σ`, which nothing interrupts. -/
abbrev Method (X σ : Type) := ExceptT X (StateM σ)

/-- What a method does when it is called: its result, and the state after it. -/
def invoke (m : Method X σ α) (s : σ) : Except X α × σ := m.run.run s

/-- A synchronous step. -/
def Method.lift (r : Except X α) : Method X σ α := ExceptT.mk (pure r)

@[simp] theorem invoke_lift (r : Except X α) (s : σ) :
    invoke (Method.lift r : Method X σ α) s = (r, s) := rfl

@[simp] theorem invoke_get (s : σ) : invoke (get : Method X σ σ) s = (.ok s, s) := rfl

theorem invoke_bind_ok {m : Method X σ α} {f : α → Method X σ β} {s s' : σ} {a : α}
    (h : invoke m s = (.ok a, s')) : invoke (m >>= f) s = invoke (f a) s' := by
  unfold invoke at h ⊢
  rw [ExceptT.run_bind, StateT.run_bind, h]
  rfl

theorem invoke_bind_error {m : Method X σ α} {f : α → Method X σ β} {s s' : σ} {x : X}
    (h : invoke m s = (.error x, s')) : invoke (m >>= f) s = (.error x, s') := by
  unfold invoke at h ⊢
  rw [ExceptT.run_bind, StateT.run_bind, h]
  rfl

theorem invoke_tryCatch_ok {m : Method X σ α} {f : X → Method X σ α} {s s' : σ} {a : α}
    (h : invoke m s = (.ok a, s')) : invoke (tryCatch m f) s = (.ok a, s') := by
  unfold invoke at h ⊢
  rw [ExceptT.run_tryCatch, StateT.run_bind, h]
  rfl

theorem invoke_tryCatch_error {m : Method X σ α} {f : X → Method X σ α} {s s' : σ} {x : X}
    (h : invoke m s = (.error x, s')) : invoke (tryCatch m f) s = invoke (f x) s' := by
  unfold invoke at h ⊢
  rw [ExceptT.run_tryCatch, StateT.run_bind, h]
  rfl

/-! ## Methods that agree -/

/-- In related states the methods give the same result, which satisfies `Q`, and leave the states
related. -/
def Agrees (R : σ → τ → Prop) (Q : α → Prop) (m : Method X σ α) (m' : Method X τ α) : Prop :=
  ∀ s t, R s t → (invoke m s).1 = (invoke m' t).1 ∧ R (invoke m s).2 (invoke m' t).2 ∧
    ∀ a, (invoke m s).1 = .ok a → Q a

namespace Agrees

variable {R : σ → τ → Prop} {Q Q' : α → Prop}

theorem ret {a : α} (h : Q a) : Agrees R Q (pure a : Method X σ α) (pure a : Method X τ α) := by
  intro s t hst
  refine ⟨rfl, hst, fun b hb => ?_⟩
  cases hb
  exact h

theorem lift {r : Except X α} (h : ∀ a, r = .ok a → Q a) :
    Agrees R Q (Method.lift r : Method X σ α) (Method.lift r : Method X τ α) :=
  fun _ _ hst => ⟨rfl, hst, h⟩

theorem throw {x : X} : Agrees R Q (throw x : Method X σ α) (throw x : Method X τ α) :=
  fun _ _ hst => ⟨rfl, hst, nofun⟩

theorem mono {m : Method X σ α} {m' : Method X τ α} (h : Agrees R Q m m')
    (hQ : ∀ a, Q a → Q' a) : Agrees R Q' m m' := by
  intro s t hst
  obtain ⟨hresult, hstates, hpost⟩ := h s t hst
  exact ⟨hresult, hstates, fun a ha => hQ a (hpost a ha)⟩

/-- One method and then another that works on what the first has returned. -/
theorem bind {S : β → Prop} {m : Method X σ α} {m' : Method X τ α} {f : α → Method X σ β}
    {f' : α → Method X τ β} (h : Agrees R Q m m') (hnext : ∀ a, Q a → Agrees R S (f a) (f' a)) :
    Agrees R S (m >>= f) (m' >>= f') := by
  intro s t hst
  obtain ⟨hresult, hstates, hpost⟩ := h s t hst
  obtain ⟨r, s', hs⟩ : ∃ r s', invoke m s = (r, s') := ⟨_, _, rfl⟩
  obtain ⟨r', t', ht⟩ : ∃ r t', invoke m' t = (r, t') := ⟨_, _, rfl⟩
  rw [hs, ht] at hresult hstates
  rw [hs] at hpost
  obtain rfl : r = r' := hresult
  cases r with
  | error x =>
    rw [invoke_bind_error hs, invoke_bind_error ht]
    exact ⟨rfl, hstates, nofun⟩
  | ok a =>
    rw [invoke_bind_ok hs, invoke_bind_ok ht]
    exact hnext a (hpost a rfl) s' t' hstates

end Agrees

/-! ## Sequences of calls -/

/-- The results of calls that are made one at a time, and the state after them. -/
def serve : List (Method X σ α) → σ → List (Except X α) × σ
  | [], s => ([], s)
  | m :: ms, s =>
    let (r, s') := invoke m s
    let (rs, s'') := serve ms s'
    (r :: rs, s'')

theorem serve_cons (m : Method X σ α) (ms : List (Method X σ α)) (s : σ) :
    serve (m :: ms) s =
      ((invoke m s).1 :: (serve ms (invoke m s).2).1, (serve ms (invoke m s).2).2) := rfl

/-- Calls that agree one by one give the same results. -/
theorem serve_agrees {R : σ → τ → Prop} {Q : α → Prop} {ms : List (Method X σ α)}
    {ms' : List (Method X τ α)} (h : List.Forall₂ (Agrees R Q) ms ms') {s : σ} {t : τ}
    (hst : R s t) : (serve ms s).1 = (serve ms' t).1 ∧ R (serve ms s).2 (serve ms' t).2 := by
  induction h generalizing s t with
  | nil => exact ⟨rfl, hst⟩
  | cons hfirst _ ih =>
    obtain ⟨hresult, hstates, -⟩ := hfirst s t hst
    obtain ⟨hresults, hfinal⟩ := ih hstates
    rw [serve_cons, serve_cons, hresult, hresults]
    exact ⟨rfl, hfinal⟩

end Async
