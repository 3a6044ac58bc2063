import Clawback.Async.Program
import Mathlib.Data.List.Basic

/-!
# Interleaved calls of asynchronous programs

A pool of calls that share a world. A call runs until it awaits an effect; then any other
call may run. An effect happens at once: `exec e c w` is its answer and the world after
it, when the environment makes the choice `c` (a reading of the clock, a failure, the
reply of a service); it is `none` when the environment cannot make that choice. The
history lists the calls and the effects in the order in which they happened.

* `System.run_of_runInTurn`: a run in which a call starts only when the others have ended
  is one of the interleavings.
* `System.runInTurn_inTurn`: in such a run every effect belongs to the latest call.
* `System.After.apply`: from an idle pool on, only later calls do something.
* `System.run_mapWorld`: a system that restricts what the environment can answer.
-/

namespace Async

variable {E K X W C α : Type} {R : E → Type}

/-- An effect and its answer. -/
structure Entry (E : Type) (R : E → Type) (X : Type) where
  effect : E
  result : Except X (R effect)

/-- One entry of the history of a pool. -/
inductive Event (K E : Type) (R : E → Type) (X : Type) where
  | called (t : Nat) (k : K)
  | did (t : Nat) (a : Entry E R X)

namespace Event

/-- The call an entry belongs to. -/
def thread : Event K E R X → Nat
  | called t _ => t
  | did t _ => t

end Event

/-- What has happened so far. -/
abbrev History (K E : Type) (R : E → Type) (X : Type) := List (Event K E R X)

/-- What the scheduler does next. -/
inductive Move (K C : Type) where
  | call (k : K)
  | step (t : Nat) (c : C)

/-- The world the calls share, what has happened so far, and the calls made so far, each
with what is left of it. -/
structure Pool (K E : Type) (R : E → Type) (X W α : Type) where
  world : W
  history : History K E R X
  threads : List (K × Prog E R X α)

namespace Pool

/-- A pool without calls. -/
def init (w : W) : Pool K E R X W α := ⟨w, [], []⟩

/-- Every call has ended. -/
def idle (p : Pool K E R X W α) : Bool := p.threads.all fun kp => kp.2.result?.isSome

/-- The result of a call that has ended. -/
def result? (p : Pool K E R X W α) (t : Nat) : Option (Except X α) :=
  p.threads[t]?.bind fun kp => kp.2.result?

/-- The call has ended, and has not thrown. -/
def returned (p : Pool K E R X W α) (t : Nat) : Bool :=
  match p.result? t with
  | some (.ok _) => true
  | _ => false

theorem returned_iff {p : Pool K E R X W α} {t : Nat} :
    p.returned t = true ↔ ∃ a, p.result? t = some (.ok a) := by
  rw [returned]
  split
  · rename_i a heq
    exact iff_of_true rfl ⟨a, heq⟩
  · rename_i hother
    exact iff_of_false Bool.false_ne_true fun ⟨a, heq⟩ => hother a heq

end Pool

/-- The call that a move makes. -/
def Move.called? : Move K C → Option K
  | call k => some k
  | step _ _ => none

/-- The calls of a system and its effects. -/
structure System (K E : Type) (R : E → Type) (X W C α : Type) where
  start : K → Prog E R X α
  exec : (e : E) → C → W → Option (Except X (R e) × W)

namespace System

variable (sys : System K E R X W C α)

/-- The pool after one move; `none` when the move is not possible. -/
def apply (p : Pool K E R X W α) : Move K C → Option (Pool K E R X W α)
  | .call k =>
    some ⟨p.world, p.history ++ [.called p.threads.length k], p.threads ++ [(k, sys.start k)]⟩
  | .step t c =>
    match p.threads[t]? with
    | some (k, .await e next) =>
      match sys.exec e c p.world with
      | some (r, w) => some ⟨w, p.history ++ [.did t ⟨e, r⟩], p.threads.set t (k, next r)⟩
      | none => none
    | _ => none

/-- The pool after a list of moves. -/
def run (p : Pool K E R X W α) : List (Move K C) → Option (Pool K E R X W α)
  | [] => some p
  | m :: moves => (sys.apply p m).bind fun p' => run p' moves

/-- A move of a run in which a call starts only when the others have ended. -/
def applyInTurn (p : Pool K E R X W α) : Move K C → Option (Pool K E R X W α)
  | .call k => if p.idle then sys.apply p (.call k) else none
  | .step t c => sys.apply p (.step t c)

/-- The pool after a list of moves, the calls one after another. -/
def runInTurn (p : Pool K E R X W α) : List (Move K C) → Option (Pool K E R X W α)
  | [] => some p
  | m :: moves => (sys.applyInTurn p m).bind fun p' => runInTurn p' moves

variable {sys}

theorem apply_call {p p' : Pool K E R X W α} {k : K} (h : sys.apply p (.call k) = some p') :
    p' = ⟨p.world, p.history ++ [.called p.threads.length k],
      p.threads ++ [(k, sys.start k)]⟩ :=
  (Option.some.inj h).symm

theorem apply_step {p p' : Pool K E R X W α} {t : Nat} {c : C}
    (h : sys.apply p (.step t c) = some p') :
    ∃ k e next r w, p.threads[t]? = some (k, .await e next) ∧
      sys.exec e c p.world = some (r, w) ∧
      p' = ⟨w, p.history ++ [.did t ⟨e, r⟩], p.threads.set t (k, next r)⟩ := by
  rw [apply] at h
  split at h
  · rename_i k e next hthread
    split at h
    · rename_i r w hexec
      exact ⟨k, e, next, r, w, hthread, hexec, (Option.some.inj h).symm⟩
    · cases h
  · cases h

/-- A call is made and takes its first step. -/
theorem run_call_step {p : Pool K E R X W α} {k : K} {c : C} {e : E}
    {next : Except X (R e) → Prog E R X α} {r : Except X (R e)} {w : W}
    (hstart : sys.start k = .await e next) (hexec : sys.exec e c p.world = some (r, w)) :
    sys.run p [.call k, .step p.threads.length c] = some
      ⟨w, p.history ++ [.called p.threads.length k] ++ [.did p.threads.length ⟨e, r⟩],
        p.threads ++ [(k, next r)]⟩ := by
  have hthread : (p.threads ++ [(k, sys.start k)])[p.threads.length]? = some (k, .await e next) := by
    rw [List.getElem?_append_right (Nat.le_refl _), Nat.sub_self, hstart]
    rfl
  simp only [run, apply, Option.bind_some, hthread, hexec]
  rw [List.set_append_right _ _ (Nat.le_refl _), Nat.sub_self]
  rfl

/-- What every move keeps holds after a run. -/
theorem run_induction {I : Pool K E R X W α → Prop}
    (hstep : ∀ p m p', I p → sys.apply p m = some p' → I p') :
    ∀ {moves : List (Move K C)} {p p' : Pool K E R X W α}, I p →
      sys.run p moves = some p' → I p' := by
  intro moves
  induction moves with
  | nil =>
    intro p p' hp h
    exact Option.some.inj h ▸ hp
  | cons m moves ih =>
    intro p p' hp h
    obtain ⟨q, hq, hrest⟩ := Option.bind_eq_some_iff.mp h
    exact ih (hstep p m q hp hq) hrest

/-- The calls of a run are those that its moves make. -/
theorem calls_of_run : ∀ {moves : List (Move K C)} {p p' : Pool K E R X W α},
    sys.run p moves = some p' →
      p'.threads.map Prod.fst = p.threads.map Prod.fst ++ moves.filterMap Move.called? := by
  intro moves
  induction moves with
  | nil =>
    intro p p' h
    rw [Option.some.inj h, List.filterMap_nil, List.append_nil]
  | cons m moves ih =>
    intro p p' h
    obtain ⟨q, hq, hrest⟩ := Option.bind_eq_some_iff.mp h
    rw [ih hrest]
    cases m with
    | call k =>
      rw [apply_call hq, List.map_append, List.append_assoc]
      rfl
    | step t c =>
      obtain ⟨k, e, next, r, w, hthread, -, rfl⟩ := apply_step hq
      have hsame : (p.threads.set t (k, next r)).map Prod.fst = p.threads.map Prod.fst := by
        obtain ⟨hlt, hget⟩ := List.getElem?_eq_some_iff.mp hthread
        have hlength : t < (p.threads.map Prod.fst).length := by rwa [List.length_map]
        have hfst : k = (p.threads.map Prod.fst)[t] := by rw [List.getElem_map, hget]
        rw [List.map_set, hfst]
        exact List.set_getElem_self _
      rw [hsame]
      rfl

/-! ## Runs in which the calls take turns -/

theorem applyInTurn_eq {p p' : Pool K E R X W α} {m : Move K C}
    (h : sys.applyInTurn p m = some p') : sys.apply p m = some p' := by
  cases m with
  | call k =>
    rw [applyInTurn] at h
    split at h
    · exact h
    · cases h
  | step t c => exact h

/-- A run in which the calls take turns is one of the interleavings. -/
theorem run_of_runInTurn : ∀ {moves : List (Move K C)} {p p' : Pool K E R X W α},
    sys.runInTurn p moves = some p' → sys.run p moves = some p' := by
  intro moves
  induction moves with
  | nil => exact fun h => h
  | cons m moves ih =>
    intro p p' h
    obtain ⟨q, hq, hrest⟩ := Option.bind_eq_some_iff.mp h
    exact Option.bind_eq_some_iff.mpr ⟨q, applyInTurn_eq hq, ih hrest⟩

theorem runInTurn_induction {I : Pool K E R X W α → Prop}
    (hstep : ∀ p m p', I p → sys.applyInTurn p m = some p' → I p') :
    ∀ {moves : List (Move K C)} {p p' : Pool K E R X W α}, I p →
      sys.runInTurn p moves = some p' → I p' := by
  intro moves
  induction moves with
  | nil =>
    intro p p' hp h
    exact Option.some.inj h ▸ hp
  | cons m moves ih =>
    intro p p' hp h
    obtain ⟨q, hq, hrest⟩ := Option.bind_eq_some_iff.mp h
    exact ih (hstep p m q hp hq) hrest

end System

/-- The latest call of a history. -/
def lastCalled (h : History K E R X) : Option Nat :=
  h.foldl (fun last ev => match ev with
    | .called t _ => some t
    | .did _ _ => last) none

@[simp] theorem lastCalled_called (h : History K E R X) (t : Nat) (k : K) :
    lastCalled (h ++ [.called t k]) = some t := by
  rw [lastCalled, List.foldl_append]
  rfl

@[simp] theorem lastCalled_did (h : History K E R X) (t : Nat) (a : Entry E R X) :
    lastCalled (h ++ [.did t a]) = lastCalled h := by
  rw [lastCalled, List.foldl_append]
  rfl

/-- Every effect belongs to the latest call. -/
inductive InTurn : History K E R X → Prop
  | nil : InTurn []
  | called {h : History K E R X} {t : Nat} {k : K} :
    InTurn h → (∀ ev ∈ h, ev.thread ≠ t) → InTurn (h ++ [.called t k])
  | did {h : History K E R X} {t : Nat} {a : Entry E R X} :
    InTurn h → lastCalled h = some t → InTurn (h ++ [.did t a])

theorem InTurn.split {h h₁ h₂ : History K E R X} {t : Nat} {a : Entry E R X}
    (hturn : InTurn h) (heq : h = h₁ ++ .did t a :: h₂) :
    InTurn h₁ ∧ lastCalled h₁ = some t := by
  induction hturn generalizing h₂ with
  | nil => cases h₁ <;> cases heq
  | called _ _ ih =>
    rcases List.eq_nil_or_concat' h₂ with rfl | ⟨h₂, ev, rfl⟩
    · cases (List.append_inj' heq rfl).2
    · rw [← List.cons_append, ← List.append_assoc] at heq
      exact ih (List.append_inj' heq rfl).1
  | did hturn hlast ih =>
    rcases List.eq_nil_or_concat' h₂ with rfl | ⟨h₂, ev, rfl⟩
    · obtain ⟨rfl, hev⟩ := List.append_inj' heq rfl
      cases hev
      exact ⟨hturn, hlast⟩
    · rw [← List.cons_append, ← List.append_assoc] at heq
      exact ih (List.append_inj' heq rfl).1

/-- From an effect of the latest call on, all that has happened belongs to this call. -/
theorem InTurn.since {h h₁ : History K E R X} {t : Nat} (hturn : InTurn h)
    (hlast : lastCalled h = some t) {a : Entry E R X} {h₂ : History K E R X}
    (heq : h = h₁ ++ .did t a :: h₂) : ∀ ev ∈ h₂, ∃ b, ev = .did t b := by
  induction hturn generalizing h₂ with
  | nil => cases h₁ <;> cases heq
  | called hturn hfresh ih =>
    rcases List.eq_nil_or_concat' h₂ with rfl | ⟨h₂, ev, rfl⟩
    · intro ev hev
      cases hev
    · rw [← List.cons_append, ← List.append_assoc] at heq
      obtain ⟨rfl, -⟩ := List.append_inj' heq rfl
      rw [lastCalled_called] at hlast
      cases hlast
      exact absurd rfl (hfresh (.did t a) (by simp))
  | did hturn hturn' ih =>
    rw [lastCalled_did] at hlast
    rcases List.eq_nil_or_concat' h₂ with rfl | ⟨h₂, ev, rfl⟩
    · intro ev hev
      cases hev
    · rw [← List.cons_append, ← List.append_assoc] at heq
      obtain ⟨rfl, hev⟩ := List.append_inj' heq rfl
      obtain rfl := Option.some.inj (hturn'.symm.trans hlast)
      intro ev' hmem
      rcases List.mem_append.mp hmem with hmem | hmem
      · exact ih hlast rfl ev' hmem
      · obtain rfl := List.mem_singleton.mp hmem
        exact ⟨_, (List.cons.inj hev).1.symm⟩

namespace System

variable {sys : System K E R X W C α}

/-- The history is in turn, and only the latest call can be running. -/
structure TakesTurns (p : Pool K E R X W α) : Prop where
  inTurn : InTurn p.history
  numbered : ∀ ev ∈ p.history, ev.thread < p.threads.length
  running : ∀ t kq, p.threads[t]? = some kq → kq.2.result? = none → lastCalled p.history = some t

theorem result?_of_idle {p : Pool K E R X W α} (hidle : p.idle = true) {t : Nat}
    {kq : K × Prog E R X α} (h : p.threads[t]? = some kq) : kq.2.result? ≠ none :=
  Option.isSome_iff_ne_none.mp (List.all_eq_true.mp hidle kq (List.mem_of_getElem? h))

/-- Where one more thread has been added, a thread is an old one or this one. -/
theorem thread_of_append {β : Type} {threads : List β} {new x : β} {t : Nat}
    (h : (threads ++ [new])[t]? = some x) :
    threads[t]? = some x ∨ t = threads.length ∧ x = new := by
  rw [List.getElem?_append] at h
  split at h
  · exact .inl h
  · have hlt := (List.getElem?_eq_some_iff.mp h).1
    rw [List.length_singleton] at hlt
    obtain rfl : t = threads.length := by omega
    rw [Nat.sub_self] at h
    exact .inr ⟨rfl, (Option.some.inj h).symm⟩

/-- Where a thread has been moved on, a thread is this one or another, which is as it was. -/
theorem thread_of_set {β : Type} {threads : List β} {old new x : β} {t u : Nat}
    (hold : threads[t]? = some old) (h : (threads.set t new)[u]? = some x) :
    u = t ∧ x = new ∨ u ≠ t ∧ threads[u]? = some x := by
  rw [List.getElem?_set] at h
  split at h
  · rename_i hu
    rw [if_pos (List.getElem?_eq_some_iff.mp hold).1] at h
    exact .inl ⟨hu.symm, (Option.some.inj h).symm⟩
  · rename_i hu
    exact .inr ⟨Ne.symm hu, h⟩

/-- The calls of a history are numbered in the order in which they are made. -/
theorem numbered_called {h : History K E R X} {n : Nat} {k : K}
    (hn : ∀ ev ∈ h, ev.thread < n) : ∀ ev ∈ h ++ [.called n k], ev.thread < n + 1 := by
  intro ev hev
  rcases List.mem_append.mp hev with hev | hev
  · exact Nat.lt_succ_of_lt (hn ev hev)
  · rw [List.mem_singleton.mp hev]
    exact Nat.lt_succ_self _

theorem numbered_did {h : History K E R X} {n t : Nat} {a : Entry E R X}
    (hn : ∀ ev ∈ h, ev.thread < n) (ht : t < n) : ∀ ev ∈ h ++ [.did t a], ev.thread < n := by
  intro ev hev
  rcases List.mem_append.mp hev with hev | hev
  · exact hn ev hev
  · rw [List.mem_singleton.mp hev]
    exact ht

theorem takesTurns_apply {p p' : Pool K E R X W α} {m : Move K C} (hp : TakesTurns p)
    (h : sys.applyInTurn p m = some p') : TakesTurns p' := by
  cases m with
  | call k =>
    have hcall := apply_call (applyInTurn_eq h)
    rw [applyInTurn] at h
    split at h
    · rename_i hidle
      rw [hcall]
      refine ⟨hp.inTurn.called fun ev hev => Nat.ne_of_lt (hp.numbered ev hev), ?_, ?_⟩
      · rw [List.length_append, List.length_singleton]
        exact numbered_called hp.numbered
      intro t kq hq hrun
      rcases thread_of_append hq with hold | ⟨rfl, -⟩
      · exact absurd hrun (result?_of_idle hidle hold)
      · exact lastCalled_called _ _ _
    · cases h
  | step t c =>
    obtain ⟨k, e, next, r, w, hthread, -, rfl⟩ := apply_step h
    have hlast := hp.running t _ hthread rfl
    refine ⟨hp.inTurn.did hlast, ?_, ?_⟩
    · rw [List.length_set]
      exact numbered_did hp.numbered (List.getElem?_eq_some_iff.mp hthread).1
    intro u kq hq hrun
    rw [lastCalled_did]
    rcases thread_of_set hthread hq with ⟨rfl, -⟩ | ⟨-, hother⟩
    · exact hlast
    · exact hp.running u kq hother hrun

/-- What happens from an idle pool on is done by later calls. -/
structure After (p q : Pool K E R X W α) (since : History K E R X) : Prop where
  history : q.history = p.history ++ since
  threads : ∃ later, q.threads = p.threads ++ later
  later : ∀ t a, .did t a ∈ since → p.threads.length ≤ t

theorem after_refl (p : Pool K E R X W α) : After p p [] :=
  ⟨(List.append_nil _).symm, ⟨[], (List.append_nil _).symm⟩, fun _ _ h => (List.not_mem_nil h).elim⟩

theorem After.apply {p q q' : Pool K E R X W α} {since : History K E R X} {m : Move K C}
    (hafter : After p q since) (hidle : p.idle = true) (h : sys.apply q m = some q') :
    ∃ ev, After p q' (since ++ [ev]) ∧ q'.history = q.history ++ [ev] := by
  obtain ⟨later, hthreads⟩ := hafter.threads
  cases m with
  | call k =>
    rw [apply_call h]
    refine ⟨_, ⟨?_, ⟨later ++ [(k, sys.start k)], ?_⟩, ?_⟩, rfl⟩
    · rw [hafter.history, List.append_assoc]
    · rw [hthreads, List.append_assoc]
    · intro t a hmem
      rcases List.mem_append.mp hmem with hmem | hmem
      · exact hafter.later t a hmem
      · cases List.mem_singleton.mp hmem
  | step t c =>
    obtain ⟨k, e, next, r, w, hthread, -, rfl⟩ := apply_step h
    have ht : p.threads.length ≤ t := by
      by_contra hlt
      rw [hthreads, List.getElem?_append_left (Nat.lt_of_not_le hlt)] at hthread
      exact result?_of_idle hidle hthread rfl
    refine ⟨_, ⟨?_, ⟨later.set (t - p.threads.length) (k, next r), ?_⟩, ?_⟩, rfl⟩
    · rw [hafter.history, List.append_assoc]
    · rw [hthreads, List.set_append_right _ _ ht]
    · intro u a hmem
      rcases List.mem_append.mp hmem with hmem | hmem
      · exact hafter.later u a hmem
      · cases List.mem_singleton.mp hmem
        exact ht

theorem runInTurn_inTurn {moves : List (Move K C)} {w : W} {p : Pool K E R X W α}
    (h : sys.runInTurn (Pool.init w) moves = some p) : InTurn p.history :=
  (runInTurn_induction (I := TakesTurns) (fun _ _ _ hp h => takesTurns_apply hp h)
    ⟨.nil, fun ev hev => (List.not_mem_nil hev).elim, fun t kq hq => by cases hq⟩ h).inTurn

end System

/-! ## Runs of two systems -/

/-- The pool with another view of its world. -/
def Pool.mapWorld {W' : Type} (f : W → W') (p : Pool K E R X W α) : Pool K E R X W' α :=
  ⟨f p.world, p.history, p.threads⟩

/-- The move with another view of what the environment decides. -/
def Move.mapChoice {C' : Type} (g : C → C') : Move K C → Move K C'
  | .call k => .call k
  | .step t c => .step t (g c)

namespace System

variable {W' C' : Type} {sys : System K E R X W C α} {sys' : System K E R X W' C' α} {f : W → W'} {g : C → C'}

/-- If the effects of a system are answered as in another one, then its runs are runs of the
other one. -/
theorem run_mapWorld (hstart : sys'.start = sys.start)
    (hexec : ∀ e c w r w₁, sys.exec e c w = some (r, w₁) →
      sys'.exec e (g c) (f w) = some (r, f w₁)) :
    ∀ {moves : List (Move K C)} {p p' : Pool K E R X W α}, sys.run p moves = some p' →
      sys'.run (p.mapWorld f) (moves.map (.mapChoice g)) = some (p'.mapWorld f) := by
  intro moves
  induction moves with
  | nil =>
    intro p p' h
    cases h
    rfl
  | cons m moves ih =>
    intro p p' h
    obtain ⟨q, hq, hrest⟩ := Option.bind_eq_some_iff.mp h
    have hmove : sys'.apply (p.mapWorld f) (m.mapChoice g) = some (q.mapWorld f) := by
      cases m with
      | call k =>
        rw [apply_call hq]
        simp only [Move.mapChoice, apply, Pool.mapWorld, hstart]
      | step t c =>
        obtain ⟨k, e, next, r, w, hthread, hanswer, rfl⟩ := apply_step hq
        simp only [Move.mapChoice, apply, Pool.mapWorld, hthread, hexec _ _ _ _ _ hanswer]
    rw [List.map_cons, run, hmove]
    exact ih hrest

end System

end Async
