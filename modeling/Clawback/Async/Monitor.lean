import Clawback.Async.Trace
import Mathlib.Algebra.BigOperators.Fin
import Mathlib.Algebra.Order.BigOperators.Group.Finset

/-!
# Monitors

A monitor watches what a call asks and is answered: `Step s a s'` says that the entry `a` may come
in the state `s`, and leads to `s'`. `Speaks Step Q p s` says that the program `p` asks only what may
come, from `s` on, whatever it is answered.

* `Speaks.bind`, `Speaks.attempt`, `Speaks.perform`: a rule for each way to build a program.
* `monitored_of_run`: in every run, what a call has asked and been answered leads to a state.
* `Leads.cost_le`, `cost_le_of_run`: what entries cost is bounded by what the states allow for.
-/

namespace Async

variable {E K X W C σ α β : Type} {R : E → Type}

section Rules

variable (Step : σ → Entry E R X → σ → Prop)

/-- Whatever it is answered, the program asks only what may come, and ends with `Q`. -/
def Speaks (Q : Except X α → σ → Prop) : Prog E R X α → σ → Prop
  | .pure a, s => Q (.ok a) s
  | .throw x, s => Q (.error x) s
  | .await e next, s => ∀ r, ∃ s', Step s ⟨e, r⟩ s' ∧ Speaks Q (next r) s'

/-- The entries lead from one state to the other. -/
inductive Leads (s : σ) : Trace E R X → σ → Prop
  | nil : Leads s [] s
  | step {tr : Trace E R X} {a : Entry E R X} {s₁ s₂ : σ} :
    Leads s tr s₁ → Step s₁ a s₂ → Leads s (tr ++ [a]) s₂

end Rules

section Programs

variable {Step : σ → Entry E R X → σ → Prop} {s s' : σ}

namespace Speaks

variable {Q : Except X β → σ → Prop}

theorem mono {Q' : Except X β → σ → Prop} (hQ : ∀ r s, Q r s → Q' r s) {p : Prog E R X β}
    (h : Speaks Step Q p s) : Speaks Step Q' p s := by
  induction p generalizing s with
  | pure a => exact hQ _ _ h
  | throw x => exact hQ _ _ h
  | await e next ih =>
    intro r
    obtain ⟨s', hstep, hnext⟩ := h r
    exact ⟨s', hstep, ih r hnext⟩

/-- What may come for one monitor may come for another. -/
theorem weaken {Step' : σ → Entry E R X → σ → Prop} (hstep : ∀ s a s', Step s a s' → Step' s a s')
    {p : Prog E R X β} (h : Speaks Step Q p s) : Speaks Step' Q p s := by
  induction p generalizing s with
  | pure a => exact h
  | throw x => exact h
  | await e next ih =>
    intro r
    obtain ⟨s', ha, hnext⟩ := h r
    exact ⟨s', hstep _ _ _ ha, ih r hnext⟩

/-- Running `p` and then `f` on what it has returned. -/
theorem bind {p : Prog E R X α} {f : α → Prog E R X β}
    (h : Speaks Step (fun r s => match r with
      | .ok a => Speaks Step Q (f a) s
      | .error x => Q (.error x) s) p s) : Speaks Step Q (p >>= f) s := by
  induction p generalizing s with
  | pure a => exact h
  | throw x => exact h
  | await e next ih =>
    intro r
    obtain ⟨s', hstep, hnext⟩ := h r
    exact ⟨s', hstep, ih r hnext⟩

/-- Running the body of a `try` block. -/
theorem attempt {p : Prog E R X α} {Q : Except X (Except X α) → σ → Prop}
    (h : Speaks Step (fun r s => Q (.ok r) s) p s) : Speaks Step Q p.attempt s := by
  induction p generalizing s with
  | pure a => exact h
  | throw x => exact h
  | await e next ih =>
    intro r
    obtain ⟨s', hstep, hnext⟩ := h r
    exact ⟨s', hstep, ih r hnext⟩

/-- Awaiting one effect. -/
theorem perform {e : E} {Q : Except X (R e) → σ → Prop}
    (h : ∀ r, ∃ s', Step s ⟨e, r⟩ s' ∧ Q r s') :
    Speaks Step Q (Prog.perform e : Prog E R X (R e)) s := by
  intro r
  obtain ⟨s', hstep, hQ⟩ := h r
  refine ⟨s', hstep, ?_⟩
  cases r with
  | ok a => exact hQ
  | error x => exact hQ

theorem lift {r : Except X β} (h : Q r s) : Speaks Step Q (Prog.lift r) s := by
  cases r with
  | ok a => exact h
  | error x => exact h

/-- A program that the monitor does not mind. -/
theorem of_only {S : E → Prop} {T : β → Prop} {p : Prog E R X β} (h : Only S T p)
    (hstay : ∀ e r, S e → Step s ⟨e, r⟩ s) : Speaks Step (fun _ s' => s' = s) p s := by
  induction p with
  | pure a => exact rfl
  | throw x => exact rfl
  | await e next ih => exact fun r => ⟨s, hstay e r h.1, ih r (h.2 r)⟩

end Speaks

namespace Leads

variable {tr : Trace E R X}

theorem mono {Step' : σ → Entry E R X → σ → Prop} (hstep : ∀ s a s', Step s a s' → Step' s a s')
    (h : Leads Step s tr s') : Leads Step' s tr s' := by
  induction h with
  | nil => exact .nil
  | step _ ha ih => exact ih.step (hstep _ _ _ ha)

theorem split {tr₁ tr₂ : Trace E R X} {a : Entry E R X} (h : Leads Step s tr s')
    (htr : tr = tr₁ ++ [a] ++ tr₂) : ∃ s₁ s₂, Leads Step s tr₁ s₁ ∧ Step s₁ a s₂ := by
  induction h generalizing tr₂ with
  | nil => exact absurd (congrArg List.length htr) (by simp)
  | @step tr' b s₁ s₂ hleads hstep ih =>
    rcases List.eq_nil_or_concat' tr₂ with rfl | ⟨rest, c, rfl⟩
    · rw [List.append_nil] at htr
      obtain ⟨rfl, hb⟩ := List.append_inj' htr rfl
      cases hb
      exact ⟨s₁, s₂, hleads, hstep⟩
    · rw [← List.append_assoc] at htr
      exact ih (List.append_inj' htr rfl).1

/-- What the entries cost comes out of what the first state allows for. -/
theorem cost_le {cost : Entry E R X → Nat} {budget : σ → Nat}
    (hcost : ∀ s a s', Step s a s' → cost a + budget s' ≤ budget s) (h : Leads Step s tr s') :
    (tr.map cost).sum + budget s' ≤ budget s := by
  induction h with
  | nil => exact Nat.le_of_eq (Nat.zero_add _)
  | @step tr a s₁ s₂ _ hstep ih =>
    rw [List.map_append, List.sum_append, List.map_singleton, List.sum_singleton]
    have := hcost s₁ a s₂ hstep
    omega

end Leads

end Programs

/-! ## Runs -/

/-- The calls of the pool have followed their monitors, and still speak to them. -/
structure Monitored (Step : K → σ → Entry E R X → σ → Prop) (start : K → σ) (p : Pool K E R X W α) :
    Prop where
  numbered : ∀ ev ∈ p.history, ev.thread < p.threads.length
  leads : ∀ (t : Nat) (k : K) (q : Prog E R X α), p.threads[t]? = some (k, q) →
    ∃ s, Leads (Step k) (start k) (own t p.history) s ∧ Speaks (Step k) (fun _ _ => True) q s

variable {Step : K → σ → Entry E R X → σ → Prop} {start : K → σ} {sys : System K E R X W C α}

theorem monitored_apply (hstart : ∀ k, Speaks (Step k) (fun _ _ => True) (sys.start k) (start k))
    {p p' : Pool K E R X W α} {m : Move K C} (h : Monitored Step start p)
    (happly : sys.apply p m = some p') : Monitored Step start p' := by
  cases m with
  | call k =>
    obtain rfl := System.apply_call happly
    refine ⟨?_, fun t k' q hthread => ?_⟩
    · rw [List.length_append, List.length_singleton]
      exact System.numbered_called h.numbered
    · rw [own_append, own_called, List.append_nil]
      rcases System.thread_of_append hthread with hold | ⟨rfl, heq⟩
      · exact h.leads t k' q hold
      · cases heq
        rw [own_eq_nil fun ev hev => Nat.ne_of_lt (h.numbered ev hev)]
        exact ⟨start k, .nil, hstart k⟩
  | step t c =>
    obtain ⟨k, e, next, r, w, hthread, -, rfl⟩ := System.apply_step happly
    refine ⟨?_, fun u k' q hu => ?_⟩
    · rw [List.length_set]
      exact System.numbered_did h.numbered (List.getElem?_eq_some_iff.mp hthread).1
    · rw [own_append]
      rcases System.thread_of_set hthread hu with ⟨rfl, heq⟩ | ⟨hne, hother⟩
      · cases heq
        rw [own_did_self]
        obtain ⟨s, hleads, hspeaks⟩ := h.leads u k _ hthread
        obtain ⟨s', hstep, hnext⟩ := hspeaks r
        exact ⟨s', hleads.step hstep, hnext⟩
      · rw [own_did_ne hne.symm, List.append_nil]
        exact h.leads u k' q hother

theorem monitored_of_run (hstart : ∀ k, Speaks (Step k) (fun _ _ => True) (sys.start k) (start k))
    {moves : List (Move K C)} {w : W} {p : Pool K E R X W α}
    (hrun : sys.run (Pool.init w) moves = some p) : Monitored Step start p := by
  have hinit : Monitored Step start (Pool.init w : Pool K E R X W α) := ⟨nofun, nofun⟩
  exact System.run_induction (fun p m p' h => monitored_apply hstart h) hinit hrun

/-- What an event costs. -/
def Event.cost (cost : Entry E R X → Nat) : Event K E R X → Nat
  | called _ _ => 0
  | did _ a => cost a

/-- A history costs what its calls cost. -/
theorem cost_eq_sum (cost : Entry E R X → Nat) {n : Nat} {h : History K E R X}
    (hn : ∀ ev ∈ h, ev.thread < n) : (h.map (Event.cost cost)).sum =
      ∑ i : Fin n, ((own i h).map cost).sum := by
  induction h with
  | nil => simp [own]
  | cons ev h ih =>
    have hrest := ih fun ev' hev' => hn ev' (List.mem_cons_of_mem _ hev')
    have hown : ∀ i : Fin n, ((own i (ev :: h)).map cost).sum =
        ((own i [ev]).map cost).sum + ((own i h).map cost).sum := by
      intro i
      rw [← List.singleton_append, own_append, List.map_append, List.sum_append]
    have hfirst : ∑ i : Fin n, ((own i [ev]).map cost).sum = ev.cost cost := by
      cases ev with
      | called t k => exact Finset.sum_eq_zero fun i _ => by rw [own_called]; rfl
      | did t a =>
        have ht : t < n := hn _ (List.mem_cons_self ..)
        rw [Finset.sum_eq_single (⟨t, ht⟩ : Fin n)]
        · rw [own_did_self]
          exact Nat.add_zero _
        · intro i _ hi
          rw [own_did_ne fun heq => hi (Fin.ext heq.symm)]
          rfl
        · exact fun hmem => absurd (Finset.mem_univ _) hmem
    rw [List.map_cons, List.sum_cons, hrest, Finset.sum_congr rfl fun i _ => hown i,
      Finset.sum_add_distrib, hfirst]

/-- A run costs at most what its calls are allowed. -/
theorem cost_le_of_run (hstart : ∀ k, Speaks (Step k) (fun _ _ => True) (sys.start k) (start k))
    {cost : Entry E R X → Nat} {budget : σ → Nat}
    (hcost : ∀ k s a s', Step k s a s' → cost a + budget s' ≤ budget s) {moves : List (Move K C)}
    {w : W} {p : Pool K E R X W α} (hrun : sys.run (Pool.init w) moves = some p) :
    (p.history.map (Event.cost cost)).sum ≤ (p.threads.map fun kq => budget (start kq.1)).sum := by
  have hmonitored := monitored_of_run hstart hrun
  rw [cost_eq_sum cost hmonitored.numbered, ← Fin.sum_univ_fun_getElem]
  refine Finset.sum_le_sum fun i _ => ?_
  obtain ⟨s, hleads, -⟩ := hmonitored.leads i p.threads[i].1 p.threads[i].2
    (List.getElem?_eq_getElem i.2)
  exact Nat.le_trans (Nat.le_add_right _ _) (hleads.cost_le (hcost p.threads[i].1))

end Async
