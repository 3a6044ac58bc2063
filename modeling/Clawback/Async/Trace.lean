import Clawback.Async.Interleaving

/-!
# What a call does on its own

A proof about interleaved calls in two parts. The first looks at one call at a time: a call
decides what to do next from its own trace, the effects it has performed and their answers,
whatever these are. `Obeys P Q p tr` says that a call that has done `tr` and is about to run
`p` asks only for effects that `P` allows after its trace, and ends with `Q`.

The second part looks at histories: in a `Lawful` one every effect is allowed by the call
that asked for it, and is answered by the world. Invariants of a system are proved by
induction on it, without looking at programs any more.

* `Obeys.bind`, `Obeys.attempt`, `Obeys.perform`: one rule for each way to build a program.
* `Only.obeys`, `Only.obeys_bind`: a part of a program that asks only for harmless effects.
* `System.run_lawful`: if every call obeys its rules from its start, then every run of the
  pool has a lawful history, and a call that has ended satisfies its postcondition.
* `own_eq_append`: the trace of a call, cut in two, cuts the history in two.
-/

namespace Async

variable {E K X W C α β : Type} {R : E → Type}

/-- The effects one call has performed, with their answers. -/
abbrev Trace (E : Type) (R : E → Type) (X : Type) := List (Entry E R X)

/-- `p` ends with `r` when it is answered as in the trace. -/
def Prog.Gives : Prog E R X β → Trace E R X → Except X β → Prop
  | .pure a, tr, r => tr = [] ∧ r = .ok a
  | .throw x, tr, r => tr = [] ∧ r = .error x
  | .await e next, tr, r => ∃ answer rest, tr = ⟨e, answer⟩ :: rest ∧ (next answer).Gives rest r

/-! ## Rules for programs -/

/-- A call that has done `tr` and is about to run `p` asks only for effects that `P` allows
after its trace, and ends with `Q`. -/
def Obeys (P : Trace E R X → E → Prop) (Q : Except X β → Trace E R X → Prop) :
    Prog E R X β → Trace E R X → Prop
  | .pure a, tr => Q (.ok a) tr
  | .throw x, tr => Q (.error x) tr
  | .await e next, tr => P tr e ∧ ∀ r, Obeys P Q (next r) (tr ++ [⟨e, r⟩])

namespace Obeys

variable {P : Trace E R X → E → Prop} {γ : Type}

theorem mono {Q Q' : Except X β → Trace E R X → Prop} (hQ : ∀ r tr, Q r tr → Q' r tr) :
    ∀ {p : Prog E R X β} {tr : Trace E R X}, Obeys P Q p tr → Obeys P Q' p tr := by
  intro p
  induction p with
  | pure a => exact fun h => hQ _ _ h
  | throw x => exact fun h => hQ _ _ h
  | await e next ih => exact fun h => ⟨h.1, fun r => ih r (h.2 r)⟩

/-- Running `p` and then `f` on what it returned. -/
theorem bind {Q : Except X γ → Trace E R X → Prop} {f : β → Prog E R X γ} :
    ∀ {p : Prog E R X β} {tr : Trace E R X},
      Obeys P (fun r tr => match r with
        | .ok a => Obeys P Q (f a) tr
        | .error x => Q (.error x) tr) p tr →
      Obeys P Q (p >>= f) tr := by
  intro p
  induction p with
  | pure a => exact fun h => h
  | throw x => exact fun h => h
  | await e next ih => exact fun h => ⟨h.1, fun r => ih r (h.2 r)⟩

/-- Running the body of a `try` block. -/
theorem attempt {Q : Except X (Except X β) → Trace E R X → Prop} :
    ∀ {p : Prog E R X β} {tr : Trace E R X},
      Obeys P (fun r tr => Q (.ok r) tr) p tr → Obeys P Q p.attempt tr := by
  intro p
  induction p with
  | pure a => exact fun h => h
  | throw x => exact fun h => h
  | await e next ih => exact fun h => ⟨h.1, fun r => ih r (h.2 r)⟩

/-- Awaiting one effect. -/
theorem perform {e : E} {Q : Except X (R e) → Trace E R X → Prop} {tr : Trace E R X}
    (hP : P tr e) (hQ : ∀ r, Q r (tr ++ [⟨e, r⟩])) :
    Obeys P Q (Prog.perform e : Prog E R X (R e)) tr := by
  refine ⟨hP, fun r => ?_⟩
  cases r with
  | ok a => exact hQ _
  | error x => exact hQ _

/-- A synchronous step. -/
theorem lift {Q : Except X β → Trace E R X → Prop} {r : Except X β} {tr : Trace E R X}
    (h : Q r tr) : Obeys P Q (Prog.lift r) tr := by
  cases r with
  | ok a => exact h
  | error x => exact h

/-- A synchronous step, and what comes after it. -/
theorem lift_bind {Q : Except X γ → Trace E R X → Prop} {r : Except X β} {f : β → Prog E R X γ}
    {tr : Trace E R X} (hnext : ∀ a, r = .ok a → Obeys P Q (f a) tr)
    (herror : ∀ x, Q (.error x) tr) : Obeys P Q (Prog.lift r >>= f) tr := by
  refine bind (lift ?_)
  cases r with
  | ok a => exact hnext a rfl
  | error x => exact herror x

/-- A program with a postcondition for what it returns, and what comes after it. -/
theorem bind_of {Q : Except X γ → Trace E R X → Prop} {S : β → Trace E R X → Prop}
    {p : Prog E R X β} {f : β → Prog E R X γ} {tr : Trace E R X}
    (hp : Obeys P (fun r tr' => ∀ a, r = .ok a → S a tr') p tr)
    (hnext : ∀ a tr', S a tr' → Obeys P Q (f a) tr') (herror : ∀ x tr', Q (.error x) tr') :
    Obeys P Q (p >>= f) tr := by
  refine bind (hp.mono ?_)
  intro r tr' hr
  cases r with
  | ok a => exact hnext a tr' (hr a rfl)
  | error x => exact herror x tr'

/-- What a program returns may be wrapped up. -/
theorem wrap {p : Prog E R X β} {g : β → γ} {tr : Trace E R X}
    (hp : Obeys P (fun _ _ => True) p tr) :
    Obeys P (fun _ _ => True) (p >>= fun a => pure (g a)) tr := by
  refine bind (hp.mono fun r _ _ => ?_)
  cases r <;> exact trivial

/-- A program without rules. -/
theorem free (hP : ∀ tr e, P tr e) : ∀ {p : Prog E R X β} {tr : Trace E R X},
    Obeys P (fun _ _ => True) p tr := by
  intro p
  induction p with
  | pure a => exact trivial
  | throw x => exact trivial
  | await e next ih => exact ⟨hP _ e, fun r => ih r⟩

/-- What has been asked and answered leads to the result. -/
theorem gives {Q : Except X β → Trace E R X → Prop} {p : Prog E R X β} {tr : Trace E R X}
    (h : Obeys P Q p tr) : Obeys P (fun r tr' => Q r tr' ∧
      ∃ since, tr' = tr ++ since ∧ p.Gives since r) p tr := by
  induction p generalizing tr with
  | pure a => exact ⟨h, [], (List.append_nil tr).symm, rfl, rfl⟩
  | throw x => exact ⟨h, [], (List.append_nil tr).symm, rfl, rfl⟩
  | await e next ih =>
    refine ⟨h.1, fun r => (ih r (h.2 r)).mono ?_⟩
    rintro result _ ⟨hQ, since, rfl, hgives⟩
    exact ⟨hQ, ⟨e, r⟩ :: since, List.append_assoc _ _ _, r, _, rfl, hgives⟩

/-- What holds for all answers holds for those that have been given. -/
theorem of_gives {Q : Except X β → Trace E R X → Prop} {p : Prog E R X β} {tr since : Trace E R X}
    {r : Except X β} (h : Obeys P Q p tr) (hgives : p.Gives since r) : Q r (tr ++ since) := by
  induction p generalizing tr since with
  | pure a =>
    obtain ⟨rfl, rfl⟩ := hgives
    rw [List.append_nil]
    exact h
  | throw x =>
    obtain ⟨rfl, rfl⟩ := hgives
    rw [List.append_nil]
    exact h
  | await e next ih =>
    obtain ⟨answer, rest, rfl, hrest⟩ := hgives
    rw [← List.singleton_append, ← List.append_assoc]
    exact ih answer (h.2 answer) hrest

/-- What a rule allows, a weaker rule allows. -/
theorem weaken {P' : Trace E R X → E → Prop} {Q : Except X β → Trace E R X → Prop}
    (hP : ∀ tr e, P tr e → P' tr e) : ∀ {p : Prog E R X β} {tr : Trace E R X},
      Obeys P Q p tr → Obeys P' Q p tr := by
  intro p
  induction p with
  | pure a => exact fun h => h
  | throw x => exact fun h => h
  | await e next ih => exact fun h => ⟨hP _ e h.1, fun r => ih r (h.2 r)⟩

/-- The result of a call that has ended. -/
theorem result {Q : Except X β → Trace E R X → Prop} {p : Prog E R X β} {tr : Trace E R X}
    {r : Except X β} (h : Obeys P Q p tr) (hr : p.result? = some r) : Q r tr := by
  cases p with
  | pure a => exact Option.some.inj hr ▸ h
  | throw x => exact Option.some.inj hr ▸ h
  | await e next => cases hr

end Obeys

/-- The program asks only for effects in `S` and returns only values in `Q`. -/
def Only (S : E → Prop) (Q : β → Prop) : Prog E R X β → Prop
  | .pure a => Q a
  | .throw _ => True
  | .await e next => S e ∧ ∀ r, Only S Q (next r)

namespace Only

variable {S : E → Prop} {γ : Type}

theorem mono {S' : E → Prop} {Q : β → Prop} (hS : ∀ e, S e → S' e) {p : Prog E R X β}
    (h : Only S Q p) : Only S' Q p := by
  induction p with
  | pure a => exact h
  | throw x => trivial
  | await e next ih => exact ⟨hS e h.1, fun r => ih r (h.2 r)⟩

theorem imp {Q Q' : β → Prop} (hQ : ∀ a, Q a → Q' a) {p : Prog E R X β} (h : Only S Q p) :
    Only S Q' p := by
  induction p with
  | pure a => exact hQ a h
  | throw x => trivial
  | await e next ih => exact ⟨h.1, fun r => ih r (h.2 r)⟩

theorem ret {Q : β → Prop} {a : β} (h : Q a) : Only S Q (pure a : Prog E R X β) := h

theorem throw {Q : β → Prop} {x : X} : Only S Q (Prog.throw x : Prog E R X β) := trivial

theorem bind {Q : β → Prop} {Q' : γ → Prop} {f : β → Prog E R X γ} :
    ∀ {p : Prog E R X β}, Only S Q p → (∀ a, Q a → Only S Q' (f a)) → Only S Q' (p >>= f) := by
  intro p
  induction p with
  | pure a => exact fun h hf => hf a h
  | throw x => exact fun _ _ => trivial
  | await e next ih => exact fun h hf => ⟨h.1, fun r => ih r (h.2 r) hf⟩

theorem attempt {Q : β → Prop} : ∀ {p : Prog E R X β}, Only S Q p →
    Only S (fun r => ∀ a, r = .ok a → Q a) p.attempt := by
  intro p
  induction p with
  | pure a => exact fun h _ hr => Except.ok.inj hr ▸ h
  | throw x => exact fun _ _ hr => nomatch hr
  | await e next ih => exact fun h => ⟨h.1, fun r => ih r (h.2 r)⟩

theorem perform {e : E} (he : S e) :
    Only S (fun _ => True) (Prog.perform e : Prog E R X (R e)) := by
  refine ⟨he, fun r => ?_⟩
  cases r with
  | ok a => trivial
  | error x => trivial

theorem lift {Q : β → Prop} {r : Except X β} (h : ∀ a, r = .ok a → Q a) :
    Only S Q (Prog.lift r : Prog E R X β) := by
  cases r with
  | ok a => exact h a rfl
  | error x => trivial

theorem obeys {P : Trace E R X → E → Prop} {Q : β → Prop} :
    ∀ {p : Prog E R X β} {tr : Trace E R X},
      (∀ since e, (∀ a ∈ since, S a.effect) → S e → P (tr ++ since) e) → Only S Q p →
      Obeys P (fun r tr' => (∃ since, tr' = tr ++ since ∧ ∀ a ∈ since, S a.effect) ∧
        ∀ a, r = .ok a → Q a) p tr := by
  intro p
  induction p with
  | pure a => exact fun _ h => ⟨⟨[], by simp⟩, fun _ hr => Except.ok.inj hr ▸ h⟩
  | throw x => exact fun _ _ => ⟨⟨[], by simp⟩, fun _ hr => nomatch hr⟩
  | await e next ih =>
    intro tr hP h
    have hfirst : P tr e := by
      have hnow := hP [] e (fun _ ha => (List.not_mem_nil ha).elim) h.1
      rwa [List.append_nil] at hnow
    refine ⟨hfirst, fun r => (ih r ?_ (h.2 r)).mono ?_⟩
    · intro since e' hsince he'
      rw [List.append_assoc, List.singleton_append]
      refine hP _ e' ?_ he'
      intro a ha
      rcases List.mem_cons.mp ha with rfl | ha
      · exact h.1
      · exact hsince a ha
    · rintro _ _ ⟨⟨since, rfl, hsince⟩, hQ⟩
      refine ⟨⟨⟨e, r⟩ :: since, by simp, ?_⟩, hQ⟩
      intro a ha
      rcases List.mem_cons.mp ha with rfl | ha
      · exact h.1
      · exact hsince a ha

/-- Such a part, and what comes after it. -/
theorem obeys_bind {P : Trace E R X → E → Prop} {Q : Except X γ → Trace E R X → Prop}
    {T : β → Prop} {p : Prog E R X β} {f : β → Prog E R X γ} {tr : Trace E R X} (hp : Only S T p)
    (hP : ∀ tr' e, S e → P tr' e)
    (hnext : ∀ a since, T a → (∀ b ∈ since, S b.effect) → Obeys P Q (f a) (tr ++ since))
    (herror : ∀ x tr', Q (.error x) tr') : Obeys P Q (p >>= f) tr := by
  refine Obeys.bind ((hp.obeys fun since e _ => hP _ e).mono ?_)
  rintro r _ ⟨⟨since, rfl, hsince⟩, hT⟩
  cases r with
  | ok a => exact hnext a since (hT a rfl) hsince
  | error x => exact herror x _

end Only

/-! ## Rules for histories -/

/-- The trace of call `t`. -/
def own (t : Nat) (h : History K E R X) : Trace E R X :=
  h.filterMap fun
    | .did u a => if u = t then some a else none
    | .called _ _ => none

@[simp] theorem own_append (t : Nat) (h h' : History K E R X) :
    own t (h ++ h') = own t h ++ own t h' := List.filterMap_append

@[simp] theorem own_called (t u : Nat) (k : K) :
    own t ([.called u k] : History K E R X) = [] := rfl

@[simp] theorem own_did_self (t : Nat) (a : Entry E R X) :
    own t ([.did t a] : History K E R X) = [a] := by
  simp [own]

theorem own_did_ne {t u : Nat} (h : u ≠ t) (a : Entry E R X) :
    own t ([.did u a] : History K E R X) = [] := by
  simp [own, h]

theorem mem_own {t : Nat} {a : Entry E R X} {h : History K E R X} :
    a ∈ own t h ↔ .did t a ∈ h := by
  rw [own, List.mem_filterMap]
  constructor
  · rintro ⟨ev, hev, ha⟩
    cases ev with
    | called u k => cases ha
    | did u b =>
      simp only [Option.ite_none_right_eq_some, Option.some.injEq] at ha
      obtain ⟨rfl, rfl⟩ := ha
      exact hev
  · exact fun hmem => ⟨_, hmem, by simp⟩

theorem own_eq_nil {t : Nat} {h : History K E R X} (hfresh : ∀ ev ∈ h, ev.thread ≠ t) :
    own t h = [] := by
  rw [List.eq_nil_iff_forall_not_mem]
  exact fun a ha => hfresh _ (mem_own.mp ha) rfl

/-- Two entries of a list: the same one, or one before the other. -/
theorem append_cases {α : Type} {a b : α} {h₁ h₂ g₁ g₂ : List α}
    (heq : h₁ ++ a :: h₂ = g₁ ++ b :: g₂) :
    (h₁ = g₁ ∧ a = b ∧ h₂ = g₂) ∨ a ∈ g₁ ∨ b ∈ h₁ := by
  rcases List.append_eq_append_iff.mp heq with ⟨m, rfl, hm⟩ | ⟨m, rfl, hm⟩
  · cases m with
    | nil =>
      obtain ⟨rfl, rfl⟩ := List.cons.inj hm
      exact .inl ⟨(List.append_nil _).symm, rfl, rfl⟩
    | cons x m =>
      obtain ⟨rfl, -⟩ := List.cons.inj hm
      exact .inr (.inl (by simp))
  · cases m with
    | nil =>
      obtain ⟨rfl, rfl⟩ := List.cons.inj hm
      exact .inl ⟨List.append_nil _, rfl, rfl⟩
    | cons x m =>
      obtain ⟨rfl, -⟩ := List.cons.inj hm
      exact .inr (.inr (by simp))

/-- In a list that is ordered by a relation, elements that are not related are equal. -/
theorem eq_of_pairwise {α : Type} {Rel : α → α → Prop} {l : List α} (hl : l.Pairwise Rel)
    {a b : α} (ha : a ∈ l) (hb : b ∈ l) (hab : ¬Rel a b) (hba : ¬Rel b a) : a = b := by
  obtain ⟨i, hi, rfl⟩ := List.getElem_of_mem ha
  obtain ⟨j, hj, rfl⟩ := List.getElem_of_mem hb
  rcases Nat.lt_trichotomy i j with hlt | rfl | hlt
  · exact absurd (List.pairwise_iff_getElem.mp hl i j hi hj hlt) hab
  · rfl
  · exact absurd (List.pairwise_iff_getElem.mp hl j i hj hi hlt) hba

/-- A trace cut in two cuts the history in two. -/
theorem own_eq_append {t : Nat} {a : Entry E R X} :
    ∀ {h : History K E R X} {tr tr' : Trace E R X}, own t h = tr ++ a :: tr' →
      ∃ h₁ h₂, h = h₁ ++ .did t a :: h₂ ∧ own t h₁ = tr ∧ own t h₂ = tr' := by
  intro h
  induction h with
  | nil =>
    intro tr tr' heq
    cases tr <;> cases heq
  | cons ev h ih =>
    intro tr tr' heq
    rw [← List.singleton_append, own_append] at heq
    by_cases hev : own t [ev] = []
    · rw [hev, List.nil_append] at heq
      obtain ⟨h₁, h₂, rfl, hbefore, hafter⟩ := ih heq
      refine ⟨ev :: h₁, h₂, rfl, ?_, hafter⟩
      rw [← List.singleton_append, own_append, hev, List.nil_append, hbefore]
    · cases ev with
      | called u k => exact absurd rfl hev
      | did u b =>
        by_cases hu : u = t
        · subst hu
          rw [own_did_self, List.singleton_append] at heq
          cases tr with
          | nil =>
            obtain ⟨rfl, rfl⟩ := List.cons.inj heq
            exact ⟨[], h, rfl, rfl, rfl⟩
          | cons b' tr =>
            obtain ⟨rfl, hrest⟩ := List.cons.inj heq
            obtain ⟨h₁, h₂, rfl, hbefore, hafter⟩ := ih hrest
            refine ⟨.did u b :: h₁, h₂, rfl, ?_, hafter⟩
            rw [← List.singleton_append, own_append, own_did_self, hbefore,
              List.singleton_append]
        · exact absurd (own_did_ne hu b) hev

variable (sys : System K E R X W C α) (P : K → Trace E R X → E → Prop) (w₀ : W)

/-- The histories in which every effect is allowed by the call that asked for it and is
answered by the world, with the world they lead to. -/
inductive Lawful : History K E R X → W → Prop
  | nil : Lawful [] w₀
  | called {h : History K E R X} {w : W} {t : Nat} {k : K} :
    Lawful h w → (∀ ev ∈ h, ev.thread ≠ t) → Lawful (h ++ [.called t k]) w
  | did {h : History K E R X} {w w' : W} {t : Nat} {k : K} {e : E} {c : C}
    {r : Except X (R e)} :
    Lawful h w → .called t k ∈ h → P k (own t h) e → sys.exec e c w = some (r, w') →
    Lawful (h ++ [.did t ⟨e, r⟩]) w'

variable {sys P w₀}

/-- A call is made once. -/
theorem Lawful.called_unique {h : History K E R X} {w : W} (hl : Lawful sys P w₀ h w) {t : Nat}
    {k k' : K} (hk : .called t k ∈ h) (hk' : .called t k' ∈ h) : k = k' := by
  induction hl with
  | nil => cases hk
  | called _ hfresh ih =>
    rcases List.mem_append.mp hk with hold | hnew
    · rcases List.mem_append.mp hk' with hold' | hnew'
      · exact ih hold hold'
      · cases List.mem_singleton.mp hnew'
        exact absurd rfl (hfresh _ hold)
    · cases List.mem_singleton.mp hnew
      rcases List.mem_append.mp hk' with hold' | hnew'
      · exact absurd rfl (hfresh _ hold')
      · cases List.mem_singleton.mp hnew'
        rfl
  | did _ _ _ _ ih =>
    rcases List.mem_append.mp hk with hold | hnew
    · rcases List.mem_append.mp hk' with hold' | hnew'
      · exact ih hold hold'
      · cases List.mem_singleton.mp hnew'
    · cases List.mem_singleton.mp hnew

/-- What was done belongs to a call, and was allowed when it was done. -/
theorem Lawful.split {h h₂ : History K E R X} {w : W} {t : Nat} {e : E} {r : Except X (R e)}
    {h₁ : History K E R X} (hl : Lawful sys P w₀ h w) (heq : h = h₁ ++ .did t ⟨e, r⟩ :: h₂) :
    ∃ k c w₁ w₂, Lawful sys P w₀ h₁ w₁ ∧ .called t k ∈ h₁ ∧ P k (own t h₁) e ∧
      sys.exec e c w₁ = some (r, w₂) ∧ Lawful sys P w₀ (h₁ ++ [.did t ⟨e, r⟩]) w₂ := by
  induction hl generalizing h₂ with
  | nil => cases h₁ <;> cases heq
  | called _ _ ih =>
    rcases List.eq_nil_or_concat' h₂ with rfl | ⟨h₂, ev, rfl⟩
    · have := (List.append_inj' heq rfl).2
      cases this
    · rw [← List.cons_append, ← List.append_assoc] at heq
      exact ih (List.append_inj' heq rfl).1
  | did hl hk hP hexec ih =>
    rcases List.eq_nil_or_concat' h₂ with rfl | ⟨h₂, ev, rfl⟩
    · obtain ⟨rfl, hev⟩ := List.append_inj' heq rfl
      simp only [List.cons.injEq, Event.did.injEq, Entry.mk.injEq, and_true] at hev
      obtain ⟨rfl, rfl, hr⟩ := hev
      cases hr
      exact ⟨_, _, _, _, hl, hk, hP, hexec, hl.did hk hP hexec⟩
    · rw [← List.cons_append, ← List.append_assoc] at heq
      exact ih (List.append_inj' heq rfl).1

namespace System

variable {Q : K → Except X α → Trace E R X → Prop}

/-- The history is lawful, and every call obeys its rules from where it stands. -/
structure Sound (sys : System K E R X W C α) (P : K → Trace E R X → E → Prop)
    (Q : K → Except X α → Trace E R X → Prop) (w₀ : W) (p : Pool K E R X W α) : Prop where
  lawful : Lawful sys P w₀ p.history p.world
  numbered : ∀ ev ∈ p.history, ev.thread < p.threads.length
  called : ∀ t k q, p.threads[t]? = some (k, q) → .called t k ∈ p.history
  obeys : ∀ t k q, p.threads[t]? = some (k, q) → Obeys (P k) (Q k) q (own t p.history)

theorem sound_init : Sound sys P Q w₀ (Pool.init w₀ : Pool K E R X W α) where
  lawful := .nil
  numbered _ hev := by cases hev
  called _ _ _ hq := by cases hq
  obeys _ _ _ hq := by cases hq

theorem sound_call {p : Pool K E R X W α} (hp : Sound sys P Q w₀ p) (k : K)
    (hstart : Obeys (P k) (Q k) (sys.start k) []) :
    Sound sys P Q w₀ ⟨p.world, p.history ++ [.called p.threads.length k],
      p.threads ++ [(k, sys.start k)]⟩ := by
  have hfresh : ∀ ev ∈ p.history, ev.thread ≠ p.threads.length :=
    fun ev hev => Nat.ne_of_lt (hp.numbered ev hev)
  refine ⟨hp.lawful.called hfresh, ?_, ?_, ?_⟩
  · rw [List.length_append, List.length_singleton]
    exact numbered_called hp.numbered
  · intro u k' q hq
    rcases thread_of_append hq with hold | ⟨rfl, hnew⟩
    · exact List.mem_append_left _ (hp.called u k' q hold)
    · cases hnew
      exact List.mem_append_right _ (List.mem_singleton_self _)
  · intro u k' q hq
    rw [own_append, own_called, List.append_nil]
    rcases thread_of_append hq with hold | ⟨rfl, hnew⟩
    · exact hp.obeys u k' q hold
    · cases hnew
      rw [own_eq_nil hfresh]
      exact hstart

theorem sound_step {p : Pool K E R X W α} (hp : Sound sys P Q w₀ p) {t : Nat} {k : K} {e : E}
    {next : Except X (R e) → Prog E R X α} {c : C} {r : Except X (R e)} {w : W}
    (hthread : p.threads[t]? = some (k, .await e next))
    (hexec : sys.exec e c p.world = some (r, w)) :
    Sound sys P Q w₀ ⟨w, p.history ++ [.did t ⟨e, r⟩], p.threads.set t (k, next r)⟩ := by
  have hcalled := hp.called t k _ hthread
  obtain ⟨hallowed, hnext⟩ := hp.obeys t k _ hthread
  refine ⟨hp.lawful.did hcalled hallowed hexec, ?_, ?_, ?_⟩
  · rw [List.length_set]
    exact numbered_did hp.numbered (List.getElem?_eq_some_iff.mp hthread).1
  · intro u k' q hq
    apply List.mem_append_left _
    rcases thread_of_set hthread hq with ⟨rfl, hmoved⟩ | ⟨-, hother⟩
    · cases hmoved
      exact hcalled
    · exact hp.called u k' q hother
  · intro u k' q hq
    rw [own_append]
    rcases thread_of_set hthread hq with ⟨rfl, hmoved⟩ | ⟨hne, hother⟩
    · cases hmoved
      rw [own_did_self]
      exact hnext r
    · rw [own_did_ne hne.symm, List.append_nil]
      exact hp.obeys u k' q hother

theorem sound_apply (hstart : ∀ k, Obeys (P k) (Q k) (sys.start k) [])
    {p p' : Pool K E R X W α} {m : Move K C} (hp : Sound sys P Q w₀ p)
    (h : sys.apply p m = some p') : Sound sys P Q w₀ p' := by
  cases m with
  | call k =>
    rw [apply_call h]
    exact sound_call hp k (hstart k)
  | step t c =>
    obtain ⟨k, e, next, r, w, hthread, hexec, rfl⟩ := apply_step h
    exact sound_step hp hthread hexec

/-- Every run of calls that obey their rules has a lawful history. -/
theorem run_lawful (hstart : ∀ k, Obeys (P k) (Q k) (sys.start k) [])
    {moves : List (Move K C)} {p : Pool K E R X W α}
    (h : sys.run (Pool.init w₀) moves = some p) : Sound sys P Q w₀ p :=
  run_induction (fun _ _ _ hp h => sound_apply hstart hp h) sound_init h

/-- The postcondition of a call that has ended. -/
theorem Sound.result {p : Pool K E R X W α} (hp : Sound sys P Q w₀ p) {t : Nat} {k : K}
    {q : Prog E R X α} {r : Except X α} (hthread : p.threads[t]? = some (k, q))
    (hr : q.result? = some r) : Q k r (own t p.history) :=
  (hp.obeys t k q hthread).result hr

end System

end Async
