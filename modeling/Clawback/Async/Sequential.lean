import Clawback.Async.Trace

/-!
# Calls one after another

A call that runs alone is determined by what the environment decides at its effects, and so
is a sequence of calls each of which starts when the one before has ended.

* `Ensures`: a program logic for calls that run alone, with one rule for each way to build a
  program. The assertions are about what the call has asked so far and about the world.
* `System.runCalls_invariant`: what every call keeps holds after every sequence of calls.
* `System.runCalls_filter`: calls that change nothing can be left out.
* `System.runInTurn_of_runCalls`: a sequence of calls is a run of the pool.
-/

namespace Async

variable {E K X W C α β γ : Type} {R : E → Type}

/-- An effect and its answer, with the worlds before and after. -/
structure Asked (E : Type) (R : E → Type) (X W : Type) where
  before : W
  entry : Entry E R X
  after : W

/-- A call from its start to its end. -/
structure Ended (K E : Type) (R : E → Type) (X W α : Type) where
  call : K
  before : W
  asked : List (Asked E R X W)
  result : Except X α
  after : W

/-- The world after a sequence of calls. -/
def finalWorld (w : W) : List (Ended K E R X W α) → W
  | [] => w
  | e :: l => finalWorld e.after l

theorem finalWorld_append (w : W) (l l' : List (Ended K E R X W α)) :
    finalWorld w (l ++ l') = finalWorld (finalWorld w l) l' := by
  induction l generalizing w with
  | nil => rfl
  | cons e l ih => exact ih e.after

namespace System

variable (sys : System K E R X W C α)

/-- Run `p` alone for as many effects as there are choices: what it asks, what is left of it,
and the world it leads to. -/
def advance : Prog E R X β → W → List C → Option (List (Asked E R X W) × Prog E R X β × W)
  | p, w, [] => some ([], p, w)
  | .await e next, w, c :: cs =>
    match sys.exec e c w with
    | some (r, w') =>
      (advance (next r) w' cs).map fun rest => (⟨w, ⟨e, r⟩, w'⟩ :: rest.1, rest.2)
    | none => none
  | _, _, _ :: _ => none

/-- Run a list of calls, each to its end. -/
def runCalls (w : W) : List (K × List C) → Option (List (Ended K E R X W α))
  | [] => some []
  | (k, cs) :: script =>
    match sys.advance (sys.start k) w cs with
    | some (asked, q, w') =>
      match q.result? with
      | some result => (runCalls w' script).map fun l => ⟨k, w, asked, result, w'⟩ :: l
      | none => none
    | none => none

/-- The call has run from its start to its end. -/
def Completes (e : Ended K E R X W α) : Prop :=
  ∃ cs q, sys.advance (sys.start e.call) e.before cs = some (e.asked, q, e.after) ∧
    q.result? = some e.result

variable {sys}

theorem advance_nil {p q : Prog E R X β} {w w' : W} {asked : List (Asked E R X W)}
    (h : sys.advance p w [] = some (asked, q, w')) : asked = [] ∧ q = p ∧ w' = w := by
  unfold advance at h
  cases h
  exact ⟨rfl, rfl, rfl⟩

theorem advance_cons {p q : Prog E R X β} {w w' : W} {c : C} {cs : List C}
    {asked : List (Asked E R X W)} (h : sys.advance p w (c :: cs) = some (asked, q, w')) :
    ∃ e next r w₁ rest, p = .await e next ∧ sys.exec e c w = some (r, w₁) ∧
      sys.advance (next r) w₁ cs = some (rest, q, w') ∧ asked = ⟨w, ⟨e, r⟩, w₁⟩ :: rest := by
  cases p with
  | pure a => cases h
  | throw x => cases h
  | await e next =>
    unfold advance at h
    split at h
    · rename_i r w₁ hexec
      obtain ⟨⟨rest, q', w''⟩, hrest, heq⟩ := Option.map_eq_some_iff.mp h
      cases heq
      exact ⟨e, next, r, w₁, rest, rfl, hexec, hrest, rfl⟩
    · cases h

theorem runCalls_cons {w : W} {k : K} {cs : List C} {script : List (K × List C)}
    {l : List (Ended K E R X W α)} (h : sys.runCalls w ((k, cs) :: script) = some l) :
    ∃ asked q result w' rest, sys.advance (sys.start k) w cs = some (asked, q, w') ∧
      q.result? = some result ∧ sys.runCalls w' script = some rest ∧
      l = ⟨k, w, asked, result, w'⟩ :: rest := by
  unfold runCalls at h
  split at h
  · rename_i asked q w' hadvance
    split at h
    · rename_i result hresult
      obtain ⟨rest, hrest, rfl⟩ := Option.map_eq_some_iff.mp h
      exact ⟨asked, q, result, w', rest, hadvance, hresult, hrest, rfl⟩
    · cases h
  · cases h

theorem runCalls_of_cons {w w' : W} {k : K} {cs : List C} {script : List (K × List C)}
    {asked : List (Asked E R X W)} {q : Prog E R X α} {result : Except X α}
    {rest : List (Ended K E R X W α)}
    (hadvance : sys.advance (sys.start k) w cs = some (asked, q, w'))
    (hresult : q.result? = some result) (hrest : sys.runCalls w' script = some rest) :
    sys.runCalls w ((k, cs) :: script) = some (⟨k, w, asked, result, w'⟩ :: rest) := by
  unfold runCalls
  simp only [hadvance, hresult, hrest, Option.map_some]

/-- What every call keeps holds after every sequence of calls. -/
theorem runCalls_induction {I : List (Ended K E R X W α) → W → Prop}
    (hstep : ∀ l e, I l e.before → sys.Completes e → I (l ++ [e]) e.after) :
    ∀ {script : List (K × List C)} {w : W} {past l : List (Ended K E R X W α)}, I past w →
      sys.runCalls w script = some l → I (past ++ l) (finalWorld w l) := by
  intro script
  induction script with
  | nil =>
    intro w past l hpast h
    cases h
    rw [List.append_nil]
    exact hpast
  | cons kcs script ih =>
    intro w past l hpast h
    obtain ⟨asked, q, result, w', rest, hadvance, hresult, hrest, rfl⟩ := runCalls_cons h
    have hnext := hstep past ⟨kcs.1, w, asked, result, w'⟩ hpast ⟨kcs.2, q, hadvance, hresult⟩
    have hall := ih hnext hrest
    rw [List.append_assoc, List.singleton_append] at hall
    exact hall

theorem runCalls_append {script script' : List (K × List C)} {w : W}
    {l l' : List (Ended K E R X W α)} (h : sys.runCalls w script = some l)
    (h' : sys.runCalls (finalWorld w l) script' = some l') :
    sys.runCalls w (script ++ script') = some (l ++ l') := by
  induction script generalizing w l with
  | nil =>
    cases h
    exact h'
  | cons kcs script ih =>
    obtain ⟨asked, q, result, w', rest, hadvance, hresult, hrest, rfl⟩ := runCalls_cons h
    exact runCalls_of_cons hadvance hresult (ih hrest h')

/-- The last call of a sequence. -/
theorem runCalls_last {script : List (K × List C)} {w : W} {l : List (Ended K E R X W α)}
    {e : Ended K E R X W α} (h : sys.runCalls w script = some (l ++ [e])) :
    (∃ before, sys.runCalls w before = some l) ∧ e.before = finalWorld w l ∧ sys.Completes e := by
  induction l generalizing script w with
  | nil =>
    cases script with
    | nil => cases h
    | cons kcs script =>
      obtain ⟨asked, q, result, w', rest, hadvance, hresult, -, heq⟩ := runCalls_cons h
      obtain ⟨rfl, -⟩ := List.cons.inj heq
      exact ⟨⟨[], rfl⟩, rfl, kcs.2, q, hadvance, hresult⟩
  | cons e' l ih =>
    cases script with
    | nil => cases h
    | cons kcs script =>
      obtain ⟨asked, q, result, w', rest, hadvance, hresult, hrest, heq⟩ := runCalls_cons h
      obtain ⟨rfl, rfl⟩ := List.cons.inj heq
      obtain ⟨⟨before, hbefore⟩, hlast⟩ := ih hrest
      exact ⟨⟨kcs :: before, runCalls_of_cons hadvance hresult hbefore⟩, hlast⟩

/-- What every call keeps, after the calls before it, holds after every sequence of calls. -/
theorem runCalls_invariant {I : List (Ended K E R X W α) → W → Prop} {w₀ : W} (hstart : I [] w₀)
    (hstep : ∀ script l e, sys.runCalls w₀ script = some l → e.before = finalWorld w₀ l →
      I l e.before → sys.Completes e → I (l ++ [e]) e.after)
    {script : List (K × List C)} {l : List (Ended K E R X W α)}
    (h : sys.runCalls w₀ script = some l) : I l (finalWorld w₀ l) := by
  have hall := runCalls_induction (I := fun l w =>
    (∃ script, sys.runCalls w₀ script = some l) ∧ w = finalWorld w₀ l ∧ I l w) ?_
    ⟨⟨[], rfl⟩, rfl, hstart⟩ h
  · exact hall.2.2
  · rintro l ⟨k, w, asked, result, w'⟩ ⟨⟨script, hscript⟩, hw, hI⟩ ⟨cs, q, hadvance, hresult⟩
    refine ⟨⟨script ++ [(k, cs)], ?_⟩, ?_, ?_⟩
    · apply runCalls_append hscript
      rw [← hw]
      exact runCalls_of_cons hadvance hresult rfl
    · rw [finalWorld_append]
      rfl
    · exact hstep script l _ hscript hw hI ⟨cs, q, hadvance, hresult⟩

/-- Calls that change nothing can be left out. -/
theorem runCalls_filter {keep : Ended K E R X W α → Bool}
    (hskip : ∀ e, sys.Completes e → keep e = false → e.after = e.before)
    {script : List (K × List C)} {w : W} {l : List (Ended K E R X W α)}
    (h : sys.runCalls w script = some l) :
    ∃ script', script'.Sublist script ∧ sys.runCalls w script' = some (l.filter keep) ∧
      finalWorld w (l.filter keep) = finalWorld w l := by
  induction script generalizing w l with
  | nil =>
    cases h
    exact ⟨[], .slnil, rfl, rfl⟩
  | cons kcs script ih =>
    obtain ⟨asked, q, result, w', rest, hadvance, hresult, hrest, rfl⟩ := runCalls_cons h
    obtain ⟨script', hsub, hrun, hfinal⟩ := ih hrest
    by_cases hkeep : keep ⟨kcs.1, w, asked, result, w'⟩ = true
    · rw [List.filter_cons_of_pos hkeep]
      exact ⟨kcs :: script', hsub.cons_cons kcs, runCalls_of_cons hadvance hresult hrun, hfinal⟩
    · have hsame : w' = w :=
        hskip _ ⟨kcs.2, q, hadvance, hresult⟩ (Bool.eq_false_iff.mpr hkeep)
      subst hsame
      rw [List.filter_cons_of_neg hkeep]
      exact ⟨script', hsub.cons kcs, hrun, hfinal⟩

/-- Every call of a sequence has run to its end. -/
theorem completes_of_runCalls {script : List (K × List C)} {w : W}
    {l : List (Ended K E R X W α)} (h : sys.runCalls w script = some l) :
    ∀ e ∈ l, sys.Completes e := by
  induction script generalizing w l with
  | nil =>
    cases h
    exact fun e he => (List.not_mem_nil he).elim
  | cons kcs script ih =>
    obtain ⟨asked, q, result, w', rest, hadvance, hresult, hrest, rfl⟩ := runCalls_cons h
    intro e he
    rcases List.mem_cons.mp he with rfl | he
    · exact ⟨kcs.2, q, hadvance, hresult⟩
    · exact ih hrest e he

end System

/-! ## A program logic for calls that run alone -/

/-- A call that has asked `l` in order to get to the world `w`, and is about to run `p` alone,
asks only for effects that `G` allows, and ends with `Q`. -/
def Ensures (sys : System K E R X W C α) (G : List (Asked E R X W) → W → E → Prop)
    (Q : Except X β → List (Asked E R X W) → W → Prop) :
    Prog E R X β → List (Asked E R X W) → W → Prop
  | .pure a, l, w => Q (.ok a) l w
  | .throw x, l, w => Q (.error x) l w
  | .await e next, l, w => G l w e ∧ ∀ c r w', sys.exec e c w = some (r, w') →
      Ensures sys G Q (next r) (l ++ [⟨w, ⟨e, r⟩, w'⟩]) w'

namespace Ensures

variable {sys : System K E R X W C α} {G : List (Asked E R X W) → W → E → Prop}
  {l : List (Asked E R X W)} {w : W}

theorem ret {Q : Except X β → List (Asked E R X W) → W → Prop} {a : β} (h : Q (.ok a) l w) :
    Ensures sys G Q (pure a) l w := h

theorem throw {Q : Except X β → List (Asked E R X W) → W → Prop} {x : X}
    (h : Q (.error x) l w) : Ensures sys G Q (Prog.throw x) l w := h

theorem mono {Q Q' : Except X β → List (Asked E R X W) → W → Prop}
    (hQ : ∀ r l w, Q r l w → Q' r l w) {p : Prog E R X β} (h : Ensures sys G Q p l w) :
    Ensures sys G Q' p l w := by
  induction p generalizing l w with
  | pure a => exact hQ _ _ _ h
  | throw x => exact hQ _ _ _ h
  | await e next ih => exact ⟨h.1, fun c r w' hexec => ih r (h.2 c r w' hexec)⟩

/-- Running `p` and then `f` on what it returned. -/
theorem bind {Q : Except X γ → List (Asked E R X W) → W → Prop} {f : β → Prog E R X γ}
    {p : Prog E R X β}
    (h : Ensures sys G (fun r l w => match r with
      | .ok a => Ensures sys G Q (f a) l w
      | .error x => Q (.error x) l w) p l w) : Ensures sys G Q (p >>= f) l w := by
  induction p generalizing l w with
  | pure a => exact h
  | throw x => exact h
  | await e next ih => exact ⟨h.1, fun c r w' hexec => ih r (h.2 c r w' hexec)⟩

/-- Running the body of a `try` block. -/
theorem attempt {Q : Except X (Except X β) → List (Asked E R X W) → W → Prop}
    {p : Prog E R X β} (h : Ensures sys G (fun r l w => Q (.ok r) l w) p l w) :
    Ensures sys G Q p.attempt l w := by
  induction p generalizing l w with
  | pure a => exact h
  | throw x => exact h
  | await e next ih => exact ⟨h.1, fun c r w' hexec => ih r (h.2 c r w' hexec)⟩

/-- Awaiting one effect. -/
theorem perform {e : E} {Q : Except X (R e) → List (Asked E R X W) → W → Prop} (hG : G l w e)
    (hQ : ∀ c r w', sys.exec e c w = some (r, w') → Q r (l ++ [⟨w, ⟨e, r⟩, w'⟩]) w') :
    Ensures sys G Q (Prog.perform e) l w := by
  refine ⟨hG, fun c r w' hexec => ?_⟩
  cases r with
  | ok a => exact hQ c _ w' hexec
  | error x => exact hQ c _ w' hexec

/-- A synchronous step. -/
theorem lift {Q : Except X β → List (Asked E R X W) → W → Prop} {r : Except X β}
    (h : Q r l w) : Ensures sys G Q (Prog.lift r) l w := by
  cases r with
  | ok a => exact h
  | error x => exact h

/-- A part of a program that asks only for effects that keep an invariant. -/
theorem of_only {S : E → Prop} {Q : β → Prop} {I : List (Asked E R X W) → W → Prop}
    (hG : ∀ l w e, I l w → S e → G l w e)
    (hstep : ∀ l w e c r w', I l w → S e → sys.exec e c w = some (r, w') →
      I (l ++ [⟨w, ⟨e, r⟩, w'⟩]) w')
    {p : Prog E R X β} (hp : Only S Q p) (hI : I l w) :
    Ensures sys G (fun r l' w' => I l' w' ∧ ∀ a, r = .ok a → Q a) p l w := by
  induction p generalizing l w with
  | pure a => exact ⟨hI, fun _ hr => Except.ok.inj hr ▸ hp⟩
  | throw x => exact ⟨hI, fun _ hr => nomatch hr⟩
  | await e next ih =>
    refine ⟨hG l w e hI hp.1, fun c r w' hexec => ?_⟩
    exact ih r (hp.2 r) (hstep l w e c r w' hI hp.1 hexec)

/-- What is ensured holds of what has been asked, and of what is still to be run. -/
theorem advance {Q : Except X β → List (Asked E R X W) → W → Prop} {cs : List C}
    {p q : Prog E R X β} {w' : W} {asked : List (Asked E R X W)}
    (h : Ensures sys G Q p l w) (hrun : sys.advance p w cs = some (asked, q, w')) :
    Ensures sys G Q q (l ++ asked) w' ∧
      ∀ l₁ a l₂, asked = l₁ ++ a :: l₂ → G (l ++ l₁) a.before a.entry.effect := by
  induction cs generalizing p l w asked with
  | nil =>
    obtain ⟨rfl, rfl, rfl⟩ := System.advance_nil hrun
    refine ⟨(List.append_nil l).symm ▸ h, fun l₁ a l₂ heq => ?_⟩
    cases l₁ <;> cases heq
  | cons c cs ih =>
    obtain ⟨e, next, r, w₁, rest, rfl, hexec, hrest, rfl⟩ := System.advance_cons hrun
    obtain ⟨hq, hasked⟩ := ih (h.2 c r w₁ hexec) hrest
    rw [List.append_assoc, List.singleton_append] at hq
    refine ⟨hq, fun l₁ a l₂ heq => ?_⟩
    cases l₁ with
    | nil =>
      obtain ⟨rfl, -⟩ := List.cons.inj heq
      rw [List.append_nil]
      exact h.1
    | cons a' l₁ =>
      obtain ⟨rfl, hrest⟩ := List.cons.inj heq
      have hG := hasked l₁ a l₂ hrest
      rwa [List.append_assoc, List.singleton_append] at hG

theorem result {Q : Except X β → List (Asked E R X W) → W → Prop} {p : Prog E R X β}
    {r : Except X β} (h : Ensures sys G Q p l w) (hr : p.result? = some r) : Q r l w := by
  cases p with
  | pure a => exact Option.some.inj hr ▸ h
  | throw x => exact Option.some.inj hr ▸ h
  | await e next => cases hr

/-- What is ensured of the program of a call holds of the call when it has ended. -/
theorem completes {Q : Except X α → List (Asked E R X W) → W → Prop}
    {e : Ended K E R X W α} (h : Ensures sys G Q (sys.start e.call) [] e.before)
    (he : sys.Completes e) : Q e.result e.asked e.after ∧
      ∀ l₁ a l₂, e.asked = l₁ ++ a :: l₂ → G l₁ a.before a.entry.effect := by
  obtain ⟨cs, q, hadvance, hresult⟩ := he
  obtain ⟨hq, hasked⟩ := h.advance hadvance
  exact ⟨hq.result hresult, hasked⟩

end Ensures

/-! ## Sequences of calls are runs of the pool -/

namespace System

variable {sys : System K E R X W C α}

theorem runInTurn_append {moves moves' : List (Move K C)} {p p' : Pool K E R X W α}
    (h : sys.runInTurn p moves = some p') :
    sys.runInTurn p (moves ++ moves') = sys.runInTurn p' moves' := by
  induction moves generalizing p with
  | nil =>
    cases h
    rfl
  | cons m moves ih =>
    obtain ⟨q, hq, hrest⟩ := Option.bind_eq_some_iff.mp h
    rw [List.cons_append, runInTurn, hq, Option.bind_some]
    exact ih hrest

/-- The entries of the history for what call `t` has asked. -/
def didAll (t : Nat) (asked : List (Asked E R X W)) : History K E R X :=
  asked.map fun a => .did t a.entry

theorem runInTurn_of_advance {cs : List C} {p q : Prog E R X α} {w w' : W}
    {asked : List (Asked E R X W)} (hrun : sys.advance p w cs = some (asked, q, w')) {t : Nat}
    {k : K} {h : History K E R X} {threads : List (K × Prog E R X α)}
    (hthread : threads[t]? = some (k, p)) :
    sys.runInTurn ⟨w, h, threads⟩ (cs.map (.step t)) =
      some ⟨w', h ++ didAll t asked, threads.set t (k, q)⟩ := by
  induction cs generalizing p w asked h threads with
  | nil =>
    obtain ⟨rfl, rfl, rfl⟩ := advance_nil hrun
    obtain ⟨hlt, hget⟩ := List.getElem?_eq_some_iff.mp hthread
    have hset : threads.set t (k, q) = threads := by
      rw [← hget]
      exact List.set_getElem_self hlt
    rw [hset]
    exact congrArg some (congrArg (Pool.mk w' · threads) (List.append_nil h).symm)
  | cons c cs ih =>
    obtain ⟨e, next, r, w₁, rest, rfl, hexec, hrest, rfl⟩ := advance_cons hrun
    have hlt := (List.getElem?_eq_some_iff.mp hthread).1
    have hstep : sys.applyInTurn ⟨w, h, threads⟩ (.step t c) =
        some ⟨w₁, h ++ [.did t ⟨e, r⟩], threads.set t (k, next r)⟩ := by
      simp only [applyInTurn, apply, hthread, hexec]
    rw [List.map_cons, runInTurn, hstep, Option.bind_some,
      ih hrest (List.getElem?_set_self hlt), List.set_set, List.append_assoc]
    rfl

/-- A call that starts when all others have ended. -/
theorem runInTurn_of_call {cs : List C} {q : Prog E R X α} {w' : W} {k : K}
    {asked : List (Asked E R X W)} {p : Pool K E R X W α} (hidle : p.idle = true)
    (hrun : sys.advance (sys.start k) p.world cs = some (asked, q, w')) :
    sys.runInTurn p (.call k :: cs.map (.step p.threads.length)) =
      some ⟨w', p.history ++ .called p.threads.length k :: didAll p.threads.length asked,
        p.threads ++ [(k, q)]⟩ := by
  have hcall : sys.applyInTurn p (.call k) = some ⟨p.world,
      p.history ++ [.called p.threads.length k], p.threads ++ [(k, sys.start k)]⟩ := by
    rw [applyInTurn, if_pos hidle]
    rfl
  have hthread : (p.threads ++ [(k, sys.start k)])[p.threads.length]? = some (k, sys.start k) := by
    rw [List.getElem?_append_right (Nat.le_refl _), Nat.sub_self]
    rfl
  rw [runInTurn, hcall, Option.bind_some, runInTurn_of_advance hrun hthread,
    List.set_append_right _ _ (Nat.le_refl _), Nat.sub_self, List.append_assoc]
  rfl

theorem idle_concat {p : Pool K E R X W α} (hidle : p.idle = true) {k : K}
    {q : Prog E R X α} {r : Except X α} (hr : q.result? = some r) (w : W)
    (h : History K E R X) : (Pool.mk w h (p.threads ++ [(k, q)])).idle = true := by
  unfold Pool.idle at hidle ⊢
  rw [List.all_append, hidle, List.all_cons, hr]
  rfl

/-- The history of a sequence of calls, numbered from `n`. -/
def historyFrom (n : Nat) : List (Ended K E R X W α) → History K E R X
  | [] => []
  | e :: l => .called n e.call :: didAll n e.asked ++ historyFrom (n + 1) l

/-- Every sequence of calls is a run of the pool, in which the calls take turns. -/
theorem runInTurn_of_runCalls {script : List (K × List C)} {p : Pool K E R X W α}
    {l : List (Ended K E R X W α)} (hidle : p.idle = true)
    (h : sys.runCalls p.world script = some l) :
    ∃ moves p' later, sys.runInTurn p moves = some p' ∧ p'.idle = true ∧
      p'.world = finalWorld p.world l ∧
      p'.history = p.history ++ historyFrom p.threads.length l ∧
      p'.threads = p.threads ++ later ∧
      later.map (fun kq => (kq.1, kq.2.result?)) = l.map fun e => (e.call, some e.result) := by
  induction script generalizing p l with
  | nil =>
    cases h
    exact ⟨[], p, [], rfl, hidle, rfl, (List.append_nil _).symm, (List.append_nil _).symm, rfl⟩
  | cons kcs script ih =>
    obtain ⟨asked, q, result, w', rest, hadvance, hresult, hrest, rfl⟩ := runCalls_cons h
    have hfirst := runInTurn_of_call hidle hadvance
    have hidle' := idle_concat hidle hresult (k := kcs.1) w'
      (p.history ++ .called p.threads.length kcs.1 :: didAll p.threads.length asked)
    obtain ⟨moves, p', later, hmoves, hp', hworld, hhistory, hthreads, hlater⟩ := ih hidle' hrest
    rw [List.length_append, List.length_singleton, List.append_assoc] at hhistory
    rw [List.append_assoc, List.singleton_append] at hthreads
    refine ⟨_, p', (kcs.1, q) :: later, (runInTurn_append hfirst).trans hmoves, hp', hworld,
      hhistory, hthreads, ?_⟩
    rw [List.map_cons, List.map_cons, hlater, hresult]

end System

end Async
