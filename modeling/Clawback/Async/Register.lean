import Clawback.Async.Trace
import Mathlib.Data.List.Induction

/-!
# A register that calls read and write

A register is a cell that the effects of interleaved calls read and write, each in one
step. A call that reads it, decides, and writes it back may overwrite what others have
written in between. In an `Atomic` history this never happens: whatever is written
replaces the very value its call has read.

* `Atomic.serial`: in an atomic history the values come one from the other.
* `Serial.pairwise`: so they never go back in an order that every step respects.
* `atomic_of_inTurn`: when the calls take turns the history is atomic.
-/

namespace Async

variable {E K X V : Type} {R : E → Type}

/-- What an effect has read from a cell, and what it has written to it. -/
structure Register (E : Type) (R : E → Type) (X V : Type) where
  read : Entry E R X → Option V
  write : Entry E R X → Option V

namespace Register

variable (reg : Register E R X V)

/-- The values written in a history, with the calls that wrote them. -/
def writes (h : History K E R X) : List (Nat × V) :=
  h.filterMap fun
    | .did t a => (reg.write a).map fun v => (t, v)
    | .called _ _ => none

/-- The latest value, or else the initial one. -/
def latest (v₀ : Option V) : List (Nat × V) → Option V
  | [] => v₀
  | (_, v) :: rest => latest (some v) rest

/-- The value of the register after a history. -/
def current (v₀ : Option V) (h : History K E R X) : Option V := latest v₀ (reg.writes h)

/-- The value a call has read last. -/
def lastRead (tr : Trace E R X) : Option V := (tr.filterMap reg.read).getLast?

/-- Whatever is written replaces the value its call has read last. -/
def Atomic (v₀ : Option V) (h : History K E R X) : Prop :=
  ∀ h₁ t a h₂ v, h = h₁ ++ .did t a :: h₂ → reg.write a = some v →
    reg.lastRead (own t h₁) = reg.current v₀ h₁

variable {reg}

@[simp] theorem writes_append (h h' : History K E R X) :
    reg.writes (h ++ h') = reg.writes h ++ reg.writes h' := List.filterMap_append

@[simp] theorem writes_called (t : Nat) (k : K) :
    reg.writes ([.called t k] : History K E R X) = [] := rfl

theorem writes_did {t : Nat} {a : Entry E R X} {v : V} (h : reg.write a = some v) :
    reg.writes ([.did t a] : History K E R X) = [(t, v)] := by
  simp [writes, h]

theorem writes_did_none {t : Nat} {a : Entry E R X} (h : reg.write a = none) :
    reg.writes ([.did t a] : History K E R X) = [] := by
  simp [writes, h]

theorem mem_writes {t : Nat} {v : V} {h : History K E R X} :
    (t, v) ∈ reg.writes h ↔ ∃ a, .did t a ∈ h ∧ reg.write a = some v := by
  rw [writes, List.mem_filterMap]
  constructor
  · rintro ⟨ev, hev, hv⟩
    cases ev with
    | called u k => cases hv
    | did u a =>
      obtain ⟨v', ha, hpair⟩ := Option.map_eq_some_iff.mp hv
      cases hpair
      exact ⟨a, hev, ha⟩
  · rintro ⟨a, hmem, ha⟩
    exact ⟨_, hmem, by simp [ha]⟩

theorem latest_append : ∀ (l l' : List (Nat × V)) (v₀ : Option V),
    latest v₀ (l ++ l') = latest (latest v₀ l) l' := by
  intro l l'
  induction l with
  | nil => exact fun _ => rfl
  | cons a l ih => exact fun _ => ih _

theorem latest_concat (l : List (Nat × V)) (v₀ : Option V) (t : Nat) (v : V) :
    latest v₀ (l ++ [(t, v)]) = some v := latest_append l [(t, v)] v₀

theorem latest_mem : ∀ {l : List (Nat × V)} {v₀ : Option V} {v : V}, latest v₀ l = some v →
    v₀ = some v ∨ ∃ t, (t, v) ∈ l := by
  intro l
  induction l with
  | nil => exact fun h => .inl h
  | cons a l ih =>
    intro v₀ v h
    rcases ih h with heq | ⟨t, hmem⟩
    · cases heq
      exact .inr ⟨a.1, List.mem_cons_self⟩
    · exact .inr ⟨t, List.mem_cons_of_mem _ hmem⟩

theorem current_did {v₀ : Option V} {h : History K E R X} {t : Nat} {a : Entry E R X} {v : V}
    (hwrite : reg.write a = some v) : reg.current v₀ (h ++ [.did t a]) = some v := by
  rw [current, writes_append, writes_did hwrite, latest_concat]

theorem current_did_none {v₀ : Option V} {h : History K E R X} {t : Nat} {a : Entry E R X}
    (hwrite : reg.write a = none) : reg.current v₀ (h ++ [.did t a]) = reg.current v₀ h := by
  rw [current, writes_append, writes_did_none hwrite, List.append_nil, current]

theorem current_called {v₀ : Option V} {h : History K E R X} {t : Nat} {k : K} :
    reg.current v₀ (h ++ [.called t k]) = reg.current v₀ h := by
  rw [current, writes_append, writes_called, List.append_nil, current]

theorem Atomic.of_append {v₀ : Option V} {h h' : History K E R X}
    (hatomic : reg.Atomic v₀ (h ++ h')) : reg.Atomic v₀ h := by
  intro h₁ t a h₂ v heq
  apply hatomic h₁ t a (h₂ ++ h') v
  rw [heq, List.append_assoc, List.cons_append]

/-! ## Serial histories -/

/-- Every value comes from the one before it. -/
def Serial (Step : Nat → Option V → V → Prop) : Option V → List (Nat × V) → Prop
  | _, [] => True
  | v₀, (t, v) :: rest => Step t v₀ v ∧ Serial Step (some v) rest

variable {Step : Nat → Option V → V → Prop}

theorem Serial.append {l : List (Nat × V)} {t : Nat} {v : V} : ∀ {v₀ : Option V},
    Serial Step v₀ l → Step t (latest v₀ l) v → Serial Step v₀ (l ++ [(t, v)]) := by
  induction l with
  | nil => exact fun _ hstep => ⟨hstep, trivial⟩
  | cons a l ih => exact fun h hstep => ⟨h.1, ih h.2 hstep⟩

theorem Serial.of_append {l' : List (Nat × V)} : ∀ {l : List (Nat × V)} {v₀ : Option V},
    Serial Step v₀ (l ++ l') → Serial Step (latest v₀ l) l' := by
  intro l
  induction l with
  | nil => exact fun h => h
  | cons a l ih => exact fun h => ih h.2

theorem Serial.step_of_mem {l : List (Nat × V)} {t : Nat} {v : V} : ∀ {v₀ : Option V},
    Serial Step v₀ l → (t, v) ∈ l → ∃ old, Step t old v := by
  induction l with
  | nil => exact fun _ hmem => (List.not_mem_nil hmem).elim
  | cons a l ih =>
    intro v₀ h hmem
    rcases List.mem_cons.mp hmem with rfl | hmem
    · exact ⟨v₀, h.1⟩
    · exact ih h.2 hmem

/-- In an atomic history in which every call writes a step from what it has read, the
values come one from the other. -/
theorem Atomic.serial {v₀ : Option V} {h : History K E R X} (hatomic : reg.Atomic v₀ h)
    (hstep : ∀ h₁ t a h₂ v, h = h₁ ++ .did t a :: h₂ → reg.write a = some v →
      Step t (reg.lastRead (own t h₁)) v) : Serial Step v₀ (reg.writes h) := by
  induction h using List.reverseRecOn with
  | nil => trivial
  | append_singleton h ev ih =>
    have hold : Serial Step v₀ (reg.writes h) := by
      refine ih hatomic.of_append fun h₁ t a h₂ v heq => hstep h₁ t a (h₂ ++ [ev]) v ?_
      rw [heq, List.append_assoc, List.cons_append]
    cases ev with
    | called t k =>
      rw [writes_append, writes_called, List.append_nil]
      exact hold
    | did t a =>
      cases hwrite : reg.write a with
      | none =>
        rw [writes_append, writes_did_none hwrite, List.append_nil]
        exact hold
      | some v =>
        rw [writes_append, writes_did hwrite]
        have hnow := hatomic h t a [] v rfl hwrite
        rw [current] at hnow
        exact hold.append (hnow ▸ hstep h t a [] v rfl hwrite)

/-- The values of a serial history go up in every transitive relation that the steps
respect. -/
theorem Serial.pairwise {Rel : V → V → Prop} (htrans : ∀ a b c, Rel a b → Rel b c → Rel a c)
    (hstep : ∀ t a b, Step t (some a) b → Rel a b) :
    ∀ {l : List (Nat × V)} {v₀ : Option V}, Serial Step v₀ l →
      (∀ v, v₀ = some v → ∀ tv ∈ l, Rel v tv.2) ∧ l.Pairwise fun a b => Rel a.2 b.2 := by
  intro l
  induction l with
  | nil => exact fun _ => ⟨fun _ _ _ h => (List.not_mem_nil h).elim, .nil⟩
  | cons tv l ih =>
    intro v₀ h
    obtain ⟨hfrom, hpair⟩ := ih h.2
    refine ⟨?_, .cons (hfrom tv.2 rfl) hpair⟩
    rintro v rfl tv' hmem
    have hhead := hstep _ _ _ h.1
    rcases List.mem_cons.mp hmem with rfl | hmem
    · exact hhead
    · exact htrans _ _ _ hhead (hfrom tv.2 rfl tv' hmem)

/-! ## Calls that take turns -/

/-- The call has read `v`, and since then it has not touched the register. -/
def Settled (reg : Register E R X V) (tr : Trace E R X) (v : V) : Prop :=
  ∃ before a since, tr = before ++ a :: since ∧ reg.read a = some v ∧ reg.write a = none ∧
    ∀ b ∈ since, reg.read b = none ∧ reg.write b = none

theorem Settled.lastRead {tr : Trace E R X} {v : V} (h : reg.Settled tr v) :
    reg.lastRead tr = some v := by
  obtain ⟨before, a, since, rfl, hread, -, hsince⟩ := h
  have hnone : since.filterMap reg.read = [] :=
    List.filterMap_eq_nil_iff.mpr fun b hb => (hsince b hb).1
  rw [Register.lastRead, List.filterMap_append, List.filterMap_cons_some hread, hnone,
    List.getLast?_append]
  rfl

/-- When the calls take turns the history is atomic, if every call writes only what it has
read, and reads the current value. -/
theorem atomic_of_inTurn {v₀ : Option V} {h : History K E R X} (hturn : InTurn h)
    (hread : ∀ h₁ t a h₂ v, h = h₁ ++ .did t a :: h₂ → reg.read a = some v →
      reg.current v₀ h₁ = some v)
    (hwrite : ∀ h₁ t a h₂ v, h = h₁ ++ .did t a :: h₂ → reg.write a = some v →
      reg.lastRead (own t h₁) = reg.current v₀ h₁ ∨ ∃ u, reg.Settled (own t h₁) u) :
    reg.Atomic v₀ h := by
  intro h₁ t a h₂ v heq ha
  rcases hwrite h₁ t a h₂ v heq ha with hfirst | ⟨u, hsettled⟩
  · exact hfirst
  · rw [hsettled.lastRead]
    obtain ⟨hturn₁, hlast⟩ := hturn.split heq
    obtain ⟨before, b, since, hown, hb, hb', hsince⟩ := hsettled
    obtain ⟨g₁, g₂, rfl, -, hown₂⟩ := own_eq_append hown
    have hg₂ : reg.writes g₂ = [] := by
      rw [writes, List.filterMap_eq_nil_iff]
      intro ev hev
      obtain ⟨c, rfl⟩ := hturn₁.since hlast rfl ev hev
      have hc : c ∈ since := hown₂ ▸ mem_own.mpr hev
      simp [(hsince c hc).2]
    have hcurrent : reg.current v₀ (g₁ ++ .did t b :: g₂) = reg.current v₀ g₁ := by
      rw [← List.singleton_append, current, writes_append, writes_append, hg₂,
        writes_did_none hb', List.append_nil, List.append_nil, current]
    rw [hcurrent]
    refine (hread g₁ t b (g₂ ++ .did t a :: h₂) u ?_ hb).symm
    rw [heq]
    simp

end Register

end Async
