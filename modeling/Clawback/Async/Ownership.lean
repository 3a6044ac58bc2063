import Clawback.Async.Trace
import Mathlib.Data.Set.Insert

/-!
# Who owns what

Calls acquire parts of the world that they share, and give them back. `held tr` are the parts that a
call with the trace `tr` holds, `live w` are those in use in the world.

* `Manages.owned`: what is in use is held by one call, or has been in use from the start.
* `Manages.stable`: what a call knows of its own parts, the other calls do not change.
-/

namespace Async

variable {E K X W C α ρ : Type} {R : E → Type}

/-- What a call holds and what is in use, before an effect of the call and after it. -/
inductive Handover (held held' live live' : Set ρ) : Prop
  | keep : held' = held → live' = live → Handover held held' live live'
  | acquire (x : ρ) : x ∉ live → held' = insert x held → live' = insert x live →
    Handover held held' live live'
  | release (x : ρ) : x ∈ held → held' = held \ {x} → live' = live \ {x} →
    Handover held held' live live'

namespace Handover

variable {held held' live live' other : Set ρ}

/-- What is held stays in use. -/
theorem subset (h : Handover held held' live live') (hsub : held ⊆ live) : held' ⊆ live' := by
  cases h with
  | keep hheld hlive => rwa [hheld, hlive]
  | acquire x _ hheld hlive =>
    rw [hheld, hlive]
    exact Set.insert_subset_insert hsub
  | release x _ hheld hlive =>
    rw [hheld, hlive]
    exact fun y hy => ⟨hsub hy.1, hy.2⟩

/-- What another call holds stays in use. -/
theorem subset_of_disjoint (h : Handover held held' live live') (hsub : other ⊆ live)
    (hdisjoint : ∀ x ∈ other, x ∉ held) : other ⊆ live' := by
  cases h with
  | keep _ hlive => rwa [hlive]
  | acquire x _ _ hlive =>
    rw [hlive]
    exact hsub.trans (Set.subset_insert x live)
  | release x hx _ hlive =>
    rw [hlive]
    rintro y hy
    refine ⟨hsub hy, ?_⟩
    rintro rfl
    exact hdisjoint y hy hx

/-- What is acquired is not held by another call. -/
theorem disjoint (h : Handover held held' live live') (hsub : other ⊆ live)
    (hdisjoint : ∀ x ∈ other, x ∉ held) : ∀ x ∈ other, x ∉ held' := by
  intro y hy
  cases h with
  | keep hheld _ =>
    rw [hheld]
    exact hdisjoint y hy
  | acquire x hx hheld _ =>
    rw [hheld, Set.mem_insert_iff, not_or]
    refine ⟨?_, hdisjoint y hy⟩
    rintro rfl
    exact hx (hsub hy)
  | release x _ hheld _ =>
    rw [hheld]
    exact fun hy' => hdisjoint y hy hy'.1

/-- What is in use now is held by the call, or has been in use without it. -/
theorem live_subset (h : Handover held held' live live') : live' ⊆ held' ∪ live \ held := by
  intro x hx
  by_cases hheld : x ∈ held'
  · exact .inl hheld
  refine .inr ?_
  cases h with
  | keep heq hlive =>
    rw [hlive] at hx
    rw [heq] at hheld
    exact ⟨hx, hheld⟩
  | acquire y _ heq hlive =>
    rw [heq, Set.mem_insert_iff, not_or] at hheld
    rw [hlive] at hx
    exact ⟨hx.resolve_left hheld.1, hheld.2⟩
  | release y _ heq hlive =>
    rw [hlive] at hx
    rw [heq] at hheld
    exact ⟨hx.1, fun hold => hheld ⟨hold, hx.2⟩⟩

end Handover

/-- Every effect that a call asks for keeps, acquires or releases. -/
structure Manages (sys : System K E R X W C α) (P : K → Trace E R X → E → Prop)
    (held : Trace E R X → Set ρ) (live : W → Set ρ) : Prop where
  nil : held [] = ∅
  handover : ∀ {k tr e c w r w'}, P k tr e → sys.exec e c w = some (r, w') →
    Handover (held tr) (held (tr ++ [⟨e, r⟩])) (live w) (live w')

/-- What is in use is held by one call, unless it has been in use from the start. -/
structure Owned (held : Trace E R X → Set ρ) (live : W → Set ρ) (w₀ : W) (h : History K E R X)
    (w : W) : Prop where
  held_subset : ∀ t, held (own t h) ⊆ live w
  live_subset : ∀ x ∈ live w, x ∈ live w₀ ∨ ∃ t, x ∈ held (own t h)
  disjoint : ∀ t u, t ≠ u → ∀ x ∈ held (own t h), x ∉ held (own u h)

/-- After an effect of `t` only the trace of `t` is longer. -/
theorem own_did (h : History K E R X) (t u : Nat) (a : Entry E R X) :
    own u (h ++ [.did t a]) = if u = t then own t h ++ [a] else own u h := by
  rw [own_append]
  split
  · rename_i hu
    rw [hu, own_did_self]
  · rename_i hu
    rw [own_did_ne (Ne.symm hu), List.append_nil]

variable {sys : System K E R X W C α} {P : K → Trace E R X → E → Prop}
  {held : Trace E R X → Set ρ} {live : W → Set ρ} {w₀ w w' : W} {h : History K E R X}

theorem Owned.called (ho : Owned held live w₀ h w) (t : Nat) (k : K) :
    Owned held live w₀ (h ++ [.called t k]) w := by
  have hsame : ∀ u, own u (h ++ [.called t k]) = own u h := by
    intro u
    rw [own_append, own_called, List.append_nil]
  refine ⟨fun u => ?_, fun x hx => ?_, fun u v huv => ?_⟩
  · rw [hsame]
    exact ho.held_subset u
  · refine (ho.live_subset x hx).imp_right ?_
    rintro ⟨u, hu⟩
    refine ⟨u, ?_⟩
    rwa [hsame]
  · rw [hsame, hsame]
    exact ho.disjoint u v huv

theorem Owned.did (ho : Owned held live w₀ h w) {t : Nat} {a : Entry E R X}
    (hover : Handover (held (own t h)) (held (own t h ++ [a])) (live w) (live w')) :
    Owned held live w₀ (h ++ [.did t a]) w' := by
  have hother : ∀ u, u ≠ t → ∀ x ∈ held (own u h), x ∉ held (own t h ++ [a]) :=
    fun u hu => hover.disjoint (ho.held_subset u) (ho.disjoint u t hu)
  refine ⟨fun u => ?_, fun x hx => ?_, fun u v huv => ?_⟩
  · rw [own_did]
    split
    · exact hover.subset (ho.held_subset t)
    · rename_i hu
      exact hover.subset_of_disjoint (ho.held_subset u) (ho.disjoint u t hu)
  · rcases hover.live_subset hx with hnow | ⟨hbefore, hfree⟩
    · refine .inr ⟨t, ?_⟩
      rwa [own_did, if_pos rfl]
    · refine (ho.live_subset x hbefore).imp_right ?_
      rintro ⟨u, hu⟩
      have hne : u ≠ t := by
        rintro rfl
        exact hfree hu
      refine ⟨u, ?_⟩
      rwa [own_did, if_neg hne]
  · rw [own_did, own_did]
    split <;> rename_i hu <;> split <;> rename_i hv
    · exact absurd (hu.trans hv.symm) huv
    · exact fun x hx hx' => hother v hv x hx' hx
    · exact hother u hu
    · exact ho.disjoint u v huv

namespace Manages

/-- In every lawful history, what is in use has one owner. -/
theorem owned (hm : Manages sys P held live) (hl : Lawful sys P w₀ h w) :
    Owned held live w₀ h w := by
  induction hl with
  | nil =>
    have hnone : ∀ t, held (own t ([] : History K E R X)) = ∅ := fun _ => hm.nil
    refine ⟨fun t => ?_, fun _ hx => .inl hx, fun t u _ x hx => ?_⟩
    · rw [hnone]
      exact Set.empty_subset _
    · rw [hnone] at hx
      exact absurd hx (Set.notMem_empty x)
  | called _ _ ih => exact ih.called _ _
  | did _ _ hP hexec ih => exact ih.did (hm.handover hP hexec)

/-- **What is owned is stable.** A fact that the effects of its own call keep up, and that effects
on the parts of others do not touch, holds of every call. -/
theorem stable (hm : Manages sys P held live) {fact : K → Trace E R X → W → Prop}
    (hstart : ∀ k w, fact k [] w)
    (hself : ∀ {k tr e c w r w'}, P k tr e → sys.exec e c w = some (r, w') →
      fact k tr w → fact k (tr ++ [⟨e, r⟩]) w')
    (hother : ∀ {k tr e c w r w' k' tr'}, P k tr e → sys.exec e c w = some (r, w') →
      fact k tr w → held tr' ⊆ live w → (∀ x ∈ held tr', x ∉ held tr) →
        fact k' tr' w → fact k' tr' w')
    (hl : Lawful sys P w₀ h w) {t : Nat} {k : K} (hk : .called t k ∈ h) : fact k (own t h) w := by
  induction hl generalizing k t with
  | nil => cases hk
  | @called h w u k' hl hfresh ih =>
    rw [own_append, own_called, List.append_nil]
    rcases List.mem_append.mp hk with hk | hk
    · exact ih hk
    · cases List.mem_singleton.mp hk
      rw [own_eq_nil hfresh]
      exact hstart k' w
  | @did h w w' u k' e c r hl hk' hP hexec ih =>
    have hbefore : .called t k ∈ h := by
      rcases List.mem_append.mp hk with hk | hk
      · exact hk
      · cases List.mem_singleton.mp hk
    rw [own_did]
    split
    · rename_i htu
      subst htu
      cases hl.called_unique hbefore hk'
      exact hself hP hexec (ih hbefore)
    · rename_i htu
      have ho := hm.owned hl
      exact hother hP hexec (ih hk') (ho.held_subset t) (ho.disjoint t u htu) (ih hbefore)

end Manages

end Async
