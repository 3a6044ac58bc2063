import Clawback.Agent.World
import Clawback.Shared.StateMachine

/-!
# The case store

`BaseCaseStore`: `getForOwner` and `transition` over `get` and `save`.

* `obeys_transition`: the rule for a transition. A transition reads the record, decides on
  what it has read, and writes the whole record back.
-/

namespace Clawback

open Js Async

def unauthorizedCaseAccessError (caseId : Str) : JsError :=
  .error (js "UnauthorizedCaseAccessError")
    (js "Not authorized to access case " ++ caseId ++ js ".")

def getForOwner (caseId ownerId : Str) : Action CaseRecord := do
  let record ← Prog.perform (Effect.get caseId)
  if record.ownerId ≠ ownerId then Prog.throw (unauthorizedCaseAccessError caseId)
  else return record

def transition (caseId : Str) (event : CaseEvent) (patch : CaseRecord → Action CasePatch) :
    Action CaseRecord := do
  let current ← Prog.perform (Effect.get caseId)
  let nextState ← Prog.lift (applyTransition current.state event)
  let changes ← patch current
  let updatedAt ← now
  let patched := current.patched changes nextState updatedAt
  Prog.perform (Effect.save patched)
  return patched

/-! ## What they do -/

/-- The records a call has stored. -/
def written (tr : CallTrace) : List CaseRecord :=
  tr.filterMap fun
    | ⟨.create r, .ok _⟩ => some r
    | ⟨.save r, .ok _⟩ => some r
    | _ => none

@[simp] theorem written_append (tr tr' : CallTrace) :
    written (tr ++ tr') = written tr ++ written tr' := List.filterMap_append

theorem written_eq_nil_of_quiet {tr : CallTrace} (h : ∀ a ∈ tr, a.effect.isQuiet = true) :
    written tr = [] := by
  rw [written, List.filterMap_eq_nil_iff]
  rintro ⟨e, r⟩ ha
  have hquiet := h _ ha
  cases e <;> first | rfl | cases hquiet

theorem mem_written {r : CaseRecord} {tr : CallTrace} :
    r ∈ written tr ↔ ⟨.create r, .ok ()⟩ ∈ tr ∨ ⟨.save r, .ok ()⟩ ∈ tr := by
  rw [written, List.mem_filterMap]
  constructor
  · rintro ⟨a, ha, hr⟩
    split at hr
    · exact .inl (Option.some.inj hr ▸ ha)
    · exact .inr (Option.some.inj hr ▸ ha)
    · cases hr
  · rintro (h | h)
    · exact ⟨_, h, rfl⟩
    · exact ⟨_, h, rfl⟩

/-- After `before` the call has read `r`, and since then it has done quiet things only. -/
def Reading (caseId : Str) (before : CallTrace) (r : CaseRecord)
    (tr : CallTrace) : Prop :=
  ∃ since, tr = before ++ ⟨.get caseId, .ok r⟩ :: since ∧ ∀ a ∈ since, a.effect.isQuiet = true

theorem Reading.written {caseId : Str} {before tr : CallTrace} {r : CaseRecord}
    (h : Reading caseId before r tr) : written tr = written before := by
  obtain ⟨since, rfl, hsince⟩ := h
  rw [← List.singleton_append, written_append, written_append,
    written_eq_nil_of_quiet hsince, List.append_nil]
  exact List.append_nil _

/-- `r'` is `r` after a legal transition with the changes `patch`. -/
def Moved (event : CaseEvent) (patch : CasePatch) (r r' : CaseRecord) : Prop :=
  ∃ next updatedAt, applyTransition r.state event = .ok next ∧
    r' = r.patched patch next updatedAt

variable {P : CallTrace → Effect → Prop}

theorem obeys_getForOwner {Q : Except JsError CaseRecord → CallTrace → Prop}
    {caseId ownerId : Str} {tr : CallTrace} (hget : P tr (.get caseId))
    (hok : ∀ r, r.ownerId = ownerId → Q (.ok r) (tr ++ [⟨.get caseId, .ok r⟩]))
    (herr : ∀ x tr', Q (.error x) tr') : Obeys P Q (getForOwner caseId ownerId) tr := by
  refine Obeys.bind (Obeys.perform hget fun r => ?_)
  cases r with
  | error x => exact herr x _
  | ok r =>
    dsimp only
    split
    · exact herr _ _
    · rename_i howner
      exact hok r (not_not.mp howner)

theorem written_append_error (tr : CallTrace) (e : Effect) (x : JsError) :
    written (tr ++ [⟨e, .error x⟩]) = written tr := by
  have hnil : written [⟨e, .error x⟩] = [] := by cases e <;> rfl
  rw [written_append, hnil, List.append_nil]

/-- The rule for a transition whose patch asks only for effects in `T`. -/
theorem obeys_transition_since {T : Effect → Prop}
    {Q : Except JsError CaseRecord → CallTrace → Prop} {caseId : Str} {event : CaseEvent}
    {patch : CaseRecord → Action CasePatch} {S : CaseRecord → CasePatch → Prop} {tr : CallTrace}
    (hT : ∀ e, T e → e.isQuiet = true) (hnow : T .now)
    (hallowed : ∀ r since e, (∀ a ∈ since, T a.effect) → T e →
      P (tr ++ ⟨.get caseId, .ok r⟩ :: since) e)
    (hget : P tr (.get caseId)) (hpatch : ∀ r, Only T (S r) (patch r))
    (hsave : ∀ r r' changes since, (∀ a ∈ since, T a.effect) → S r changes →
      Moved event changes r r' → P (tr ++ ⟨.get caseId, .ok r⟩ :: since) (.save r'))
    (hok : ∀ r r' changes since, (∀ a ∈ since, T a.effect) → S r changes →
      Moved event changes r r' →
      Q (.ok r') (tr ++ ⟨.get caseId, .ok r⟩ :: since ++ [⟨.save r', .ok ()⟩]))
    (herr : ∀ x tr', written tr' = written tr → Q (.error x) tr') :
    Obeys P Q (transition caseId event patch) tr := by
  refine Obeys.bind (Obeys.perform hget fun r => ?_)
  cases r with
  | error x => exact herr x _ (written_append_error tr _ x)
  | ok r =>
    have hcons : ∀ since : CallTrace, tr ++ [⟨.get caseId, .ok r⟩] ++ since =
        tr ++ ⟨.get caseId, .ok r⟩ :: since := fun since => List.append_assoc _ _ _
    have hwritten : ∀ since : CallTrace, (∀ a ∈ since, T a.effect) →
        written (tr ++ ⟨.get caseId, .ok r⟩ :: since) = written tr :=
      fun since hsince => Reading.written ⟨since, rfl, fun a ha => hT _ (hsince a ha)⟩
    refine Obeys.bind (Obeys.lift ?_)
    cases hnext : applyTransition r.state event with
    | error x => exact herr x _ (hwritten [] fun _ h => (List.not_mem_nil h).elim)
    | ok next =>
      refine Obeys.bind ((Only.obeys (fun since e hsince he => ?_) (hpatch r)).mono ?_)
      · rw [hcons]
        exact hallowed r since e hsince he
      rintro changes _ ⟨⟨since, rfl, hsince⟩, hchanges⟩
      rw [hcons]
      cases changes with
      | error x => exact herr x _ (hwritten since hsince)
      | ok changes =>
        refine Obeys.bind (Obeys.perform (hallowed r since _ hsince hnow) fun time => ?_)
        cases time with
        | error x => exact herr x _ ((written_append_error _ _ x).trans (hwritten since hsince))
        | ok time =>
          have hmoved : Moved event changes r (r.patched changes next time) :=
            ⟨next, time, hnext, rfl⟩
          have hS := hchanges changes rfl
          have hsince' : ∀ a ∈ since ++ [⟨.now, .ok time⟩], T a.effect := by
            intro a ha
            rcases List.mem_append.mp ha with ha | ha
            · exact hsince a ha
            · rw [List.mem_singleton.mp ha]
              exact hnow
          rw [List.append_assoc, List.cons_append]
          refine Obeys.bind (Obeys.perform (hsave r _ changes _ hsince' hS hmoved) fun done => ?_)
          cases done with
          | error x =>
            exact herr x _ ((written_append_error _ _ x).trans (hwritten _ hsince'))
          | ok _ => exact hok r _ changes _ hsince' hS hmoved

/-- The same rule, with what has been read last. -/
theorem obeys_transition_of {T : Effect → Prop} {Q : Except JsError CaseRecord → CallTrace → Prop}
    {caseId : Str} {event : CaseEvent} {patch : CaseRecord → Action CasePatch}
    {S : CaseRecord → CasePatch → Prop} {tr : CallTrace} (hT : ∀ e, T e → e.isQuiet = true)
    (hnow : T .now) (hallowed : ∀ r tr' e, Reading caseId tr r tr' → T e → P tr' e)
    (hget : P tr (.get caseId)) (hpatch : ∀ r, Only T (S r) (patch r))
    (hsave : ∀ r r' changes tr', Reading caseId tr r tr' → S r changes →
      Moved event changes r r' → P tr' (.save r'))
    (hok : ∀ r r' changes tr', Reading caseId tr r tr' → S r changes →
      Moved event changes r r' → Q (.ok r') (tr' ++ [⟨.save r', .ok ()⟩]))
    (herr : ∀ x tr', written tr' = written tr → Q (.error x) tr') :
    Obeys P Q (transition caseId event patch) tr := by
  have hreading : ∀ (r : CaseRecord) (since : CallTrace), (∀ a ∈ since, T a.effect) →
      Reading caseId tr r (tr ++ ⟨.get caseId, .ok r⟩ :: since) :=
    fun r since hsince => ⟨since, rfl, fun a ha => hT _ (hsince a ha)⟩
  refine obeys_transition_since hT hnow ?_ hget hpatch ?_ ?_ herr
  · exact fun r since e hsince he => hallowed r _ e (hreading r since hsince) he
  · exact fun r r' changes since hsince => hsave r r' changes _ (hreading r since hsince)
  · exact fun r r' changes since hsince => hok r r' changes _ (hreading r since hsince)

/-- The rule for a transition whose patch does quiet things only. -/
theorem obeys_transition {Q : Except JsError CaseRecord → CallTrace → Prop}
    {caseId : Str} {event : CaseEvent} {patch : CaseRecord → Action CasePatch}
    {S : CaseRecord → CasePatch → Prop} {tr : CallTrace}
    (hquiet : ∀ r tr' e, Reading caseId tr r tr' → e.isQuiet = true → P tr' e)
    (hget : P tr (.get caseId)) (hpatch : ∀ r, Quietly (S r) (patch r))
    (hsave : ∀ r r' changes tr', Reading caseId tr r tr' → S r changes →
      Moved event changes r r' → P tr' (.save r'))
    (hok : ∀ r r' changes tr', Reading caseId tr r tr' → S r changes →
      Moved event changes r r' → Q (.ok r') (tr' ++ [⟨.save r', .ok ()⟩]))
    (herr : ∀ x tr', written tr' = written tr → Q (.error x) tr') :
    Obeys P Q (transition caseId event patch) tr :=
  obeys_transition_of (fun _ h => h) rfl hquiet hget hpatch hsave hok herr

end Clawback
