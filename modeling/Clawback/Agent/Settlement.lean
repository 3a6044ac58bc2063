import Clawback.Agent.Sequence

/-!
# Fees and the ledger

* `fees_once_when_due`: in every sequence of calls a fee is assessed for a case once at most, and
  only when it is due.
* `ledger_agrees`: the ledger agrees with the store, as long as the store does not fail between
  the assessment of a fee and the last transition of its case.
-/

namespace Clawback

open Js Async

variable {env : Platform}

/-! ## Assessments -/

/-- The fees that are assessed for a case, in order, whether the ledger fails or not. -/
def assessments (c : Str) (l : Log) : List FeeCalculation :=
  l.filterMap fun a => match a.entry.effect with
    | .assessFee c' fee => if c' = c then some fee else none
    | _ => none

theorem assessments_append (c : Str) (l l' : Log) :
    assessments c (l ++ l') = assessments c l ++ assessments c l' := List.filterMap_append

theorem assessments_eq_nil {c : Str} {l : Log} (h : ∀ a ∈ l, a.entry.effect.isFee = false) :
    assessments c l = [] := by
  unfold assessments
  rw [List.filterMap_eq_nil_iff]
  rintro ⟨w, ⟨e, r⟩, w'⟩ ha
  have he := h _ ha
  cases e with
  | assessFee c' fee => cases he
  | _ => rfl

theorem mem_assessments {c : Str} {l : Log} {fee : FeeCalculation} :
    fee ∈ assessments c l ↔ ∃ a ∈ l, a.entry.effect = .assessFee c fee := by
  unfold assessments
  rw [List.mem_filterMap]
  constructor
  · rintro ⟨a, ha, hfee⟩
    split at hfee
    · rename_i c' fee' heffect
      by_cases hc : c' = c
      · rw [if_pos hc] at hfee
        cases hfee
        exact ⟨a, ha, hc ▸ heffect⟩
      · rw [if_neg hc] at hfee
        cases hfee
    · cases hfee
  · rintro ⟨a, ha, heffect⟩
    refine ⟨a, ha, ?_⟩
    rw [heffect]
    exact if_pos rfl

/-- A call assesses one fee at most. -/
theorem assessments_of_owed {w₀ : World} {l : Log} (c : Str)
    (h : ∀ l₁ a l₂, l = l₁ ++ a :: l₂ → Owed w₀ l₁ a.before a.entry.effect) :
    (assessments c l).length ≤ 1 := by
  induction l using List.reverseRecOn with
  | nil => exact Nat.zero_le 1
  | append_singleton l a ih =>
    have hbefore := ih fun l₁ b l₂ heq => h l₁ b (l₂ ++ [a]) (by rw [heq, List.append_assoc]; rfl)
    have hlast := h l a [] rfl
    rw [assessments_append, List.length_append]
    cases hfee : a.entry.effect.isFee with
    | false =>
      have hnone : assessments c [a] = [] := assessments_eq_nil fun b hb => by
        rw [List.mem_singleton.mp hb]
        exact hfee
      rw [hnone]
      exact hbefore
    | true =>
      have hnone : assessments c l = [] := by
        apply assessments_eq_nil
        obtain ⟨w, ⟨e, r⟩, w'⟩ := a
        cases e with
        | assessFee c' fee => exact hlast.2.1
        | _ => cases hfee
      rw [hnone, List.length_nil, Nat.zero_add]
      exact (List.length_filterMap_le _ _)

theorem owed_assessFee {w₀ : World} {l : Log}
    (h : ∀ l₁ a l₂, l = l₁ ++ a :: l₂ → Owed w₀ l₁ a.before a.entry.effect)
    {a : Asked Effect Effect.Answer JsError World} (ha : a ∈ l) {c : Str} {fee : FeeCalculation}
    (heffect : a.entry.effect = .assessFee c fee) :
    (∃ r, a.before.store c = some r ∧ FeeDue r fee) ∧
      ∃ r, w₀.store c = some r ∧ r.state = .awaitingApproval := by
  obtain ⟨l₁, l₂, rfl⟩ := List.append_of_mem ha
  have howed := h l₁ a l₂ rfl
  rw [heffect] at howed
  exact ⟨howed.1, howed.2.2⟩

/-! ## How an execution concludes -/

/-- The ledger failed to assess a fee. -/
def feeFails (a : Asked Effect Effect.Answer JsError World) : Bool :=
  match a.entry with
  | ⟨.assessFee _ _, .error _⟩ => true
  | _ => false

/-- The call has come to an outcome of the case `c`, whose record is now `r`. -/
structure Concluded (c : Str) (w : World) (l : Log) (w' : World) (r : CaseRecord) : Prop where
  stored : w'.store c = some r
  state : r.state ∈ answeredStates
  outcome : ∃ outcome, r.outcome = some outcome ∧ outcome.outcomeType ≠ .noResponse
  others : ∀ c', c' ≠ c → assessments c' l = [] ∧ w'.ledger c' = w.ledger c'
  settled : w'.ledger c = w.ledger c ∨ assessments c l ≠ [] ∧
    ∃ s outcome, w'.ledger c = some s ∧ r.outcome = some outcome ∧
      outcome.verifiedSavingsCents = some s.fee.verifiedSavingsCents
  confirmed : (r.state = .verifiedSuccess ∧ r.receipt ≠ none) ∨
    (r.state = .outcomePending ∧
      ((∃ a ∈ l, storeFails a = true ∧ a.before = w' ∧ a.entry.effect.caseOf = some c) ∨
        w'.ledger c = w.ledger c ∧ ∃ a ∈ l, feeFails a = true))

section Executing

variable {deps : OrchestratorDeps} {c ownerId proposalId : Str} {w w' : World} {l : Log}

theorem Settles.others {outcome : OutcomeEvidence} {result : Except JsError Unit}
    (h : Settles c outcome w result l w') {c' : Str} (hc : c' ≠ c) :
    assessments c' l = [] ∧ w'.ledger c' = w.ledger c' := by
  cases h with
  | free _ => exact ⟨rfl, rfl⟩
  | assessed _ _ _ _ =>
    refine ⟨?_, if_neg hc⟩
    exact List.filterMap_cons_none (if_neg hc.symm)
  | failed _ _ _ _ =>
    refine ⟨?_, rfl⟩
    exact List.filterMap_cons_none (if_neg hc.symm)

theorem Settles.settled {outcome : OutcomeEvidence} {result : Except JsError Unit}
    (h : Settles c outcome w result l w') : w'.ledger c = w.ledger c ∨
      assessments c l ≠ [] ∧ ∃ s, w'.ledger c = some s ∧
        outcome.verifiedSavingsCents = some s.fee.verifiedSavingsCents := by
  cases h with
  | free _ => exact .inl rfl
  | @assessed v fee time hverified _ hfee =>
    obtain ⟨fee', hfee', hsame⟩ := exists_fee v defaultFeeBps
    rw [hfee] at hfee'
    cases hfee'
    have hmem : fee ∈ assessments c [⟨w, ⟨.assessFee c fee, .ok (assessedRecord c fee time)⟩,
        w.settle c (assessedRecord c fee time)⟩] :=
      mem_assessments.mpr ⟨_, List.mem_singleton_self _, rfl⟩
    refine .inr ⟨List.ne_nil_of_mem hmem, assessedRecord c fee time, if_pos rfl, ?_⟩
    rw [hverified, ← hsame]
    rfl
  | failed _ _ _ _ => exact .inl rfl

theorem Settles.error {outcome : OutcomeEvidence} {x : JsError}
    (h : Settles c outcome w (.error x) l w') :
    w'.ledger c = w.ledger c ∧ ∃ a ∈ l, feeFails a = true := by
  cases h with
  | failed _ _ _ _ => exact ⟨rfl, _, List.mem_singleton_self _, rfl⟩

/-- What is asked before the settlement of an outcome assesses no fee. -/
theorem isFee_receiptLog {receipt stored anchored : ClawbackReceipt} {l₁ l₂ : Log}
    {uuid : Str} (createdAt : Str) (h₁ : Uploads deps receipt (w.draw uuid) stored l₁)
    (h₂ : Anchors env deps c stored (w.draw uuid) anchored l₂) :
    ∀ a ∈ [drew w uuid, asked (w.draw uuid) .now (.ok createdAt)] ++ l₁ ++ l₂,
      a.entry.effect.isFee = false := by
  refine List.forall_mem_append.mpr ⟨List.forall_mem_append.mpr ⟨fun a ha => ?_,
    isFee_uploads h₁⟩, isFee_anchors h₂⟩
  simp only [List.mem_cons, List.not_mem_nil, or_false] at ha
  rcases ha with rfl | rfl <;> rfl

theorem assessments_between (c : Str) {l : Log} (l' : Log) {l'' : Log}
    (h : ∀ a ∈ l, a.entry.effect.isFee = false) (h'' : ∀ a ∈ l'', a.entry.effect.isFee = false) :
    assessments c (l ++ l' ++ l'') = assessments c l' := by
  rw [assessments_append, assessments_append, assessments_eq_nil h, assessments_eq_nil h'',
    List.append_nil, List.nil_append]

/-- The part after the outcome ends in `VERIFIED_SUCCESS`, unless the ledger or the store fails. -/
theorem Finalizes.concluded {built : BuildReceiptInput} {pending : CaseRecord}
    {result : Except JsError CaseSummary} (h : Finalizes env deps built pending w result l w')
    (hfound : w.store built.caseId = some pending) (hid : pending.caseId = built.caseId)
    (hstate : pending.state = .outcomePending) (houtcome : pending.outcome = some built.outcome)
    (hanswered : built.outcome.outcomeType ≠ .noResponse) :
    ∃ r, Concluded built.caseId w l w' r := by
  have hanswers : pending.state ∈ answeredStates := by
    rw [hstate]
    decide
  cases h with
  | @unsettled uuid createdAt _ _ l₁ l₂ l₃ error _ h₁ h₂ hsettles =>
    have hfree := isFee_receiptLog createdAt h₁ h₂
    have hnil : ∀ a ∈ ([] : Log), a.entry.effect.isFee = false :=
      fun a ha => (List.not_mem_nil ha).elim
    have hassessed : ∀ c, assessments c ([drew w uuid, asked (w.draw uuid) .now (.ok createdAt)] ++
        l₁ ++ l₂ ++ l₃) = assessments c l₃ := by
      intro c
      have hbetween := assessments_between c l₃ hfree hnil
      rwa [List.append_nil] at hbetween
    obtain ⟨hledger, a, ha, hfails⟩ := hsettles.error
    refine ⟨pending, by rw [hsettles.store]; exact hfound, hanswers, ⟨_, houtcome, hanswered⟩,
      fun c' hc => ?_, .inl hledger, .inr ⟨hstate, .inr ⟨hledger, a, ?_, hfails⟩⟩⟩
    · rw [hassessed]
      exact hsettles.others hc
    · exact List.mem_append_right _ ha
  | @unconfirmed uuid createdAt _ _ l₁ l₂ l₃ since _ _ h₁ h₂ hsettles hcut =>
    have hassessed := fun c => assessments_between c l₃
      (isFee_receiptLog createdAt h₁ h₂) (isFee_of_harmless hcut.harmless)
    obtain ⟨a, ha, hfails, hbefore, hcase⟩ := hcut.fails
    refine ⟨pending, by rw [hsettles.store]; exact hfound, hanswers, ⟨_, houtcome, hanswered⟩,
      fun c' hc => ?_, ?_, .inr ⟨hstate, .inl ⟨a, List.mem_append_right _ ha, hfails, hbefore,
        hcase⟩⟩⟩
    · rw [hassessed]
      exact hsettles.others hc
    · rw [hassessed]
      refine hsettles.settled.imp id fun ⟨hne, s, hs, hverified⟩ => ?_
      exact ⟨hne, s, _, hs, houtcome, hverified⟩
  | @confirmed uuid createdAt _ anchored l₁ l₂ l₃ final updatedAt w₁ h₁ h₂ hsettles hfinal =>
    have hassessed := fun c => assessments_between c l₃
      (isFee_receiptLog createdAt h₁ h₂)
      (isFee_moveLog w₁ built.caseId pending final updatedAt)
    have hfinalId : final.caseId = built.caseId := by
      rw [hfinal]
      exact hid
    have hfinalOutcome : final.outcome = some built.outcome := by
      rw [hfinal]
      exact houtcome
    have hfinalState : final.state = .verifiedSuccess := by rw [hfinal]; rfl
    refine ⟨final, if_pos hfinalId.symm, ?_, ⟨_, hfinalOutcome, hanswered⟩, fun c' hc => ?_, ?_,
      .inl ⟨hfinalState, ?_⟩⟩
    · rw [hfinalState]
      decide
    · rw [hassessed]
      exact hsettles.others hc
    · rw [hassessed]
      refine hsettles.settled.imp id fun ⟨hne, s, hs, hverified⟩ => ?_
      exact ⟨hne, s, _, hs, hfinalOutcome, hverified⟩
    · rw [hfinal]
      exact Option.some_ne_none _

theorem Concluded.prepend {r : CaseRecord} {w₀ : World} {l₀ : Log} (h : Concluded c w l w' r)
    (hledger : w.ledger = w₀.ledger) (hfree : ∀ a ∈ l₀, a.entry.effect.isFee = false) :
    Concluded c w₀ (l₀ ++ l) w' r := by
  have hassessed : ∀ c, assessments c (l₀ ++ l) = assessments c l := by
    intro c
    rw [assessments_append, assessments_eq_nil hfree, List.nil_append]
  refine ⟨h.stored, h.state, h.outcome, fun c' hc => ?_, ?_, h.confirmed.imp id ?_⟩
  · rw [hassessed, ← hledger]
    exact h.others c' hc
  · rw [hassessed, ← hledger]
    exact h.settled
  · rintro ⟨hstate, hfails⟩
    refine ⟨hstate, ?_⟩
    rcases hfails with ⟨a, ha, hfails⟩ | ⟨hsame, a, ha, hfails⟩
    · exact .inl ⟨a, List.mem_append_right _ ha, hfails⟩
    · exact .inr ⟨hsame.trans (congrFun hledger c), a, List.mem_append_right _ ha, hfails⟩

theorem isFee_failedLog (x : Execution) (w : World) (input : SubscriptionCaseInput)
    (error : JsError) : ∀ a ∈ x.failedLog env w input error, a.entry.effect.isFee = false := by
  refine List.forall_mem_append.mpr ⟨isFee_executingLog x w, fun a ha => ?_⟩
  rw [List.mem_singleton.mp ha]
  rfl

theorem isFee_approvalLog (x : Execution) (w : World) :
    ∀ a ∈ x.approvalLog env w, a.entry.effect.isFee = false := by
  refine List.forall_mem_append.mpr ⟨fun a ha => ?_, isFee_moveLog _ _ _ _ _⟩
  simp only [List.mem_cons, List.not_mem_nil, or_false] at ha
  rcases ha with rfl | rfl <;> rfl

theorem Begins.concluded {x : Execution} (hx : Begins c ownerId proposalId w x)
    {input : SubscriptionCaseInput} {outcome : OutcomeEvidence} {updatedAt : Str} {r : CaseRecord}
    {result : Except JsError CaseSummary} (hanswered : outcome.outcomeType ≠ .noResponse)
    (hr : r = x.answered env outcome updatedAt)
    (h : Finalizes env deps (x.receiptInput env deps input outcome) r
      ((x.executingWorld env w).put r) result l w') :
    ∃ r', Concluded c ((x.executingWorld env w).put r) l w' r' := by
  have hid : r.caseId = x.record.caseId := by rw [hr]; rfl
  have hstate : r.state = (outcomeEvent outcome).target := by rw [hr]; rfl
  have houtcome : r.outcome = some outcome := by rw [hr]; rfl
  rw [outcomeEvent, if_neg hanswered] at hstate
  obtain ⟨r', hconcluded⟩ := h.concluded (if_pos hid.symm) hid hstate houtcome hanswered
  have hcase : (x.receiptInput env deps input outcome).caseId = c := hx.caseId
  rw [hcase] at hconcluded
  exact ⟨r', hconcluded⟩

/-- An approval that assesses a fee, or changes the ledger, has come to an outcome. -/
theorem Executes.concluded {result : Except JsError CaseSummary}
    (h : Executes env deps c ownerId proposalId w result l w') :
    (w'.ledger = w.ledger ∧ ∀ a ∈ l, a.entry.effect.isFee = false) ∨
      ∃ r, Concluded c w l w' r := by
  cases h with
  | refused hl => exact .inl ⟨rfl, isFee_of_harmless hl⟩
  | unbegun _ hcut =>
    exact .inl ⟨rfl, List.forall_mem_append.mpr
      ⟨isFee_approvalLog _ _, isFee_of_harmless hcut.harmless⟩⟩
  | undecrypted _ _ => exact .inl ⟨rfl, isFee_executingLog _ _⟩
  | unfailed _ _ hcut =>
    exact .inl ⟨rfl, List.forall_mem_append.mpr
      ⟨isFee_failedLog _ _ _ _, isFee_of_harmless hcut.harmless⟩⟩
  | failed _ _ hsince =>
    exact .inl ⟨rfl, List.forall_mem_append.mpr ⟨List.forall_mem_append.mpr
      ⟨isFee_failedLog _ _ _ _, isFee_moveLog _ _ _ _ _⟩, isFee_of_harmless hsince⟩⟩
  | unrecorded _ _ hcut =>
    exact .inl ⟨rfl, List.forall_mem_append.mpr
      ⟨isFee_answeredLog _ _ _ _ _, isFee_of_harmless hcut.harmless⟩⟩
  | unanswered _ _ _ _ _ =>
    exact .inl ⟨rfl, List.forall_mem_append.mpr
      ⟨isFee_answeredLog _ _ _ _ _, isFee_moveLog _ _ _ _ _⟩⟩
  | finalizing hx _ _ hanswered hr hfinalizes =>
    obtain ⟨r', hconcluded⟩ := hx.concluded hanswered hr hfinalizes
    exact .inr ⟨r', hconcluded.prepend rfl
      (List.forall_mem_append.mpr ⟨isFee_answeredLog _ _ _ _ _, isFee_moveLog _ _ _ _ _⟩)⟩

end Executing

/-- A call that assesses a fee, or changes the ledger, has come to an outcome. -/
theorem CallEnds.concluded {w w' : World} {k : Call} {l : Log} (h : CallEnds env w k l w') :
    (w'.ledger = w.ledger ∧ ∀ a ∈ l, a.entry.effect.isFee = false) ∨
      ∃ c r, Concluded c w l w' r := by
  cases h with
  | quiet hl _ hledger _ => exact .inl ⟨hledger, isFee_of_harmless hl⟩
  | submits hsubmits =>
    rcases hsubmits.only with ⟨hl, -, hledger, -⟩ | ⟨r, honly, -⟩
    · exact .inl ⟨hledger, isFee_of_harmless hl⟩
    · exact .inl ⟨honly.ledger, honly.free⟩
  | rejects _ _ _ hl =>
    exact .inl ⟨rfl, List.forall_mem_append.mpr ⟨isFee_of_harmless hl, isFee_moveLog _ _ _ _ _⟩⟩
  | @executes _ c _ _ _ _ _ hexecutes =>
    exact hexecutes.concluded.imp id fun ⟨r, hr⟩ => ⟨c, r, hr⟩

/-! ## Fees from verified savings -/

/-- The fees so far: a case whose fee was assessed is answered, and each fee was due. -/
structure FeesDue (l : Log) (w : World) : Prop where
  answered : ∀ c, assessments c l ≠ [] → ∃ r, w.store c = some r ∧ r.state ∈ answeredStates ∧
    ∃ outcome, r.outcome = some outcome ∧ outcome.outcomeType ≠ .noResponse
  once : ∀ c, (assessments c l).length ≤ 1
  due : ∀ a ∈ l, ∀ c fee, a.entry.effect = .assessFee c fee →
    ∃ r, a.before.store c = some r ∧ FeeDue r fee
  ledger : ∀ c, w.ledger c ≠ none → assessments c l ≠ []

theorem ne_awaiting_of_answered {r : CaseRecord} (h : r.state ∈ answeredStates) :
    r.state ≠ .awaitingApproval := by
  intro hstate
  rw [hstate] at h
  revert h
  decide

/-- Fees that are due go with those before them. -/
theorem FeesDue.owed {w : World} {l l' : Log} (h : FeesDue l w)
    (howed : ∀ l₁ a l₂, l' = l₁ ++ a :: l₂ → Owed w l₁ a.before a.entry.effect) :
    (∀ c, assessments c l ≠ [] → assessments c l' = []) ∧
    (∀ c, (assessments c (l ++ l')).length ≤ 1) ∧
    ∀ a ∈ l ++ l', ∀ c fee, a.entry.effect = .assessFee c fee →
      ∃ r, a.before.store c = some r ∧ FeeDue r fee := by
  have hapart : ∀ c, assessments c l ≠ [] → assessments c l' = [] := by
    intro c hassessed
    by_contra hnew
    obtain ⟨fee, hfee⟩ := List.exists_mem_of_ne_nil _ hnew
    obtain ⟨a, ha, heffect⟩ := mem_assessments.mp hfee
    obtain ⟨-, r, hfound, hawaits⟩ := owed_assessFee howed ha heffect
    obtain ⟨r', hfound', hstate, -⟩ := h.answered c hassessed
    rw [hfound] at hfound'
    cases hfound'
    exact ne_awaiting_of_answered hstate hawaits
  refine ⟨hapart, fun c => ?_, fun a ha c fee heffect => ?_⟩
  · rw [assessments_append]
    by_cases hassessed : assessments c l = []
    · rw [hassessed, List.nil_append]
      exact assessments_of_owed c howed
    · rw [hapart c hassessed, List.append_nil]
      exact h.once c
  · rcases List.mem_append.mp ha with ha | ha
    · exact h.due a ha c fee heffect
    · exact (owed_assessFee howed ha heffect).1

theorem FeesDue.step {w w' : World} {k : Call} {l l' : Log} (hw : Sound env w)
    (h : FeesDue l w) (hends : CallEnds env w k l' w')
    (howed : ∀ l₁ a l₂, l' = l₁ ++ a :: l₂ → Owed w l₁ a.before a.entry.effect) :
    FeesDue (l ++ l') w' := by
  obtain ⟨-, honce, hdue⟩ := h.owed howed
  have hkept : ∀ c, assessments c l ≠ [] → ∃ r, w'.store c = some r ∧ r.state ∈ answeredStates ∧
      ∃ outcome, r.outcome = some outcome ∧ outcome.outcomeType ≠ .noResponse := by
    intro c hassessed
    obtain ⟨r, hfound, hstate, houtcome⟩ := h.answered c hassessed
    exact ⟨r, hends.kept hw hfound (ne_awaiting_of_answered hstate), hstate, houtcome⟩
  have hold : ∀ c, w.ledger c ≠ none → assessments c (l ++ l') ≠ [] := by
    intro c hledger
    rw [assessments_append]
    exact List.append_ne_nil_of_left_ne_nil (h.ledger c hledger) _
  rcases hends.concluded with ⟨hledger, hfree⟩ | ⟨c, r, hconcluded⟩
  · refine ⟨fun c hassessed => hkept c ?_, honce, hdue, fun c hc => hold c ?_⟩
    · rwa [assessments_append, assessments_eq_nil hfree, List.append_nil] at hassessed
    · rwa [hledger] at hc
  · refine ⟨fun c' hassessed => ?_, honce, hdue, fun c' hc' => ?_⟩
    · by_cases hc : c' = c
      · subst hc
        exact ⟨r, hconcluded.stored, hconcluded.state, hconcluded.outcome⟩
      · apply hkept c'
        rwa [assessments_append, (hconcluded.others c' hc).1, List.append_nil] at hassessed
    · by_cases hc : c' = c
      · subst hc
        rcases hconcluded.settled with hsame | ⟨hnew, -⟩
        · exact hold c' (hsame ▸ hc')
        · rw [assessments_append]
          exact List.append_ne_nil_of_right_ne_nil _ hnew
      · exact hold c' ((hconcluded.others c' hc).2 ▸ hc')

theorem feesDue_of_runCalls {script : List (Call × List Choice)} {l : List AgentEnded}
    (h : (agent env).runCalls World.empty script = some l) :
    FeesDue (l.flatMap Ended.asked) (finalWorld World.empty l) := by
  refine runCalls_sound_invariant (I := fun l w => FeesDue (l.flatMap Ended.asked) w) ?_ ?_ h
  · exact ⟨fun c hc => absurd rfl hc, fun c => Nat.zero_le 1,
      fun a ha => (List.not_mem_nil ha).elim, fun c hc => absurd rfl hc⟩
  · intro l e hdue hw hends howed
    rw [List.flatMap_append, List.flatMap_singleton]
    exact hdue.step hw hends howed

set_option maxRecDepth 10000 in
/-- In the sample a fee is assessed once, and the store does not fail. -/
theorem sampleScript_settles :
    ∃ l, (agent samplePlatform).runCalls World.empty sampleScript = some l ∧
      (assessments (js "case_1") (l.flatMap Ended.asked)).length = 1 ∧
      (∃ s, (finalWorld World.empty l).ledger (js "case_1") = some s) ∧
      ∀ e ∈ l, ∀ a ∈ e.asked, storeFails a = false := by
  have hany : (((agent samplePlatform).runCalls World.empty sampleScript).any fun l =>
      (assessments (js "case_1") (l.flatMap Ended.asked)).length == 1 &&
        (((finalWorld World.empty l).ledger (js "case_1")).isSome &&
          (l.flatMap Ended.asked).all fun a => !storeFails a)) = true := by decide +kernel
  obtain ⟨l, hrun, hl⟩ := (Option.any_eq_true _ _).mp hany
  obtain ⟨honce, hl⟩ := (Bool.and_eq_true _ _).mp hl
  obtain ⟨hledger, hfine⟩ := (Bool.and_eq_true _ _).mp hl
  refine ⟨l, hrun, eq_of_beq honce, Option.isSome_iff_exists.mp hledger, fun e he a ha => ?_⟩
  have hfine := List.all_eq_true.mp hfine a (List.mem_flatMap.mpr ⟨e, he, ha⟩)
  exact (Bool.not_eq_true' _).mp hfine

/-- **Fees come only from verified savings, once.** In every sequence of calls, the last of which
may still be running, whatever fails: a fee is assessed once at most for a case, and when it is,
it is the fee that is due for the record in the store. A case that was rejected, has failed or got
no response has no fee. -/
theorem fees_once_when_due {script : List (Call × List Choice)} {l : List AgentEnded}
    (h : (agent env).runCalls World.empty script = some l) :
    (∀ k cs since q w', (agent env).advance (start env k) (finalWorld World.empty l) cs =
        some (since, q, w') →
      (∀ c, (assessments c (l.flatMap Ended.asked ++ since)).length ≤ 1) ∧
      ∀ a ∈ l.flatMap Ended.asked ++ since, ∀ c fee, a.entry.effect = .assessFee c fee →
        ∃ r, a.before.store c = some r ∧ FeeDue r fee) ∧
    ∀ c r, (finalWorld World.empty l).store c = some r →
      (r.state = .rejected ∨ r.state = .executionFailed ∨
        ∃ outcome, r.outcome = some outcome ∧ outcome.outcomeType = .noResponse) →
      assessments c (l.flatMap Ended.asked) = [] ∧ (finalWorld World.empty l).ledger c = none := by
  have hdue := feesDue_of_runCalls h
  refine ⟨fun k cs since q w' hadvance => ?_, fun c r hr hfailed => ?_⟩
  · obtain ⟨-, howed⟩ := (ensures_start (sound_of_runCalls h) k).advance hadvance
    obtain ⟨-, honce, hall⟩ := hdue.owed howed
    exact ⟨honce, hall⟩
  · have hnone : assessments c (l.flatMap Ended.asked) = [] := by
      by_contra hassessed
      obtain ⟨r', hfound, hstate, outcome, houtcome, hanswered⟩ := hdue.answered c hassessed
      rw [hr] at hfound
      cases hfound
      rcases hfailed with hrejected | hfailed | ⟨outcome', houtcome', hnoResponse⟩
      · rw [hrejected] at hstate
        revert hstate
        decide
      · rw [hfailed] at hstate
        revert hstate
        decide
      · rw [houtcome] at houtcome'
        cases houtcome'
        exact hanswered hnoResponse
    refine ⟨hnone, ?_⟩
    by_contra hledger
    exact hdue.ledger c hledger hnone

theorem fees_once_when_due_sample :
    ∃ l, (agent samplePlatform).runCalls World.empty sampleScript = some l ∧
      (assessments (js "case_1") (l.flatMap Ended.asked)).length = 1 ∧
      ∀ a ∈ l.flatMap Ended.asked, ∀ c fee, a.entry.effect = .assessFee c fee →
        ∃ r, a.before.store c = some r ∧ FeeDue r fee := by
  obtain ⟨l, hrun, honce, -⟩ := sampleScript_settles
  obtain ⟨-, hdue⟩ := (fees_once_when_due hrun).1 (.reload []) [] [] _ _ rfl
  rw [List.append_nil] at hdue
  exact ⟨l, hrun, honce, hdue⟩

/-! ## The ledger and the store -/

/-- The fee of a case has been assessed, and its last transition is still to come. -/
def Settling (w : World) (c : Str) : Prop :=
  (∃ r, w.store c = some r ∧ r.state = .outcomePending) ∧ w.ledger c ≠ none

/-- Every case with a fee is in `VERIFIED_SUCCESS`, with a receipt and the savings of the fee. -/
def Agree (w : World) : Prop :=
  ∀ c s, w.ledger c = some s → ∃ r outcome, w.store c = some r ∧ r.state = .verifiedSuccess ∧
    r.receipt ≠ none ∧ r.outcome = some outcome ∧
    outcome.verifiedSavingsCents = some s.fee.verifiedSavingsCents

/-- A call keeps the agreement, unless the store fails on a case that is settling. -/
theorem Agree.step {w w' : World} {k : Call} {l : Log} (hw : Sound env w) (h : Agree w)
    (hends : CallEnds env w k l w')
    (hstore : ∀ a ∈ l, ∀ c, storeFails a = true → a.entry.effect.caseOf = some c →
      ¬Settling a.before c) : Agree w' := by
  have hkept : ∀ c s, w.ledger c = some s → ∃ r outcome, w'.store c = some r ∧
      r.state = .verifiedSuccess ∧ r.receipt ≠ none ∧ r.outcome = some outcome ∧
      outcome.verifiedSavingsCents = some s.fee.verifiedSavingsCents := by
    intro c s hs
    obtain ⟨r, outcome, hfound, hstate, hrest⟩ := h c s hs
    refine ⟨r, outcome, hends.kept hw hfound ?_, hstate, hrest⟩
    rw [hstate]
    decide
  rcases hends.concluded with ⟨hledger, -⟩ | ⟨c, r, hconcluded⟩
  · rw [Agree, hledger]
    exact hkept
  · intro c' s hs
    by_cases hc : c' = c
    · subst hc
      rcases hconcluded.settled with hsame | ⟨-, s', outcome, hs', houtcome, hverified⟩
      · exact hkept c' s (hsame ▸ hs)
      · rw [hs] at hs'
        cases hs'
        rcases hconcluded.confirmed with ⟨hstate, hreceipt⟩ | ⟨hstate, hfails⟩
        · exact ⟨r, outcome, hconcluded.stored, hstate, hreceipt, houtcome, hverified⟩
        · rcases hfails with ⟨a, ha, hfails, hbefore, hcase⟩ | ⟨hsame, -⟩
          · refine absurd ?_ (hstore a ha c' hfails hcase)
            rw [hbefore]
            exact ⟨⟨r, hconcluded.stored, hstate⟩, hs ▸ Option.some_ne_none s⟩
          · exact hkept c' s (hsame ▸ hs)
    · exact hkept c' s ((hconcluded.others c' hc).2 ▸ hs)

/-- **The ledger and the case store agree** after every sequence of calls in which the store does
not fail on a case whose fee has been assessed and whose last transition is still to come. -/
theorem ledger_agrees {script : List (Call × List Choice)} {l : List AgentEnded}
    (h : (agent env).runCalls World.empty script = some l)
    (hstore : ∀ e ∈ l, ∀ a ∈ e.asked, ∀ c, storeFails a = true →
      a.entry.effect.caseOf = some c → ¬Settling a.before c) :
    ∀ c s, (finalWorld World.empty l).ledger c = some s →
      ∃ r outcome, (finalWorld World.empty l).store c = some r ∧ r.state = .verifiedSuccess ∧
        r.receipt ≠ none ∧ r.outcome = some outcome ∧
        outcome.verifiedSavingsCents = some s.fee.verifiedSavingsCents := by
  refine runCalls_sound_invariant (I := fun l w => (∀ e ∈ l, ∀ a ∈ e.asked, ∀ c,
    storeFails a = true → a.entry.effect.caseOf = some c → ¬Settling a.before c) → Agree w)
    ?_ ?_ h hstore
  · intro _ c s hs
    cases hs
  · intro l e hagree hw hends _ hall
    have hbefore := hagree fun e' he' => hall e' (List.mem_append_left _ he')
    exact hbefore.step hw hends (hall e (List.mem_append_right _ (List.mem_singleton_self e)))

theorem ledger_agrees_sample :
    ∃ l s r, (agent samplePlatform).runCalls World.empty sampleScript = some l ∧
      (finalWorld World.empty l).ledger (js "case_1") = some s ∧
      (finalWorld World.empty l).store (js "case_1") = some r ∧ r.state = .verifiedSuccess := by
  obtain ⟨l, hrun, -, ⟨s, hs⟩, hstore⟩ := sampleScript_settles
  obtain ⟨r, outcome, hfound, hstate, -⟩ := ledger_agrees hrun (fun e he a ha c hfails => by
    rw [hstore e he a ha] at hfails
    cases hfails) _ s hs
  exact ⟨l, s, r, hrun, hs, hfound, hstate⟩

/-- The last transition of the sample case fails, after its fee was assessed. -/
def unconfirmedScript : List (Call × List Choice) :=
  [submitSample, approveSampleWith [sampleTime, .ok, sampleTime, .fail (.ofMessage (js "EIO"))]]

set_option maxRecDepth 10000 in
/-- When the last transition is not saved, a fee is owed by a case in `OUTCOME_PENDING` that has no
receipt. -/
theorem ledger_without_success :
    ∃ l s r, (agent samplePlatform).runCalls World.empty unconfirmedScript = some l ∧
      (finalWorld World.empty l).ledger (js "case_1") = some s ∧
      (finalWorld World.empty l).store (js "case_1") = some r ∧
      r.state = .outcomePending ∧ r.receipt = none := by
  have hany : (((agent samplePlatform).runCalls World.empty unconfirmedScript).any fun l =>
      ((finalWorld World.empty l).ledger (js "case_1")).isSome &&
        ((finalWorld World.empty l).store (js "case_1")).any fun r =>
          r.state == .outcomePending && r.receipt.isNone) = true := by decide +kernel
  obtain ⟨l, hrun, hl⟩ := (Option.any_eq_true _ _).mp hany
  obtain ⟨hledger, hstore⟩ := (Bool.and_eq_true _ _).mp hl
  obtain ⟨s, hs⟩ := Option.isSome_iff_exists.mp hledger
  obtain ⟨r, hfound, hr⟩ := (Option.any_eq_true _ _).mp hstore
  obtain ⟨hstate, hreceipt⟩ := (Bool.and_eq_true _ _).mp hr
  exact ⟨l, s, r, hrun, hs, hfound, eq_of_beq hstate, Option.isNone_iff_eq_none.mp hreceipt⟩

end Clawback
