import Clawback.Agent.Outcomes
import Clawback.Payments.Ledger

/-!
# Honest verdicts

What the state, the fee, the receipt and its label say about the provider's answer, in every
interleaving of calls and for every behaviour of the provider.

* `failed_iff_not_succeeded`: the evidence of an execution says that it failed exactly in
  `EXECUTION_FAILED`, unless the provider answers that there was no response.
* `unverified_never_successful`: savings that are not verified never end in a success, unless a
  positive claim comes without a confirmation.
* `fee_earned_iff`: a fee is earned exactly when the confirmation of a granted request names the
  amount.
* `environment_disclosed_honestly`: a receipt carries the label of its record, unless a case is
  approved under a provider of another source, or a provider answers under the name of another.
-/

namespace Clawback

open Js Async

variable {env : Platform}

/-! ## Answers and the calls they belong to -/

section Histories

variable {h : AgentHistory} {w : World} {t : Nat} {c : Str} {result : ProviderActionResult}

/-- Only an approval of the case gets an answer about it. -/
theorem approval_of_replied (hl : AgentLawful env h w) (hreplied : RepliedTo h t c result) :
    ∃ deps ownerId proposalId, .called t (.approveAndExecute deps c ownerId proposalId) ∈ h := by
  obtain ⟨request, hsent, rfl⟩ := hreplied
  obtain ⟨h₁, h₂, rfl⟩ := List.append_of_mem hsent
  obtain ⟨k, ch, w₁, w₂, -, hk, hsends, -, -⟩ := hl.split rfl
  cases hsends
  exact ⟨_, _, _, List.mem_append_left _ hk⟩

/-- A call gets one answer at most. -/
theorem replied_unique (hl : AgentLawful env h w) {c' : Str} {result' : ProviderActionResult}
    (hreplied : RepliedTo h t c result) (hreplied' : RepliedTo h t c' result') :
    result = result' := by
  obtain ⟨request, hsent, -⟩ := hreplied
  obtain ⟨request', hsent', -⟩ := hreplied'
  obtain ⟨h₁, h₂, heq⟩ := List.append_of_mem hsent
  obtain ⟨g₁, g₂, heq'⟩ := List.append_of_mem hsent'
  obtain ⟨k, ch, w₁, w₂, -, -, hsends, -, -⟩ := hl.split heq
  obtain ⟨k', ch', w₁', w₂', -, -, hsends', -, -⟩ := hl.split heq'
  rcases append_cases (heq.symm.trans heq') with ⟨-, hsame, -⟩ | hbefore | hbefore
  · cases hsame
    rfl
  · cases hsends' with
    | mk _ _ _ _ _ hunsent => exact absurd rfl (hunsent _ (mem_own.mpr hbefore) request)
  · cases hsends with
    | mk _ _ _ _ _ hunsent => exact absurd rfl (hunsent _ (mem_own.mpr hbefore) request')

/-- Call `t` has uploaded the receipt or stored it on a case. -/
def ReceiptBy (h : AgentHistory) (t : Nat) (v : ClawbackReceipt) : Prop :=
  (∃ r, .did t ⟨.save r, .ok ()⟩ ∈ h ∧ r.receipt = some v) ∨
    ∃ stored, .did t ⟨.uploadJson v, stored⟩ ∈ h

/-- No event leads out of `VERIFIED_SUCCESS`. -/
theorem Moved.source_ne_success {event : CaseEvent} {patch : CasePatch} {r r' : CaseRecord}
    (hmoved : Moved event patch r r') : r.state ≠ .verifiedSuccess := by
  obtain ⟨next, updatedAt, hnext, -⟩ := hmoved
  intro hstate
  rw [hstate] at hnext
  exact applyTransition_terminal rfl hnext

/-- The receipts of a call are built after the answer that it has got. -/
theorem receiptOf_of_receiptBy (hl : AgentLawful env h w) (hl' : ReportLawful env h w)
    {deps : OrchestratorDeps} {ownerId proposalId : Str}
    (hk : .called t (.approveAndExecute deps c ownerId proposalId) ∈ h) {v : ClawbackReceipt}
    (hv : ReceiptBy h t v) (hreplied : RepliedTo h t c result) : ReceiptOf deps result v := by
  rcases hv with ⟨r', hsaved, hr'⟩ | ⟨stored, hupload⟩
  · obtain ⟨k, event, patch, r, hfrom⟩ := reportedFrom_of_save hl' hsaved
    obtain rfl := hl'.called_unique hk hfrom.called
    obtain ⟨u, hst⟩ := hfrom.stored
    have hmoved := hfrom.moved
    have hblank : r.receipt = none :=
      (consistent_of_stored hl hst).receipt.mpr hmoved.source_ne_success
    have hreports := hfrom.reports
    obtain ⟨next, updatedAt, -, rfl⟩ := hmoved
    generalize r.caseId = caseId at hreports
    cases hreports with
    | confirm hreplied' _ hreceipt =>
      cases hr'
      rwa [replied_unique hl hreplied (replied_own.mp hreplied')]
    | _ => cases hblank.symm.trans hr'
  · obtain ⟨h₁, h₂, rfl⟩ := List.append_of_mem hupload
    obtain ⟨k, ch, w₁, w₂, hl₁, hk', hreporting, -, -⟩ := hl'.split rfl
    obtain rfl := hl'.called_unique hk (List.mem_append_left _ hk')
    obtain ⟨result', hreplied', hreceipt⟩ := hreporting
    have hsub := own_subset (List.subset_append_left h₁ (.did t ⟨.uploadJson v, stored⟩ :: h₂)) t
    rwa [replied_unique hl hreplied (replied_own.mp (hreplied'.mono hsub))]

end Histories

/-! ## Sample runs -/

/-- The sample case is approved under some dependencies, and the provider answers. -/
def answeredBy (deps : OrchestratorDeps) (result : ProviderActionResult) (last : List Choice) :
    List (Move Call Choice) :=
  sampleSubmission ++
    .call (.approveAndExecute deps (js "case_1") (js "user_1") (js "proposal_2")) ::
      ([.ok, sampleTime, .ok, sampleTime, .ok, .ok, sampleTime, .ok, .sent result] ++
        last).map (.step 1)

/-- The record ends with a fee, or without one. -/
def withFee : List Choice :=
  [sampleTime, .ok, sampleTime, .ok, .text (js "4"), sampleTime, sampleTime, .ok, sampleTime, .ok]

def withoutFee : List Choice :=
  [sampleTime, .ok, sampleTime, .ok, .text (js "4"), sampleTime, .ok, sampleTime, .ok]

/-- A refund whose confirmation names the amount. -/
def namedRefund : ProviderActionResult :=
  ⟨.refundIssued, some (js "Refund of $19.99 issued."), 1999, .sandbox⟩

/-- All that is done is done in the sandbox. -/
def sandboxOnly : Event Call Effect Effect.Answer JsError → Bool
  | .called _ (.approveAndExecute deps _ _ _) => deps.source == .sandbox
  | .did _ ⟨.create r, _⟩ => r.environment == .sandbox
  | .did _ ⟨.save r, _⟩ => r.environment == .sandbox
  | _ => true

/-- An approval in the second call, and a fee it assesses. -/
def approves : Event Call Effect Effect.Answer JsError → Bool
  | .called 1 (.approveAndExecute _ _ _ _) => true
  | _ => false

def charges : Event Call Effect Effect.Answer JsError → Bool
  | .did 1 ⟨.assessFee _ _, _⟩ => true
  | _ => false

theorem called_of_approves {h : AgentHistory} (hany : h.any approves = true) :
    ∃ deps caseId ownerId proposalId,
      .called 1 (.approveAndExecute deps caseId ownerId proposalId) ∈ h := by
  obtain ⟨ev, hmem, hev⟩ := List.any_eq_true.mp hany
  unfold approves at hev
  split at hev
  · exact ⟨_, _, _, _, hmem⟩
  · cases hev

theorem assessed_of_charges {h : AgentHistory} (hany : h.any charges = true) :
    ∃ c fee settled, .did 1 ⟨.assessFee c fee, settled⟩ ∈ h := by
  obtain ⟨ev, hmem, hev⟩ := List.any_eq_true.mp hany
  unfold charges at hev
  split at hev
  · exact ⟨_, _, _, hmem⟩
  · cases hev

set_option maxRecDepth 10000 in
/-- A run in which the provider answers honestly. -/
theorem honest_run :
    ∃ p t r, (agent samplePlatform).run (Pool.init World.empty)
        (answeredBy sampleDeps namedRefund withFee) = some p ∧
      ((∀ result ∈ replies p.history, result = namedRefund) ∧
        (∀ ev ∈ p.history, sandboxOnly ev = true) ∧ p.history.any approves = true ∧
        p.history.any charges = true) ∧
      Stored p.history t r ∧ r.state = .verifiedSuccess ∧ r.execution ≠ none ∧
      r.receipt ≠ none := by
  obtain ⟨p, t, r, hrun, hhistory, hst, hr⟩ := stored_of_any
    (answeredBy sampleDeps namedRefund withFee)
    (fun h => (replies h).all (· == namedRefund) && h.all sandboxOnly &&
      h.any approves && h.any charges)
    (fun r => r.state == .verifiedSuccess && r.execution.isSome && r.receipt.isSome)
    (by decide +kernel)
  simp only [Bool.and_eq_true, List.all_eq_true, beq_iff_eq, Option.isSome_iff_ne_none]
    at hhistory hr
  obtain ⟨⟨⟨hreplies, hsandbox⟩, happroves⟩, hcharges⟩ := hhistory
  obtain ⟨⟨hstate, hexecution⟩, hreceipt⟩ := hr
  exact ⟨p, t, r, hrun, ⟨hreplies, hsandbox, happroves, hcharges⟩, hst, hstate, hexecution,
    hreceipt⟩

section Runs

variable {moves : List (Move Call Choice)}
  {p : Pool Call Effect Effect.Answer JsError World CallResult} {t : Nat} {r : CaseRecord}

/-! ## Failed executions -/

/-- The evidence of the execution says that it failed exactly when the case is in
`EXECUTION_FAILED`. -/
def FailureRecorded (r : CaseRecord) : Prop :=
  ∀ execution, r.execution = some execution →
    (r.state = .executionFailed ↔ execution.succeeded = false)

theorem Moved.source_ne_failed {event : CaseEvent} {patch : CasePatch} {r r' : CaseRecord}
    (hmoved : Moved event patch r r') : r.state ≠ .executionFailed := by
  obtain ⟨next, updatedAt, hnext, -⟩ := hmoved
  intro hstate
  rw [hstate] at hnext
  exact applyTransition_terminal rfl hnext

/-- A transition to another state that leaves the evidence as it is. -/
theorem FailureRecorded.kept {r r' : CaseRecord} {event : CaseEvent} {patch : CasePatch}
    (h : FailureRecorded r) (hmoved : Moved event patch r r')
    (hsame : r'.execution = r.execution) (hevent : event.target ≠ .executionFailed) :
    FailureRecorded r' := by
  intro execution hexecution
  rw [hsame] at hexecution
  refine iff_of_false (hmoved.target ▸ hevent) fun hfailed => ?_
  exact hmoved.source_ne_failed ((h execution hexecution).mpr hfailed)

theorem ReportedFrom.failureRecorded {h : AgentHistory} {k : Call} {event : CaseEvent}
    {patch : CasePatch} {r r' : CaseRecord} (hr : ReportedFrom h t k event patch r r')
    (hresponse : ∀ result ∈ replies h, result.outcomeType ≠ .noResponse)
    (hbefore : FailureRecorded r) : FailureRecorded r' := by
  have hmoved := hr.moved
  have htarget := hmoved.target
  obtain ⟨next, updatedAt, -, heq⟩ := hr.moved
  cases hr.reports with
  | keep hevent =>
    refine hbefore.kept hmoved (by rw [heq]; rfl) ?_
    revert hevent
    cases event <;> decide
  | propose hsucceeded =>
    intro execution hexecution
    rw [heq] at hexecution
    cases hexecution
    rw [htarget, hsucceeded]
    decide
  | approve => exact hbefore.kept hmoved (by rw [heq]; rfl) (by decide)
  | fail =>
    intro execution hexecution
    rw [heq] at hexecution
    obtain ⟨before, -, rfl⟩ := Option.map_eq_some_iff.mp hexecution
    exact iff_of_true htarget rfl
  | answer hreplied hevent =>
    have hno := hresponse _ (replied_own.mp hreplied).mem_replies
    refine hbefore.kept hmoved (by rw [heq]; rfl) ?_
    rw [hevent, outcomeEvent, if_neg (show ¬ (outcomeOf _ _ _).outcomeType = _ from hno)]
    decide
  | confirm _ _ _ => exact hbefore.kept hmoved (by rw [heq]; rfl) (by decide)

/-- If the provider never answers that there was no response, the evidence of an execution says
that it failed exactly in `EXECUTION_FAILED`. -/
theorem failed_iff_not_succeeded
    (hrun : (agent env).run (Pool.init World.empty) moves = some p)
    (hresponse : ∀ result ∈ replies p.history, result.outcomeType ≠ .noResponse)
    (hst : Stored p.history t r) {execution : ExecutionEvidence}
    (hexecution : r.execution = some execution) :
    r.state = .executionFailed ↔ execution.succeeded = false := by
  have hl := (System.run_lawful start_reporting hrun).lawful
  refine reported_induction (I := FailureRecorded) hl ?_ ?_ hst execution hexecution
  · intro caseId ownerId encryptedInput environment startedAt execution hexecution
    cases hexecution
  · intro u k event patch r r' hr hbefore
    exact hr.failureRecorded hresponse hbefore

/-- The sample case is approved, and the provider cannot be reached. -/
def unreachedProvider : List (Move Call Choice) :=
  sampleSubmission ++ .call approveSample ::
    [.ok, sampleTime, .ok, sampleTime, .ok, .ok, sampleTime, .ok,
      .fail (.ofMessage (js "provider is down")), .ok, sampleTime, .ok].map (.step 1)

set_option maxRecDepth 10000 in
theorem failed_iff_not_succeeded_sample :
    ∃ p t r execution,
      (agent samplePlatform).run (Pool.init World.empty) unreachedProvider = some p ∧
      Stored p.history t r ∧ r.state = .executionFailed ∧ r.execution = some execution ∧
      execution.succeeded = false := by
  obtain ⟨p, t, r, hrun, hreplies, hst, hr⟩ := stored_of_any unreachedProvider
    (fun h => (replies h).isEmpty) (fun r => r.state == .executionFailed && r.execution.isSome)
    (by decide +kernel)
  obtain ⟨hstate, hexecution⟩ := (Bool.and_eq_true _ _).mp hr
  obtain ⟨execution, hexecution⟩ := Option.isSome_iff_exists.mp hexecution
  have hstate := eq_of_beq hstate
  refine ⟨p, t, r, execution, hrun, hst, hstate, hexecution, ?_⟩
  apply (failed_iff_not_succeeded hrun _ hst hexecution).mp hstate
  intro result hresult
  rw [List.isEmpty_iff.mp hreplies] at hresult
  cases hresult

set_option maxRecDepth 10000 in
/-- The provider answers that there was no response: the case is in `EXECUTION_FAILED`, and the
evidence says that the execution has succeeded. -/
theorem failure_not_recorded :
    ∃ p t r execution, (agent samplePlatform).run (Pool.init World.empty) (answeredBy sampleDeps
        ⟨.noResponse, none, 0, .sandbox⟩ [sampleTime, .ok, sampleTime, .ok]) = some p ∧
      Stored p.history t r ∧ r.execution = some execution ∧
      ¬ (r.state = .executionFailed ↔ execution.succeeded = false) := by
  obtain ⟨p, t, r, hrun, -, hst, hr⟩ := stored_of_any
    (answeredBy sampleDeps ⟨.noResponse, none, 0, .sandbox⟩
      [sampleTime, .ok, sampleTime, .ok])
    (fun _ => true)
    (fun r => r.state == .executionFailed && r.execution.any (·.succeeded))
    (by decide +kernel)
  obtain ⟨hstate, hexecution⟩ := (Bool.and_eq_true _ _).mp hr
  obtain ⟨execution, hexecution, hsucceeded⟩ := (Option.any_eq_true _ _).mp hexecution
  refine ⟨p, t, r, execution, hrun, hst, hexecution, fun hiff => ?_⟩
  rw [hiff.mp (eq_of_beq hstate)] at hsucceeded
  cases hsucceeded

/-! ## Savings that are not verified -/

/-- The answer claims nothing, or confirms what it claims. -/
def ProviderActionResult.corroborated (result : ProviderActionResult) : Bool :=
  decide (result.claimedSavingsCents ≤ 0) ||
    result.counterpartyConfirmation.any fun confirmation => !confirmation.isEmpty

theorem verifyClaimedSavings_eq_none_iff (result : ProviderActionResult) :
    verifyClaimedSavings result = none ↔ result.corroborated = false := by
  unfold verifyClaimedSavings ProviderActionResult.corroborated
  by_cases hclaimed : result.claimedSavingsCents ≤ 0
  · simp [hclaimed]
  · cases result.counterpartyConfirmation with
    | none => simp [hclaimed]
    | some confirmation => by_cases hempty : confirmation = [] <;> simp [hclaimed, hempty]

/-- An outcome whose savings are not verified stands in `EXECUTION_FAILED`, if the answers with a
response are corroborated. -/
theorem failed_of_unverified (hl : AgentLawful env p.history p.world)
    (hl' : ReportLawful env p.history p.world)
    (hcorroborated : ∀ result ∈ replies p.history,
      result.outcomeType = .noResponse ∨ result.corroborated = true)
    (hst : Stored p.history t r) {outcome : OutcomeEvidence} (ho : r.outcome = some outcome)
    (hnone : outcome.verifiedSavingsCents = none) :
    r.state = .executionFailed ∧ r.receipt = none := by
  obtain ⟨u, result, recordedAt, hreplied, rfl⟩ := outcome_of_stored hl' hst ho
  have hconsistent := consistent_of_stored hl hst
  have hbare := (verifyClaimedSavings_eq_none_iff result).mp hnone
  have hno : result.outcomeType = .noResponse := by
    refine (hcorroborated result hreplied.mem_replies).resolve_right fun htrue => ?_
    exact Bool.false_ne_true (hbare.symm.trans htrue)
  have hunanswered : r.state ∉ answeredStates := by
    intro hanswered
    obtain ⟨outcome, hsome, htype⟩ := hconsistent.answered hanswered
    rw [ho] at hsome
    cases hsome
    exact htype hno
  have hfailed : r.state = .executionFailed := by
    by_contra hne
    rw [hconsistent.unanswered hunanswered hne] at ho
    cases ho
  refine ⟨hfailed, hconsistent.receipt.mpr ?_⟩
  rw [hfailed]
  decide

/-- If every answer with a response is corroborated, then savings that are not verified end in
`EXECUTION_FAILED` and without a receipt, and every success has verified savings; if all answers
are corroborated, then there are no savings that are not verified. -/
theorem unverified_never_successful
    (hrun : (agent env).run (Pool.init World.empty) moves = some p)
    (hst : Stored p.history t r) :
    ((∀ result ∈ replies p.history,
        result.outcomeType = .noResponse ∨ result.corroborated = true) →
      (∀ outcome, r.outcome = some outcome → outcome.verifiedSavingsCents = none →
        r.state = .executionFailed ∧ r.receipt = none) ∧
      (r.state = .verifiedSuccess → ∃ outcome savings, r.outcome = some outcome ∧
        outcome.verifiedSavingsCents = some savings)) ∧
    ((∀ result ∈ replies p.history, result.corroborated = true) →
      ∀ outcome, r.outcome = some outcome → outcome.verifiedSavingsCents ≠ none) := by
  have hl := (System.run_lawful start_obeys hrun).lawful
  have hl' := (System.run_lawful start_reporting hrun).lawful
  refine ⟨fun hcorroborated => ?_, fun hcorroborated outcome ho hnone => ?_⟩
  · have hfailed := fun outcome (ho : r.outcome = some outcome) =>
      failed_of_unverified hl hl' hcorroborated hst ho
    refine ⟨hfailed, fun hsuccess => ?_⟩
    have hanswered : r.state ∈ answeredStates := by
      rw [hsuccess]
      decide
    obtain ⟨outcome, ho, -⟩ := (consistent_of_stored hl hst).answered hanswered
    have hverified : outcome.verifiedSavingsCents ≠ none := by
      intro hnone
      have hstate := (hfailed outcome ho hnone).1
      rw [hsuccess] at hstate
      cases hstate
    obtain ⟨savings, hsavings⟩ := Option.ne_none_iff_exists'.mp hverified
    exact ⟨outcome, savings, ho, hsavings⟩
  · obtain ⟨u, result, recordedAt, hreplied, rfl⟩ := outcome_of_stored hl' hst ho
    have hbare := (verifyClaimedSavings_eq_none_iff result).mp hnone
    exact Bool.false_ne_true (hbare.symm.trans (hcorroborated result hreplied.mem_replies))

theorem unverified_never_successful_sample :
    ∃ p t r outcome savings, (agent samplePlatform).run (Pool.init World.empty)
        (answeredBy sampleDeps namedRefund withFee) = some p ∧
      Stored p.history t r ∧ r.outcome = some outcome ∧
      outcome.verifiedSavingsCents = some savings := by
  obtain ⟨p, t, r, hrun, ⟨hreplies, -⟩, hst, hstate, -⟩ := honest_run
  obtain ⟨-, hsuccess⟩ := (unverified_never_successful hrun hst).1 fun result hresult =>
    .inr (by rw [hreplies result hresult]; decide)
  obtain ⟨outcome, savings, ho, hsavings⟩ := hsuccess hstate
  exact ⟨p, t, r, outcome, savings, hrun, hst, ho, hsavings⟩

set_option maxRecDepth 10000 in
/-- A cancellation with a positive claim and no confirmation: the case ends in `VERIFIED_SUCCESS`
with a successful receipt, and its savings are not verified. -/
theorem unverified_success :
    ∃ p t r outcome v, (agent samplePlatform).run (Pool.init World.empty) (answeredBy sampleDeps
        ⟨.cancelled, none, 1999, .sandbox⟩ withoutFee) = some p ∧
      Stored p.history t r ∧ r.outcome = some outcome ∧ r.receipt = some v ∧
      outcome.verifiedSavingsCents = none ∧ r.state = .verifiedSuccess ∧
      v.status = .successful := by
  obtain ⟨p, t, r, hrun, -, hst, hr⟩ := stored_of_any
    (answeredBy sampleDeps ⟨.cancelled, none, 1999, .sandbox⟩ withoutFee)
    (fun _ => true)
    (fun r => r.state == .verifiedSuccess && r.receipt.any (·.status == .successful) &&
      r.outcome.any (·.verifiedSavingsCents == none))
    (by decide +kernel)
  obtain ⟨hsuccess, houtcome⟩ := (Bool.and_eq_true _ _).mp hr
  obtain ⟨hstate, hreceipt⟩ := (Bool.and_eq_true _ _).mp hsuccess
  obtain ⟨v, hv, hstatus⟩ := (Option.any_eq_true _ _).mp hreceipt
  obtain ⟨outcome, ho, hnone⟩ := (Option.any_eq_true _ _).mp houtcome
  exact ⟨p, t, r, outcome, v, hrun, hst, ho, hv, eq_of_beq hnone, eq_of_beq hstate,
    eq_of_beq hstatus⟩

/-! ## Fees -/

/-- A positive claim that comes with a confirmation is no refusal, and the confirmation names the
amount. -/
def ProviderActionResult.substantiated (result : ProviderActionResult) : Bool :=
  decide (result.claimedSavingsCents ≤ 0) ||
    result.counterpartyConfirmation.all fun confirmation => confirmation.isEmpty ||
      (result.outcomeType != .declined && namesAmount confirmation result.claimedSavingsCents)

/-- The request was granted, the confirmation names the amount that is claimed, and the receipts
of the call are successful. -/
structure Earned (h : AgentHistory) (t : Nat) (result : ProviderActionResult) : Prop where
  granted : result.Granted
  named : ∃ confirmation, result.counterpartyConfirmation = some confirmation ∧
    namesAmount confirmation result.claimedSavingsCents = true
  receipts : ∀ v, ReceiptBy h t v → v.status = .successful

theorem granted_iff {result : ProviderActionResult} (h : result.outcomeType ≠ .noResponse) :
    result.Granted ↔ result.outcomeType ≠ .declined := by
  unfold ProviderActionResult.Granted
  cases htype : result.outcomeType <;> simp_all

/-- With a positive claim and a confirmation, an answer is substantiated if it is no refusal and
the confirmation names the amount. -/
theorem substantiated_iff {result : ProviderActionResult} {confirmation : Str}
    (hclaimed : 0 < result.claimedSavingsCents)
    (hconfirmation : result.counterpartyConfirmation = some confirmation)
    (hne : confirmation ≠ []) : result.substantiated = true ↔
      result.outcomeType ≠ .declined ∧
        namesAmount confirmation result.claimedSavingsCents = true := by
  have hpos : ¬ result.claimedSavingsCents ≤ 0 := not_le.mpr hclaimed
  simp [ProviderActionResult.substantiated, hpos, hconfirmation, hne]

/-- A fee is earned exactly when the answer is substantiated; and if all answers are, then savings
are verified only by a confirmation that names the amount. -/
theorem fee_earned_iff (hrun : (agent env).run (Pool.init World.empty) moves = some p) :
    (∀ t deps caseId ownerId proposalId c fee settled,
      .called t (.approveAndExecute deps caseId ownerId proposalId) ∈ p.history →
      .did t ⟨.assessFee c fee, settled⟩ ∈ p.history →
      c = caseId ∧ ∃ result, RepliedTo p.history t caseId result ∧
        computeFee (some result.claimedSavingsCents) defaultFeeBps = .ok fee ∧
        (Earned p.history t result ↔ result.substantiated = true)) ∧
    ((∀ result ∈ replies p.history, result.substantiated = true) →
      ∀ t r outcome savings, Stored p.history t r → r.outcome = some outcome →
        outcome.verifiedSavingsCents = some savings → 0 < savings →
        ∃ confirmation, outcome.counterpartyConfirmation = some confirmation ∧
          namesAmount confirmation savings = true) := by
  have hl := (System.run_lawful start_obeys hrun).lawful
  have hl' := (System.run_lawful start_reporting hrun).lawful
  constructor
  · intro t deps caseId ownerId proposalId c fee settled hk hfee
    obtain ⟨hc, result, hreplied, hresponse, hverified, hclaimed, hcomputed⟩ :=
      fee_of_assessed hl' hk hfee
    obtain ⟨-, confirmation, hconfirmation, hne⟩ := verifyClaimedSavings_pos hverified hclaimed
    refine ⟨hc, result, hreplied, hcomputed, ?_⟩
    rw [substantiated_iff hclaimed hconfirmation hne]
    constructor
    · rintro ⟨hgranted, ⟨confirmation', hconfirmation', hnamed⟩, -⟩
      obtain rfl := Option.some.inj (hconfirmation.symm.trans hconfirmation')
      exact ⟨(granted_iff hresponse).mp hgranted, hnamed⟩
    · rintro ⟨hdeclined, hnamed⟩
      have hgranted := (granted_iff hresponse).mpr hdeclined
      refine ⟨hgranted, ⟨confirmation, hconfirmation, hnamed⟩, fun v hv => ?_⟩
      exact (receiptOf_of_receiptBy hl hl' hk hv hreplied).status.mpr hgranted
  · intro hsubstantiated t r outcome savings hst ho hsavings hpos
    obtain ⟨u, result, recordedAt, hreplied, rfl⟩ := outcome_of_stored hl' hst ho
    obtain ⟨rfl, confirmation, hconfirmation, hne⟩ := verifyClaimedSavings_pos hsavings hpos
    have hall := hsubstantiated result hreplied.mem_replies
    exact ⟨confirmation, hconfirmation, ((substantiated_iff hpos hconfirmation hne).mp hall).2⟩

theorem fee_earned_iff_sample :
    ∃ p result, (agent samplePlatform).run (Pool.init World.empty)
        (answeredBy sampleDeps namedRefund withFee) = some p ∧
      Earned p.history 1 result := by
  obtain ⟨p, t, r, hrun, ⟨hreplies, -, happroves, hcharges⟩, -⟩ := honest_run
  obtain ⟨deps, caseId, ownerId, proposalId, hk⟩ := called_of_approves happroves
  obtain ⟨c, fee, settled, hfee⟩ := assessed_of_charges hcharges
  obtain ⟨-, result, hreplied, -, hearned⟩ := (fee_earned_iff hrun).1 _ _ _ _ _ _ _ _ hk hfee
  refine ⟨p, result, hrun, hearned.mpr ?_⟩
  rw [hreplies result hreplied.mem_replies]
  decide

set_option maxRecDepth 10000 in
/-- The request is declined in so many words: a fee is assessed, the receipt is not successful, and
the text names no amount. -/
theorem refusal_charged :
    ∃ p t r outcome v confirmation, (agent samplePlatform).run (Pool.init World.empty)
        (answeredBy sampleDeps ⟨.declined, some (js "Declined."), 1999, .sandbox⟩ withFee) =
          some p ∧
      (∃ c fee settled, .did 1 ⟨.assessFee c fee, settled⟩ ∈ p.history) ∧
      Stored p.history t r ∧ r.outcome = some outcome ∧ r.receipt = some v ∧
      v.status ≠ .successful ∧ outcome.counterpartyConfirmation = some confirmation ∧
      namesAmount confirmation outcome.claimedSavingsCents = false := by
  obtain ⟨p, t, r, hrun, hcharges, hst, hr⟩ := stored_of_any
    (answeredBy sampleDeps ⟨.declined, some (js "Declined."), 1999, .sandbox⟩ withFee)
    (fun h => h.any charges)
    (fun r => r.receipt.any (·.status != .successful) && r.outcome.any fun outcome =>
      outcome.counterpartyConfirmation.any fun confirmation =>
        !namesAmount confirmation outcome.claimedSavingsCents)
    (by decide +kernel)
  obtain ⟨hreceipt, houtcome⟩ := (Bool.and_eq_true _ _).mp hr
  obtain ⟨v, hv, hstatus⟩ := (Option.any_eq_true _ _).mp hreceipt
  obtain ⟨outcome, ho, hbare⟩ := (Option.any_eq_true _ _).mp houtcome
  obtain ⟨confirmation, hconfirmation, hnamed⟩ := (Option.any_eq_true _ _).mp hbare
  exact ⟨p, t, r, outcome, v, confirmation, hrun, assessed_of_charges hcharges, hst, ho, hv,
    ne_of_beq_false ((Bool.not_eq_true' _).mp hstatus), hconfirmation,
    (Bool.not_eq_true' _).mp hnamed⟩

/-- The call of the ledger that an entry of the history stands for. -/
def ledgerCall? : Event Call Effect Effect.Answer JsError → Option LedgerCall
  | .did _ ⟨.assessFee c fee, .ok record⟩ => some (.assessFee c fee record.assessedAt)
  | _ => none

theorem ledger_of_exec {e : Effect} {ch : Choice} {w w' : World} {answer : Except JsError e.Answer}
    (hexec : exec e ch w = some (answer, w')) (t : Nat) :
    w'.ledger = ledgerAfter w.ledger (ledgerCall? (.did t ⟨e, answer⟩)).toList := by
  cases e with
  | assessFee c fee =>
    obtain ⟨x, rfl, rfl⟩ | ⟨time, rfl, rfl⟩ := exec_assessFee hexec
    · rfl
    · rfl
  | _ => cases answered_of_exec hexec <;> rfl

theorem ledgerCall?_eq_some {ev : Event Call Effect Effect.Answer JsError} {call : LedgerCall}
    (h : ledgerCall? ev = some call) : ∃ c fee now, call = .assessFee c fee now := by
  unfold ledgerCall? at h
  split at h
  · cases h
    exact ⟨_, _, _, rfl⟩
  · cases h

/-- The ledger of a run is the one that its assessments lead to. -/
theorem ledger_of_lawful {h : AgentHistory} {w : World} (hl : ReportLawful env h w) :
    w.ledger = ledgerAfter Ledger.empty (h.filterMap ledgerCall?) := by
  induction hl with
  | nil => rfl
  | called _ _ ih =>
    rw [List.filterMap_append, ih]
    exact congrArg _ (List.append_nil _).symm
  | @did h w w' t k e ch answer _ _ _ hexec ih =>
    have hlast : [Event.did t ⟨e, answer⟩].filterMap ledgerCall? =
        (ledgerCall? (.did t ⟨e, answer⟩)).toList := by
      cases hcall : ledgerCall? (.did t ⟨e, answer⟩) <;> simp [hcall]
    rw [ledger_of_exec hexec t, ih, List.filterMap_append, hlast, ledgerAfter, ledgerAfter,
      ← List.foldl_append]
    rfl

/-- Nothing in the ledger of a run is collected: the agent itself never sets a settlement back. -/
theorem status_ne_of_lawful {h : AgentHistory} {w : World} (hl : ReportLawful env h w) {c : Str}
    {record : SettlementRecord} (hrecord : w.ledger c = some record) :
    record.status ≠ .collected := by
  rw [ledger_of_lawful hl] at hrecord
  refine status_ne_of_assessments (fun call hcall => ?_) hrecord
  obtain ⟨ev, -, hev⟩ := List.mem_filterMap.mp hcall
  exact ledgerCall?_eq_some hev

/-! ## The label of a receipt -/

/-- Whoever answers for a case has the source that its record discloses, and answers of the
sandbox come from a provider of the sandbox. -/
def HonestlySourced (h : AgentHistory) : Prop :=
  ∀ t deps caseId ownerId proposalId result,
    .called t (.approveAndExecute deps caseId ownerId proposalId) ∈ h →
    RepliedTo h t caseId result → result.outcomeType ≠ .noResponse →
    (∀ u r, Stored h u r → r.caseId = caseId → deps.source = r.environment) ∧
      (result.source = .sandbox → deps.source = .sandbox)

/-- If all answers are honestly sourced, a receipt is labelled as its record is, and it is labelled
as one of the sandbox if an answer about the case is. -/
theorem environment_disclosed_honestly
    (hrun : (agent env).run (Pool.init World.empty) moves = some p)
    (hsourced : HonestlySourced p.history) (hst : Stored p.history t r) {v : ClawbackReceipt}
    (hv : r.receipt = some v) :
    v.environment = r.environment ∧ ∀ u result, RepliedTo p.history u r.caseId result →
      result.outcomeType ≠ .noResponse → result.source = .sandbox → v.environment = .sandbox := by
  have hl := (System.run_lawful start_obeys hrun).lawful
  have hl' := (System.run_lawful start_reporting hrun).lawful
  obtain ⟨u, deps, ownerId, proposalId, result, hk, hreplied, hresponse, hreceipt⟩ :=
    receipt_of_stored hl' hst hv
  have hlabel : v.environment = r.environment :=
    hreceipt.environment.trans ((hsourced _ _ _ _ _ _ hk hreplied hresponse).1 t r hst rfl)
  refine ⟨hlabel, fun u' result' hreplied' hresponse' hsandbox => ?_⟩
  obtain ⟨deps', ownerId', proposalId', hk'⟩ := approval_of_replied hl hreplied'
  obtain ⟨hrecord, hprovider⟩ := hsourced _ _ _ _ _ _ hk' hreplied' hresponse'
  rw [hlabel, ← hrecord t r hst rfl]
  exact hprovider hsandbox

theorem environment_disclosed_honestly_sample :
    ∃ p t r v, (agent samplePlatform).run (Pool.init World.empty)
        (answeredBy sampleDeps namedRefund withFee) = some p ∧
      Stored p.history t r ∧ r.receipt = some v ∧ v.environment = r.environment := by
  obtain ⟨p, t, r, hrun, ⟨-, hsandbox, -⟩, hst, -, -, hreceipt⟩ := honest_run
  obtain ⟨v, hv⟩ := Option.ne_none_iff_exists'.mp hreceipt
  have hsourced : HonestlySourced p.history := by
    intro u deps caseId ownerId proposalId result hk _ _
    have hdeps : deps.source = .sandbox := eq_of_beq (hsandbox _ hk)
    refine ⟨fun u' r' hst' _ => hdeps.trans ?_, fun _ => hdeps⟩
    rcases hst' with hcreated | hsaved
    · exact (eq_of_beq (hsandbox _ hcreated)).symm
    · exact (eq_of_beq (hsandbox _ hsaved)).symm
  exact ⟨p, t, r, v, hrun, hst, hv, (environment_disclosed_honestly hrun hsourced hst hv).1⟩

set_option maxRecDepth 10000 in
/-- A case of the sandbox is approved under a live provider that hands on an answer of the sandbox:
the receipt is labelled as live, the record as one of the sandbox. -/
theorem sandbox_shown_as_live :
    ∃ p t r v, (agent samplePlatform).run (Pool.init World.empty)
        (answeredBy { sampleDeps with source := .live } namedRefund withFee) = some p ∧
      (∀ result ∈ replies p.history, result.source = .sandbox) ∧ Stored p.history t r ∧
      r.receipt = some v ∧ v.environment = .live ∧ r.environment = .sandbox := by
  obtain ⟨p, t, r, hrun, hreplies, hst, hr⟩ := stored_of_any
    (answeredBy { sampleDeps with source := .live } namedRefund withFee)
    (fun h => (replies h).all (·.source == .sandbox))
    (fun r => r.environment == .sandbox && r.receipt.any (·.environment == .live))
    (by decide +kernel)
  obtain ⟨hrecord, hreceipt⟩ := (Bool.and_eq_true _ _).mp hr
  obtain ⟨v, hv, hlive⟩ := (Option.any_eq_true _ _).mp hreceipt
  refine ⟨p, t, r, v, hrun, fun result hresult => ?_, hst, hv, eq_of_beq hlive,
    eq_of_beq hrecord⟩
  exact eq_of_beq (List.all_eq_true.mp hreplies result hresult)

end Runs

end Clawback
