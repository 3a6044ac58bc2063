import Clawback.Agent.Runs
import Clawback.Agent.Submission

/-!
# An approval that runs alone

What `approveAndExecute` asks and stores when no other call interferes.

* `FeeDue`: what has to be stored of a case when a fee is assessed.
* `Executes`: how an approval ends, with all that it has asked and the world it leaves.
* `ensures_approveAndExecute`: an approval ends in one of these ways, and assesses a fee only
  when it is due.
-/

namespace Clawback

open Js Async

variable {env : Platform}

/-! ## Fees -/

/-- The fee that is due for a case whose record is `r`: it is that of positive savings, which
the counterparty has confirmed. -/
structure FeeDue (r : CaseRecord) (fee : FeeCalculation) : Prop where
  state : r.state = .outcomePending
  approval : r.approval ≠ none
  savings : ∃ outcome v, r.outcome = some outcome ∧ outcome.outcomeType ≠ .noResponse ∧
    outcome.verifiedSavingsCents = some v ∧ 0 < v ∧ outcome.claimedSavingsCents = v ∧
    (∃ confirmation, outcome.counterpartyConfirmation = some confirmation ∧ confirmation ≠ []) ∧
    computeFee (some v) defaultFeeBps = .ok fee

/-- A call that has started in the world `w₀` assesses a fee when it is due, once, and for a case
that was awaiting approval. -/
def Owed (w₀ : World) (l : Log) (w : World) : Effect → Prop
  | .assessFee c fee => (∃ r, w.store c = some r ∧ FeeDue r fee) ∧
    (∀ a ∈ l, a.entry.effect.isFee = false) ∧
    ∃ r, w₀.store c = some r ∧ r.state = .awaitingApproval
  | _ => True

theorem owed_of_isFee {w₀ : World} {l : Log} {w : World} {e : Effect} (h : e.isFee = false) :
    Owed w₀ l w e := by
  cases e with
  | assessFee c fee => cases h
  | _ => trivial

/-- The world after a settlement. -/
def World.settle (w : World) (c : Str) (record : SettlementRecord) : World :=
  { w with ledger := fun c' => if c' = c then some record else w.ledger c' }

theorem exec_assessFee {c : Str} {fee : FeeCalculation} {ch : Choice} {w w' : World}
    {r : Except JsError SettlementRecord} (h : exec (.assessFee c fee) ch w = some (r, w')) :
    (∃ x, r = .error x ∧ w' = w) ∨
      ∃ time, r = .ok (assessedRecord c fee time) ∧ w' = w.settle c (assessedRecord c fee time) := by
  cases ch with
  | fail error =>
    cases h
    exact .inl ⟨error, rfl, rfl⟩
  | text time =>
    cases h
    exact .inr ⟨time, rfl, rfl⟩
  | _ => cases h

/-! ## What an execution has decided -/

/-- The outcome that the answer of the provider stands for. -/
def outcomeOf (caseId : Str) (result : ProviderActionResult) (recordedAt : Str) :
    OutcomeEvidence where
  caseId
  outcomeType := result.outcomeType
  counterpartyConfirmation := result.counterpartyConfirmation
  claimedSavingsCents := result.claimedSavingsCents
  verifiedSavingsCents := verifyClaimedSavings result
  evidenceStrength := .trustedClaim
  recordedAt

/-- Positive savings are verified by a confirmation that is not empty. -/
theorem verifyClaimedSavings_pos {result : ProviderActionResult} {v : Int}
    (h : verifyClaimedSavings result = some v) (hv : 0 < v) : result.claimedSavingsCents = v ∧
      ∃ confirmation, result.counterpartyConfirmation = some confirmation ∧ confirmation ≠ [] := by
  unfold verifyClaimedSavings at h
  by_cases hclaimed : result.claimedSavingsCents ≤ 0
  · rw [if_pos hclaimed] at h
    cases h
    omega
  · rw [if_neg hclaimed] at h
    split at h
    · rename_i confirmation hconfirmation
      by_cases hempty : confirmation = []
      · rw [if_pos hempty] at h
        cases h
      · rw [if_neg hempty] at h
        exact ⟨Option.some.inj h, confirmation, hconfirmation, hempty⟩
    · cases h

/-- What an execution reads of the case, and the times of its first two transitions. -/
structure Execution where
  record : CaseRecord
  proposal : ActionProposal
  evidence : ExecutionEvidence
  approvedAt : Str
  movedAt : Str
  begunAt : Str

namespace Execution

variable (env : Platform) (deps : OrchestratorDeps) (x : Execution) (w : World)

/-- The approval that is stored. -/
def approval : ApprovalRecord :=
  approvalOf env x.record.caseId x.record.ownerId x.proposal x.approvedAt

/-- The record in `APPROVED`. -/
def approved : CaseRecord :=
  x.record.patched { approval := some (some (x.approval env)) } .approved x.movedAt

/-- The record in `EXECUTING`. -/
def executing : CaseRecord := (x.approved env).patched {} .executing x.begunAt

/-- The world in which the case is approved. -/
def approvedWorld : World := w.put (x.approved env)

/-- The world in which the case is executing. -/
def executingWorld : World := (x.approvedWorld env w).put (x.executing env)

/-- What is asked up to the approval. -/
def approvalLog : Log :=
  [asked w (.get x.record.caseId) (.ok x.record), asked w .now (.ok x.approvedAt)] ++
    moveLog w x.record.caseId x.record (x.approved env) x.movedAt

/-- What is asked up to the beginning of the execution. -/
def executingLog : Log :=
  x.approvalLog env w ++
    moveLog (x.approvedWorld env w) x.record.caseId (x.approved env) (x.executing env) x.begunAt

/-- What the provider is asked. -/
def request (input : SubscriptionCaseInput) : ProviderActionRequest where
  caseId := x.record.caseId
  input
  exactMessage := x.proposal.exactMessage

/-- The record after the provider has failed. -/
def failed (message : Str) (updatedAt : Str) : CaseRecord :=
  (x.executing env).patched (failedExecutionPatch message (x.executing env)) .executionFailed
    updatedAt

/-- What is asked up to the failure of the provider. -/
def failedLog (input : SubscriptionCaseInput) (error : JsError) : Log :=
  x.executingLog env w ++ [asked (x.executingWorld env w) (.sendAction (x.request input))
    (.error error)]

/-- What is asked up to the answer of the provider. -/
def answeredLog (input : SubscriptionCaseInput) (result : ProviderActionResult)
    (recordedAt : Str) : Log :=
  x.executingLog env w ++ [asked (x.executingWorld env w) (.sendAction (x.request input))
    (.ok result), asked (x.executingWorld env w) .now (.ok recordedAt)]

/-- The record with the outcome. -/
def answered (outcome : OutcomeEvidence) (updatedAt : Str) : CaseRecord :=
  (x.executing env).patched { outcome := some (some outcome) } (outcomeEvent outcome).target
    updatedAt

/-- What the receipt is built from. -/
def receiptInput (input : SubscriptionCaseInput) (outcome : OutcomeEvidence) :
    BuildReceiptInput where
  caseId := x.record.caseId
  category := x.record.category
  input
  proposal := x.proposal
  approval := x.approval env
  execution := x.evidence
  outcome
  environment := deps.source
  anchor := none

end Execution

/-- The case awaits the approval of this proposal by this owner. -/
structure Begins (c ownerId proposalId : Str) (w : World) (x : Execution) : Prop where
  found : w.store c = some x.record
  caseId : x.record.caseId = c
  ownerId : x.record.ownerId = ownerId
  state : x.record.state = .awaitingApproval
  proposal : x.record.proposal = some x.proposal
  proposalId : x.proposal.proposalId = proposalId
  evidence : x.record.execution = some x.evidence

/-! ## Receipts and fees -/

/-- What becomes of a receipt that is uploaded, when there is a storage client. -/
inductive Uploads (deps : OrchestratorDeps) (receipt : ClawbackReceipt) (w : World) :
    ClawbackReceipt → Log → Prop
  | off : deps.hasStorageClient = false → Uploads deps receipt w receipt []
  | stored (artifact : StoredArtifact) : Uploads deps receipt w
    { receipt with anchor := { receipt.anchor with storageRootHash := some artifact.rootHash } }
    [asked w (.uploadJson receipt) (.ok artifact)]
  | failed (error : JsError) :
    Uploads deps receipt w receipt [asked w (.uploadJson receipt) (.error error)]

/-- What becomes of a receipt that is anchored, when there is an anchor client. -/
inductive Anchors (env : Platform) (deps : OrchestratorDeps) (c : Str)
    (receipt : ClawbackReceipt) (w : World) : ClawbackReceipt → Log → Prop
  | off : deps.hasAnchorClient = false → Anchors env deps c receipt w receipt []
  | anchored (result : AnchorResult) : Anchors env deps c receipt w
    { receipt with anchor := { receipt.anchor with chainTxHash := some result.txHash } }
    [asked w (.anchorReceipt (commit env.sha256Hex (.str c)) receipt.commitments.receiptCommitment
      none) (.ok result)]
  | failed (error : JsError) : Anchors env deps c receipt w receipt
    [asked w (.anchorReceipt (commit env.sha256Hex (.str c)) receipt.commitments.receiptCommitment
      none) (.error error)]

/-- The settlement of an outcome: a fee on positive savings. -/
inductive Settles (c : Str) (outcome : OutcomeEvidence) (w : World) :
    Except JsError Unit → Log → World → Prop
  | free : (∀ v, outcome.verifiedSavingsCents = some v → v ≤ 0) →
    Settles c outcome w (.ok ()) [] w
  | assessed {v : Int} {fee : FeeCalculation} (time : Str) :
    outcome.verifiedSavingsCents = some v → 0 < v → computeFee (some v) defaultFeeBps = .ok fee →
    Settles c outcome w (.ok ())
      [⟨w, ⟨.assessFee c fee, .ok (assessedRecord c fee time)⟩,
        w.settle c (assessedRecord c fee time)⟩] (w.settle c (assessedRecord c fee time))
  | failed {v : Int} {fee : FeeCalculation} (error : JsError) :
    outcome.verifiedSavingsCents = some v → 0 < v → computeFee (some v) defaultFeeBps = .ok fee →
    Settles c outcome w (.error error) [asked w (.assessFee c fee) (.error error)] w

/-- How the part after the outcome ends, for a record in `OUTCOME_PENDING`. -/
inductive Finalizes (env : Platform) (deps : OrchestratorDeps) (built : BuildReceiptInput)
    (pending : CaseRecord) (w : World) : Except JsError CaseSummary → Log → World → Prop
  /-- The fee was not assessed. -/
  | unsettled {uuid createdAt : Str} {stored anchored : ClawbackReceipt} {l₁ l₂ l₃ : Log}
    {error : JsError} {w' : World} :
    Uploads deps (buildReceipt env.sha256Hex (js "receipt" ++ js "_" ++ uuid) createdAt built)
      (w.draw uuid) stored l₁ →
    Anchors env deps built.caseId stored (w.draw uuid) anchored l₂ →
    Settles built.caseId built.outcome (w.draw uuid) (.error error) l₃ w' →
    Finalizes env deps built pending w (.error error)
      ([drew w uuid, asked (w.draw uuid) .now (.ok createdAt)] ++ l₁ ++ l₂ ++ l₃) w'
  /-- The store has failed. -/
  | unconfirmed {uuid createdAt : Str} {stored anchored : ClawbackReceipt} {l₁ l₂ l₃ since : Log}
    {error : JsError} {w' : World} :
    Uploads deps (buildReceipt env.sha256Hex (js "receipt" ++ js "_" ++ uuid) createdAt built)
      (w.draw uuid) stored l₁ →
    Anchors env deps built.caseId stored (w.draw uuid) anchored l₂ →
    Settles built.caseId built.outcome (w.draw uuid) (.ok ()) l₃ w' →
    Cut w' built.caseId since →
    Finalizes env deps built pending w (.error error)
      ([drew w uuid, asked (w.draw uuid) .now (.ok createdAt)] ++ l₁ ++ l₂ ++ l₃ ++ since) w'
  /-- The receipt is stored. -/
  | confirmed {uuid createdAt : Str} {stored anchored : ClawbackReceipt} {l₁ l₂ l₃ : Log}
    {final : CaseRecord} {updatedAt : Str} {w' : World} :
    Uploads deps (buildReceipt env.sha256Hex (js "receipt" ++ js "_" ++ uuid) createdAt built)
      (w.draw uuid) stored l₁ →
    Anchors env deps built.caseId stored (w.draw uuid) anchored l₂ →
    Settles built.caseId built.outcome (w.draw uuid) (.ok ()) l₃ w' →
    final = pending.patched { receipt := some (some anchored) } .verifiedSuccess updatedAt →
    Finalizes env deps built pending w (.ok (toSummary final))
      ([drew w uuid, asked (w.draw uuid) .now (.ok createdAt)] ++ l₁ ++ l₂ ++ l₃ ++
        moveLog w' built.caseId pending final updatedAt) (w'.put final)

/-- How an approval ends. -/
inductive Executes (env : Platform) (deps : OrchestratorDeps) (c ownerId proposalId : Str)
    (w : World) : Except JsError CaseSummary → Log → World → Prop
  /-- Nothing is stored. -/
  | refused {error : JsError} {l : Log} : l.all harmless = true →
    Executes env deps c ownerId proposalId w (.error error) l w
  /-- The store has failed in `APPROVED`. -/
  | unbegun {x : Execution} {error : JsError} {since : Log} : Begins c ownerId proposalId w x →
    Cut (x.approvedWorld env w) c since →
    Executes env deps c ownerId proposalId w (.error error) (x.approvalLog env w ++ since)
      (x.approvedWorld env w)
  /-- The input cannot be read. -/
  | undecrypted {x : Execution} {error : JsError} : Begins c ownerId proposalId w x →
    decryptInput env x.record = .error error →
    Executes env deps c ownerId proposalId w (.error error) (x.executingLog env w)
      (x.executingWorld env w)
  /-- The provider has failed, and the store after it. -/
  | unfailed {x : Execution} {input : SubscriptionCaseInput} {error error' : JsError}
    {since : Log} : Begins c ownerId proposalId w x → decryptInput env x.record = .ok input →
    Cut (x.executingWorld env w) c since →
    Executes env deps c ownerId proposalId w (.error error')
      (x.failedLog env w input error ++ since) (x.executingWorld env w)
  /-- The provider has failed. -/
  | failed {x : Execution} {input : SubscriptionCaseInput} {error : JsError} {updatedAt : Str}
    {result : Except JsError CaseSummary} {since : Log} : Begins c ownerId proposalId w x →
    decryptInput env x.record = .ok input → since.all harmless = true →
    Executes env deps c ownerId proposalId w result
      (x.failedLog env w input error ++ moveLog (x.executingWorld env w) c (x.executing env)
        (x.failed env error.text updatedAt) updatedAt ++ since)
      ((x.executingWorld env w).put (x.failed env error.text updatedAt))
  /-- The store has failed after the answer of the provider. -/
  | unrecorded {x : Execution} {input : SubscriptionCaseInput} {answer : ProviderActionResult}
    {recordedAt : Str} {error : JsError} {since : Log} : Begins c ownerId proposalId w x →
    decryptInput env x.record = .ok input → Cut (x.executingWorld env w) c since →
    Executes env deps c ownerId proposalId w (.error error)
      (x.answeredLog env w input answer recordedAt ++ since) (x.executingWorld env w)
  /-- The counterparty has not answered. -/
  | unanswered {x : Execution} {input : SubscriptionCaseInput} {answer : ProviderActionResult}
    {recordedAt updatedAt : Str} {outcome : OutcomeEvidence} {r : CaseRecord} :
    Begins c ownerId proposalId w x → decryptInput env x.record = .ok input →
    outcome = outcomeOf c answer recordedAt → outcome.outcomeType = .noResponse →
    r = x.answered env outcome updatedAt →
    Executes env deps c ownerId proposalId w (.ok (toSummary r))
      (x.answeredLog env w input answer recordedAt ++
        moveLog (x.executingWorld env w) c (x.executing env) r updatedAt)
      ((x.executingWorld env w).put r)
  /-- The counterparty has answered. -/
  | finalizing {x : Execution} {input : SubscriptionCaseInput} {answer : ProviderActionResult}
    {recordedAt updatedAt : Str} {outcome : OutcomeEvidence} {r : CaseRecord} {l : Log}
    {result : Except JsError CaseSummary} {w' : World} : Begins c ownerId proposalId w x →
    decryptInput env x.record = .ok input →
    outcome = outcomeOf c answer recordedAt → outcome.outcomeType ≠ .noResponse →
    r = x.answered env outcome updatedAt →
    Finalizes env deps (x.receiptInput env deps input outcome) r
      ((x.executingWorld env w).put r) result l w' →
    Executes env deps c ownerId proposalId w result
      (x.answeredLog env w input answer recordedAt ++
        moveLog (x.executingWorld env w) c (x.executing env) r updatedAt ++ l) w'

/-! ## Rules -/

theorem isFee_of_harmless {l : Log} (h : l.all harmless = true) :
    ∀ a ∈ l, a.entry.effect.isFee = false := by
  rintro ⟨w, ⟨e, r⟩, w'⟩ ha
  have hone := List.all_eq_true.mp h _ ha
  cases e with
  | assessFee c fee => cases hone
  | _ => rfl

theorem isFee_moveLog (w : World) (c : Str) (r r' : CaseRecord) (time : Str) :
    ∀ a ∈ moveLog w c r r' time, a.entry.effect.isFee = false := by
  intro a ha
  simp only [moveLog, List.mem_cons, List.not_mem_nil, or_false] at ha
  rcases ha with rfl | rfl | rfl <;> rfl

section Rules

variable {K α β : Type} {sys : System K Effect Effect.Answer JsError World Choice α}
  {deps : OrchestratorDeps} {l : Log} {w w₀ : World}

theorem ensures_storeReceipt_bind (hsys : sys.exec = exec)
    {Q : Except JsError β → Log → World → Prop} {receipt : ClawbackReceipt}
    {f : ClawbackReceipt → Action β}
    (hQ : ∀ stored l', Uploads deps receipt w stored l' →
      Ensures sys (Owed w₀) Q (f stored) (l ++ l') w) :
    Ensures sys (Owed w₀) Q (storeReceipt deps receipt >>= f) l w := by
  unfold storeReceipt
  cases hclient : deps.hasStorageClient with
  | false =>
    have hnext := hQ receipt [] (.off hclient)
    rw [List.append_nil] at hnext
    exact hnext
  | true =>
    refine Ensures.bind (Ensures.bind (Ensures.attempt (ensures_external hsys rfl trivial ?_)))
    intro r
    cases r with
    | ok artifact => exact hQ _ _ (.stored artifact)
    | error error => exact hQ _ _ (.failed error)

theorem ensures_anchorReceipt_bind (hsys : sys.exec = exec) {c : Str}
    {Q : Except JsError β → Log → World → Prop} {receipt : ClawbackReceipt}
    {f : ClawbackReceipt → Action β}
    (hQ : ∀ anchored l', Anchors env deps c receipt w anchored l' →
      Ensures sys (Owed w₀) Q (f anchored) (l ++ l') w) :
    Ensures sys (Owed w₀) Q (anchorReceipt env deps c receipt >>= f) l w := by
  unfold anchorReceipt
  cases hclient : deps.hasAnchorClient with
  | false =>
    have hnext := hQ receipt [] (.off hclient)
    rw [List.append_nil] at hnext
    exact hnext
  | true =>
    refine Ensures.bind (Ensures.bind (Ensures.attempt (ensures_external hsys rfl trivial ?_)))
    intro r
    cases r with
    | ok result => exact hQ _ _ (.anchored result)
    | error error => exact hQ _ _ (.failed error)

theorem ensures_settle (hsys : sys.exec = exec) {Q : Except JsError Unit → Log → World → Prop}
    {c : Str} {outcome : OutcomeEvidence} {r : CaseRecord} (hfound : w.store c = some r)
    (hdue : ∀ v fee, outcome.verifiedSavingsCents = some v → 0 < v →
      computeFee (some v) defaultFeeBps = .ok fee → FeeDue r fee)
    (hl : ∀ a ∈ l, a.entry.effect.isFee = false)
    (hawaits : ∃ r, w₀.store c = some r ∧ r.state = .awaitingApproval)
    (hQ : ∀ result l' w', Settles c outcome w result l' w' → Q result (l ++ l') w') :
    Ensures sys (Owed w₀) Q (settle c outcome) l w := by
  have hfree : (∀ v, outcome.verifiedSavingsCents = some v → v ≤ 0) → Q (.ok ()) l w := by
    intro h
    have hnext := hQ _ _ _ (.free h)
    rwa [List.append_nil] at hnext
  unfold settle
  split
  · rename_i v hverified
    by_cases hv : 0 < v
    · rw [if_pos hv]
      obtain ⟨fee, hfee, -⟩ := exists_fee v defaultFeeBps
      rw [hfee]
      refine Ensures.bind (Ensures.lift ?_)
      refine Ensures.bind (Ensures.perform ⟨⟨r, hfound, hdue v fee hverified hv hfee⟩, hl,
        hawaits⟩ ?_)
      intro ch result w' hexec
      rw [hsys] at hexec
      obtain ⟨x, rfl, rfl⟩ | ⟨time, rfl, rfl⟩ := exec_assessFee hexec
      · exact hQ _ _ _ (.failed x hverified hv hfee)
      · exact hQ _ _ _ (.assessed time hverified hv hfee)
    · rw [if_neg hv]
      refine hfree fun v' hverified' => ?_
      rw [hverified] at hverified'
      cases hverified'
      omega
  · rename_i hverified
    refine hfree fun v' hverified' => ?_
    rw [hverified] at hverified'
    cases hverified'

theorem Settles.store {c : Str} {outcome : OutcomeEvidence} {result : Except JsError Unit}
    {l : Log} {w w' : World} (h : Settles c outcome w result l w') : w'.store = w.store := by
  cases h <;> rfl

theorem isFee_uploads {receipt stored : ClawbackReceipt} {l : Log}
    (h : Uploads deps receipt w stored l) : ∀ a ∈ l, a.entry.effect.isFee = false := by
  intro a ha
  cases h with
  | off _ => cases ha
  | stored _ | failed _ =>
    rw [List.mem_singleton.mp ha]
    rfl

theorem isFee_anchors {c : Str} {receipt anchored : ClawbackReceipt} {l : Log}
    (h : Anchors env deps c receipt w anchored l) : ∀ a ∈ l, a.entry.effect.isFee = false := by
  intro a ha
  cases h with
  | off _ => cases ha
  | anchored _ | failed _ =>
    rw [List.mem_singleton.mp ha]
    rfl

/-- What follows the outcome. -/
theorem ensures_finalize (hsys : sys.exec = exec) {c : Str} {input : SubscriptionCaseInput}
    (built : BuildReceiptInput) {pending : CaseRecord}
    {Q : Except JsError CaseSummary → Log → World → Prop} (hfound : w.store c = some pending)
    (hid : pending.caseId = c) (hstate : pending.state = .outcomePending)
    (hbuilt : receiptInput deps c input pending = .ok built) (hcase : built.caseId = c)
    (hsource : built.environment = deps.source)
    (hdue : ∀ v fee, built.outcome.verifiedSavingsCents = some v → 0 < v →
      computeFee (some v) defaultFeeBps = .ok fee → FeeDue pending fee)
    (hl : ∀ a ∈ l, a.entry.effect.isFee = false)
    (hawaits : ∃ r, w₀.store c = some r ∧ r.state = .awaitingApproval)
    (hQ : ∀ r l' w', Finalizes env deps built pending w r l' w' → Q r (l ++ l') w') :
    Ensures sys (Owed w₀) Q (finalize env deps c input built.outcome pending) l w := by
  subst hcase
  unfold finalize
  rw [hbuilt]
  refine Ensures.bind (Ensures.lift ?_)
  refine ensures_newId_bind hsys trivial fun uuid _ => ?_
  refine ensures_now_bind hsys trivial fun createdAt => ?_
  have hassert : ∀ receiptId createdAt, assertNoSandboxLeakage
      (buildReceipt env.sha256Hex receiptId createdAt built) deps.source = .ok () := by
    intro receiptId createdAt
    refine if_neg fun h => h.2 ?_
    exact hsource.trans h.1
  dsimp only
  rw [hassert]
  refine Ensures.bind (Ensures.lift ?_)
  refine ensures_storeReceipt_bind hsys fun stored l₁ hl₁ => ?_
  refine ensures_anchorReceipt_bind hsys fun anchored l₂ hl₂ => ?_
  refine Ensures.bind (ensures_settle (w := w.draw uuid) hsys hfound hdue ?_ hawaits ?_)
  · refine List.forall_mem_append.mpr ⟨List.forall_mem_append.mpr ⟨?_, isFee_uploads hl₁⟩,
      isFee_anchors hl₂⟩
    rw [List.append_assoc]
    refine List.forall_mem_append.mpr ⟨hl, fun a ha => ?_⟩
    simp only [List.cons_append, List.nil_append, List.mem_cons, List.not_mem_nil, or_false] at ha
    rcases ha with rfl | rfl <;> rfl
  intro result l₃ w' hsettles
  cases result with
  | error error =>
    have hend := hQ _ _ _ (.unsettled hl₁ hl₂ hsettles)
    simp only [List.append_assoc, List.cons_append, List.nil_append] at hend ⊢
    exact hend
  | ok _ =>
    have hfound' : w'.store built.caseId = some pending := by
      rw [hsettles.store]
      exact hfound
    refine Ensures.bind (ensures_pureMove hsys (fun l w e he => owed_of_isFee
      (Effect.isFee_eq_false he)) hfound' hid (by rw [hstate]; rfl) rfl
      (fun x since hcut => ?_) fun time => ?_)
    · have hend := hQ (.error x) _ _ (.unconfirmed hl₁ hl₂ hsettles hcut)
      simp only [List.append_assoc, List.cons_append, List.nil_append] at hend ⊢
      exact hend
    · have hend := hQ (.ok (toSummary (pending.patched { receipt := some (some anchored) }
        .verifiedSuccess time))) _ _ (.confirmed hl₁ hl₂ hsettles rfl)
      simp only [List.append_assoc, List.cons_append, List.nil_append] at hend ⊢
      exact hend

/-- What the answer of the provider leads to. -/
theorem ensures_sendForOutcome (hsys : sys.exec = exec) {c exactMessage : Str}
    {input : SubscriptionCaseInput} {f : Except JsError OutcomeEvidence → Action β}
    {Q : Except JsError β → Log → World → Prop}
    (herr : ∀ x, Ensures sys (Owed w₀) Q (f (.error x))
      (l ++ [asked w (.sendAction ⟨c, input, exactMessage⟩) (.error x)]) w)
    (hok : ∀ answer recordedAt, Ensures sys (Owed w₀) Q (f (.ok (outcomeOf c answer recordedAt)))
      (l ++ [asked w (.sendAction ⟨c, input, exactMessage⟩) (.ok answer),
        asked w .now (.ok recordedAt)]) w) :
    Ensures sys (Owed w₀) Q ((sendForOutcome c input exactMessage).attempt >>= f) l w := by
  refine Ensures.bind (Ensures.attempt ?_)
  refine Ensures.bind (ensures_external hsys rfl trivial fun r => ?_)
  cases r with
  | error x => exact herr x
  | ok answer =>
    refine Ensures.bind (ensures_now hsys trivial fun recordedAt => ?_)
    rw [List.append_assoc]
    exact hok answer recordedAt

/-- Only the record of a case that awaits approval can be approved. -/
theorem awaiting_of_approve {source next : CaseState}
    (h : applyTransition source .approve = .ok next) : source = .awaitingApproval := by
  cases source <;> first | rfl | cases h

theorem isFee_executingLog (x : Execution) (w : World) :
    ∀ a ∈ x.executingLog env w, a.entry.effect.isFee = false := by
  refine List.forall_mem_append.mpr ⟨List.forall_mem_append.mpr ⟨fun a ha => ?_,
    isFee_moveLog _ _ _ _ _⟩, isFee_moveLog _ _ _ _ _⟩
  simp only [List.mem_cons, List.not_mem_nil, or_false] at ha
  rcases ha with rfl | rfl <;> rfl

theorem isFee_answeredLog (x : Execution) (w : World) (input : SubscriptionCaseInput)
    (answer : ProviderActionResult) (recordedAt : Str) :
    ∀ a ∈ x.answeredLog env w input answer recordedAt, a.entry.effect.isFee = false := by
  refine List.forall_mem_append.mpr ⟨isFee_executingLog x w, fun a ha => ?_⟩
  simp only [List.mem_cons, List.not_mem_nil, or_false] at ha
  rcases ha with rfl | rfl <;> rfl

section Execute

variable {c ownerId proposalId : Str} {x : Execution} {input : SubscriptionCaseInput}

theorem Begins.executing_found (hx : Begins c ownerId proposalId w x) :
    (x.executingWorld env w).store c = some (x.executing env) :=
  if_pos hx.caseId.symm

/-- The provider has failed. -/
theorem ensures_recordFailure (hsys : sys.exec = exec) {error : JsError}
    (hx : Begins c ownerId proposalId w x) (hinput : decryptInput env x.record = .ok input) :
    Ensures sys (Owed w) (Executes env deps c ownerId proposalId w) (recordFailure c error)
      (x.failedLog env w input error) (x.executingWorld env w) := by
  unfold recordFailure
  refine Ensures.bind (ensures_pureMove hsys
    (fun l w e he => owed_of_isFee (Effect.isFee_eq_false he)) hx.executing_found hx.caseId rfl rfl
    (fun error' since hcut => ?_) fun updatedAt => ?_)
  · exact .unfailed hx hinput hcut
  · refine Ensures.bind (ensures_get hsys trivial (fun error' => ?_) fun read _ => ?_)
    · exact .failed hx hinput rfl
    · exact .failed hx hinput rfl

/-- The record with the outcome. -/
theorem ensures_recordOutcome (hsys : sys.exec = exec) {answer : ProviderActionResult}
    {recordedAt : Str} (hx : Begins c ownerId proposalId w x)
    (hinput : decryptInput env x.record = .ok input) :
    Ensures sys (Owed w) (Executes env deps c ownerId proposalId w)
      (recordOutcome env deps c input (outcomeOf c answer recordedAt))
      (x.answeredLog env w input answer recordedAt) (x.executingWorld env w) := by
  have hnext : applyTransition (x.executing env).state
      (outcomeEvent (outcomeOf c answer recordedAt)) =
        .ok (outcomeEvent (outcomeOf c answer recordedAt)).target := by
    unfold outcomeEvent
    split <;> rfl
  unfold recordOutcome
  refine Ensures.bind (ensures_pureMove hsys
    (fun l w e he => owed_of_isFee (Effect.isFee_eq_false he)) hx.executing_found hx.caseId hnext rfl
    (fun error since hcut => .unrecorded hx hinput hcut) fun updatedAt => ?_)
  dsimp only
  by_cases hanswered : (outcomeOf c answer recordedAt).outcomeType = .noResponse
  · rw [if_pos hanswered]
    exact .unanswered hx hinput rfl hanswered rfl
  · rw [if_neg hanswered]
    have hpending : (outcomeEvent (outcomeOf c answer recordedAt)).target = .outcomePending := by
      rw [outcomeEvent, if_neg hanswered]
      rfl
    have hbuilt : receiptInput deps c input (x.answered env (outcomeOf c answer recordedAt)
        updatedAt) = .ok (x.receiptInput env deps input (outcomeOf c answer recordedAt)) := by
      have hproposal : (x.answered env (outcomeOf c answer recordedAt) updatedAt).proposal =
          some x.proposal := hx.proposal
      have hevidence : (x.answered env (outcomeOf c answer recordedAt) updatedAt).execution =
          some x.evidence := hx.evidence
      unfold receiptInput
      rw [hproposal, hevidence, ← hx.caseId]
      rfl
    refine ensures_finalize hsys
      (x.receiptInput env deps input (outcomeOf c answer recordedAt)) ?_ hx.caseId hpending
      hbuilt hx.caseId rfl ?_ ?_ ⟨x.record, hx.found, hx.state⟩ fun r l' w' h => .finalizing hx hinput rfl hanswered rfl h
    · exact if_pos hx.caseId.symm
    · intro v fee hverified hv hfee
      obtain ⟨hclaimed, hconfirmation⟩ := verifyClaimedSavings_pos hverified hv
      exact ⟨hpending, Option.some_ne_none _, _, v, rfl, hanswered, hverified, hv, hclaimed,
        hconfirmation, hfee⟩
    · exact List.forall_mem_append.mpr ⟨isFee_answeredLog x w input answer recordedAt,
        isFee_moveLog _ _ _ _ _⟩

end Execute

/-- **Approval.** How an approval that runs alone ends. -/
theorem ensures_approveAndExecute (hsys : sys.exec = exec) (deps : OrchestratorDeps)
    (c ownerId proposalId : Str)
    (hsound : ∀ r, w.store c = some r → Consistent env r ∧ r.caseId = c) :
    Ensures sys (Owed w) (Executes env deps c ownerId proposalId w)
      (approveAndExecute env deps c ownerId proposalId) [] w := by
  have hG : ∀ l w' e, e.isQuiet = false ∨ e.isSilent = true → Owed w l w' e :=
    fun l w' e he => owed_of_isFee (Effect.isFee_eq_false he)
  unfold approveAndExecute
  refine Ensures.bind (ensures_getForOwner hsys trivial (fun x => .refused rfl)
    (fun _ _ _ => .refused rfl) fun record hfound howner => ?_)
  obtain ⟨hconsistent, hid⟩ := hsound record hfound
  refine Ensures.bind (Ensures.lift ?_)
  cases hchecked : proposalToApprove record proposalId with
  | error error => exact .refused rfl
  | ok proposal =>
    obtain ⟨hproposal, hsame⟩ := proposalToApprove_eq_ok hchecked
    refine ensures_now_bind hsys trivial fun approvedAt => ?_
    by_cases hstate : record.state = .awaitingApproval
    · have hproposed : record.execution ≠ none := by
        rw [Ne, hconsistent.execution, hstate]
        decide
      obtain ⟨evidence, hevidence⟩ := Option.ne_none_iff_exists'.mp hproposed
      subst hid howner hsame
      refine Ensures.bind (ensures_pureMove hsys hG hfound rfl (by rw [hstate]; rfl) rfl
        (fun error since hcut => .refused (harmless_append rfl hcut.harmless)) fun movedAt => ?_)
      have hx : ∀ begunAt, Begins record.caseId record.ownerId proposal.proposalId w
          ⟨record, proposal, evidence, approvedAt, movedAt, begunAt⟩ :=
        fun begunAt => ⟨hfound, rfl, rfl, hstate, hproposal, rfl, hevidence⟩
      refine Ensures.bind (ensures_pureMove hsys hG (if_pos rfl) rfl rfl rfl
        (fun error since hcut => .unbegun (hx []) hcut) fun begunAt => ?_)
      refine Ensures.bind (Ensures.lift ?_)
      cases hinput : decryptInput env record with
      | error error => exact .undecrypted (hx begunAt) hinput
      | ok input =>
        refine ensures_sendForOutcome hsys (fun error => ?_) fun answer recordedAt => ?_
        · exact ensures_recordFailure hsys (hx begunAt) hinput
        · exact ensures_recordOutcome hsys (hx begunAt) hinput
    · refine Ensures.bind (ensures_transition_lift hsys (fun _ => .ok _) hG
        (fun x since hstopped => ?_) ?_)
      · refine .refused (harmless_append rfl ?_)
        cases hstopped <;> rfl
      · intro found next changes time hfound' hnext hchanges
        rw [hfound] at hfound'
        cases hfound'
        exact absurd (awaiting_of_approve hnext) hstate

end Rules

end Clawback
