import Clawback.Receipts.Builder

/-!
# Independent verification

`verifyReceipt` recomputes every commitment of a receipt from the raw artifacts and
reports ten checks; its verdict is about the checks that are labelled cryptographically
verifiable. It is written without the builder: it spells the artifacts out once more.

* `passed_iff`: what the verdict amounts to. Of the ten checks, seven can decide it.
-/

namespace Clawback

open Js

structure VerificationCheck where
  question : Str
  result : Bool
  strength : EvidenceStrength
  detail : Str

structure VerificationReport where
  receiptId : Str
  checks : List VerificationCheck
  allCryptographicChecksPassed : Bool

/-- What a receipt is verified against. -/
structure Artifacts (C : Type := Int) where
  input : SubscriptionCaseInput
  proposal : ActionProposal
  approval : ApprovalRecord
  execution : ExecutionEvidence
  outcome : OutcomeEvidence C

section Verify

variable {C N : Type} [NumberText N]

/-- The numbers of the JSON values are those of the amounts. -/
def recomputedCaseCommitment [Amount C N] (sha256Hex : Str → Str) (receipt : ClawbackReceipt C)
    (artifacts : Artifacts C) : Str :=
  commit (N := N) sha256Hex (.obj
    [(js "caseId", .str receipt.caseId),
      (js "category", .str receipt.category.text),
      (js "merchantName", .str artifacts.input.merchantName),
      (js "accountLast4", .str artifacts.input.accountIdentifierLast4)])

variable [Amount C N] (sha256Hex : Str → Str) (receipt : ClawbackReceipt C)
  (artifacts : Artifacts C)

/-- The commitment of the approval, over the bare message or over the proposal. -/
def actionCommitmentMatchesApproval : Bool :=
  verifyCommitment (N := Int) sha256Hex (.str artifacts.proposal.exactMessage)
      artifacts.approval.actionCommitment ||
    commit (N := Int) sha256Hex (toJson artifacts.proposal) == artifacts.approval.actionCommitment

def recomputedActionCommitment : Str :=
  chain (N := N) sha256Hex (some (recomputedCaseCommitment sha256Hex receipt artifacts)) (.obj
    [(js "proposalId", .str artifacts.proposal.proposalId),
      (js "exactMessage", .str artifacts.proposal.exactMessage),
      (js "approvalId", .str artifacts.approval.actionCommitment),
      (js "approvedAt", .str artifacts.approval.approvedAt)])

def recomputedExecutionCommitment : Str :=
  chain (N := N) sha256Hex (some (recomputedActionCommitment sha256Hex receipt artifacts)) (.obj
    [(js "executionId", .str artifacts.execution.executionId),
      (js "inputCommitment", .str artifacts.execution.inputCommitment),
      (js "outputCommitment", .str artifacts.execution.outputCommitment),
      (js "teeAttested", .bool artifacts.execution.teeAttested),
      (js "providerAddress", .ofOption .str artifacts.execution.providerAddress)])

def recomputedOutcomeCommitment : Str :=
  chain (N := N) sha256Hex (some (recomputedExecutionCommitment sha256Hex receipt artifacts)) (.obj
    [(js "outcomeType", .str artifacts.outcome.outcomeType.text),
      (js "claimedSavingsCents", centsJson artifacts.outcome.claimedSavingsCents),
      (js "verifiedSavingsCents", optionalCentsJson artifacts.outcome.verifiedSavingsCents)])

def recomputedReceiptCommitment : Str :=
  chain (N := N) sha256Hex (some (recomputedOutcomeCommitment sha256Hex receipt artifacts)) (.obj
    [(js "receiptId", .str receipt.receiptId),
      (js "status", .str receipt.status.text)])

/-- The ten checks, in the order in which they are made. -/
def verificationChecks : List VerificationCheck :=
  [ -- 1. Does the stored case artifact match its commitment?
    { question := js "Does the case artifact match the commitment recorded in this receipt?"
      result := recomputedCaseCommitment sha256Hex receipt artifacts ==
        receipt.commitments.caseCommitment
      strength := .cryptographicallyVerifiable
      detail := js "Recomputes sha256(case) and compares it to receipt.commitments.caseCommitment." },
    -- 2. Was the action approved, and does it match what was executed?
    { question := js "Was the executed action explicitly approved by the user before it ran?"
      result := !artifacts.approval.approvedAt.isEmpty &&
        !artifacts.approval.actionCommitment.isEmpty
      strength := .cryptographicallyVerifiable
      detail :=
        if actionCommitmentMatchesApproval sha256Hex artifacts then
          js "An ApprovalRecord exists with a non-empty timestamp and action commitment."
        else
          js "An ApprovalRecord exists, but its action commitment does not match the proposal on file — treat with suspicion." },
    { question := js "Does the approved action match the commitment chained into this receipt?"
      result := recomputedActionCommitment sha256Hex receipt artifacts ==
        receipt.commitments.actionCommitment
      strength := .cryptographicallyVerifiable
      detail := js "Recomputes chain(caseCommitment, action) and compares it to receipt.commitments.actionCommitment." },
    -- 3. Does execution evidence match the recorded execution?
    { question := js "Does the recorded execution match the commitment chained into this receipt?"
      result := recomputedExecutionCommitment sha256Hex receipt artifacts ==
        receipt.commitments.executionCommitment
      strength := .cryptographicallyVerifiable
      detail := js "Recomputes chain(actionCommitment, execution) and compares it to receipt.commitments.executionCommitment." },
    -- 4. Was execution actually TEE-attested, and to what strength?
    { question := js "Was the sensitive analysis executed inside a TEE-attested path?"
      result := receipt.execution.teeAttested
      strength :=
        if receipt.execution.teeAttested then .cryptographicallyVerifiable
        else .notIndependentlyVerifiable
      detail :=
        if receipt.execution.teeAttested then
          js "broker.inference.processResponse() returned isValid === true for this execution (see packages/compute)."
        else
          js "0G Compute was not configured for this run, or attestation failed. This execution's privacy claim reduces to a trusted claim about server-side handling — see THREAT-MODEL.md." },
    -- 5. Does the outcome evidence match the claimed result?
    { question := js "Does the recorded outcome match the commitment chained into this receipt?"
      result := recomputedOutcomeCommitment sha256Hex receipt artifacts ==
        receipt.commitments.outcomeCommitment
      strength := .cryptographicallyVerifiable
      detail := js "Recomputes chain(executionCommitment, outcome) and compares it to receipt.commitments.outcomeCommitment." },
    -- 5b. Does the receipt's final commitment match a fresh recomputation?
    { question := js "Does the receipt's final commitment match a fresh recomputation of its own receiptId and status?"
      result := recomputedReceiptCommitment sha256Hex receipt artifacts ==
        receipt.commitments.receiptCommitment
      strength := .cryptographicallyVerifiable
      detail := js "Recomputes chain(outcomeCommitment, \x7b receiptId, status \x7d) and compares it to " ++
        js "receipt.commitments.receiptCommitment — this is what catches a forged status field " ++
        js "or a forged receiptCommitment that the case/action/execution/outcome checks alone would miss." },
    -- 6. Was the claimed outcome independently corroborated, or only self-reported?
    { question := js "Was the claimed savings amount independently verified, or only claimed?"
      result := artifacts.outcome.verifiedSavingsCents.isSome
      strength :=
        if artifacts.outcome.verifiedSavingsCents.isSome then .trustedClaim
        else .notIndependentlyVerifiable
      detail :=
        if artifacts.outcome.verifiedSavingsCents.isSome then
          js "A verification step (bank/card statement match, or explicit user confirmation) corroborated the amount — this remains a trusted claim from that external source, not a cryptographic proof."
        else
          js "No independent corroboration exists yet; claimedSavingsCents is the counterparty's or sandbox's self-report only." },
    -- 7. Was the result anchored on-chain?
    { question := js "Was this receipt anchored on a public chain?"
      result := receipt.anchor.chainTxHash.isSome
      strength :=
        if receipt.anchor.chainTxHash.isSome then .cryptographicallyVerifiable
        else .notIndependentlyVerifiable
      detail :=
        match receipt.anchor.chainTxHash with
        | some hash =>
          js "Anchored at transaction " ++ hash ++ js " — independently queryable on-chain."
        | none =>
          js "0G Chain anchoring was not configured for this run; this receipt exists only in Clawback's own store." },
    -- 8. Environment honesty
    { question := js "Is the environment that produced this outcome disclosed accurately?"
      result := receipt.environment == .sandbox || receipt.environment == .live
      strength := .cryptographicallyVerifiable
      detail := js "This receipt is explicitly labeled environment=\"" ++
        receipt.environment.text ++ js "\"." }]

def verifyReceipt : VerificationReport :=
  let checks := verificationChecks sha256Hex receipt artifacts
  { receiptId := receipt.receiptId
    checks
    allCryptographicChecksPassed :=
      (checks.filter (·.strength == .cryptographicallyVerifiable)).all (·.result) }

/-- A receipt of the sandbox provider is never labelled as live. -/
def assertNoSandboxLeakage (receipt : ClawbackReceipt C) (providerSource : Environment) :
    Except JsError Unit :=
  if providerSource = .sandbox ∧ receipt.environment ≠ .sandbox then
    .error (.ofMessage (js "Integrity violation: receipt " ++ receipt.receiptId ++
      js " was produced by the sandbox provider but labeled environment=\"" ++
      receipt.environment.text ++ js "\". Refusing to emit."))
  else .ok ()

/-- The five commitments of a chain of stages, recomputed from a receipt and artifacts. -/
def recomputedCommitments : Commitments where
  caseCommitment := recomputedCaseCommitment sha256Hex receipt artifacts
  actionCommitment := recomputedActionCommitment sha256Hex receipt artifacts
  executionCommitment := recomputedExecutionCommitment sha256Hex receipt artifacts
  outcomeCommitment := recomputedOutcomeCommitment sha256Hex receipt artifacts
  receiptCommitment := recomputedReceiptCommitment sha256Hex receipt artifacts

/-- The receipt carries the commitments of the artifacts, and an approval is on file. -/
structure Linked : Prop where
  commitments : receipt.commitments = recomputedCommitments sha256Hex receipt artifacts
  approvedAt : artifacts.approval.approvedAt ≠ []
  actionCommitment : artifacts.approval.actionCommitment ≠ []

end Verify

/-- A check that is only labelled cryptographically verifiable when it has succeeded cannot
fail the verdict. -/
theorem selfLabelled (b : Bool) :
    (!((if b = true then EvidenceStrength.cryptographicallyVerifiable
      else .notIndependentlyVerifiable) == .cryptographicallyVerifiable) || b) = true := by
  cases b <;> rfl

theorem corroborated_not_cryptographic (b : Bool) :
    ((if b = true then EvidenceStrength.trustedClaim
      else .notIndependentlyVerifiable) == .cryptographicallyVerifiable) = false := by
  cases b <;> rfl

theorem environment_disclosed (environment : Environment) :
    (environment == .sandbox || environment == .live) = true := by
  cases environment <;> rfl

/-- The checks on attestation, corroboration, anchor and environment cannot fail the
verdict: a receipt that does not claim one of these is not held to it. -/
theorem passed_iff {C N : Type} [NumberText N] [Amount C N] {sha256Hex : Str → Str}
    {receipt : ClawbackReceipt C} {artifacts : Artifacts C} :
    (verifyReceipt sha256Hex receipt artifacts).allCryptographicChecksPassed = true ↔
      Linked sha256Hex receipt artifacts := by
  have hcrypt : (EvidenceStrength.cryptographicallyVerifiable ==
      EvidenceStrength.cryptographicallyVerifiable) = true := rfl
  rw [verifyReceipt]
  simp only [List.all_filter, verificationChecks, List.all_cons, List.all_nil, hcrypt,
    selfLabelled, corroborated_not_cryptographic, environment_disclosed, Bool.not_true,
    Bool.not_false, Bool.false_or, Bool.true_or, Bool.and_true, Bool.true_and,
    Bool.and_eq_true, beq_iff_eq, Bool.not_eq_true', List.isEmpty_eq_false_iff]
  constructor
  · rintro ⟨hcase, ⟨hat, hcommit⟩, haction, hexecution, houtcome, hreceipt⟩
    exact ⟨Commitments.ext hcase.symm haction.symm hexecution.symm houtcome.symm
      hreceipt.symm, hat, hcommit⟩
  · rintro ⟨hall, hat, hcommit⟩
    rw [hall]
    exact ⟨rfl, ⟨hat, hcommit⟩, rfl, rfl, rfl, rfl⟩

end Clawback
