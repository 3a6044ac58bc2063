import Clawback.Shared.Commitment

/-!
# Building a receipt

`buildReceipt` chains a commitment across the stages of a case: case, action, execution,
outcome, receipt. The id it draws and the time it reads are parameters.

Amounts are of any type of numbers (`Amount`). Whole numbers of cents are rendered in exact
decimal arithmetic.
-/

namespace Clawback

open Js

/-! ## Amounts -/

/-- `(cents / 100).toFixed(2)`; from `1e+21` on `toFixed` is `toString`. -/
def dollarsText (cents : Int) : Str :=
  (if cents < 0 then js "-" else []) ++
    if cents.natAbs < 10 ^ 23 then
      decimalText (cents.natAbs / 100) ++ js "." ++
        [digitUnit (cents.natAbs / 10 % 10), digitUnit (cents.natAbs % 10)]
    else
      pointed ((mantissaDigits cents.natAbs).map digitUnit).reverse ++ js "e+" ++
        decimalText ((Nat.digits 10 cents.natAbs).length - 3)

/-- A type of amounts of cents. The finite ones have a JSON text, which determines them; the
others are written as `null`. -/
class Amount (C : Type) (N : outParam Type) where
  finite? : C → Option N
  /-- `(cents / 100).toFixed(2)` -/
  toFixed : C → Str
  eq_of_finite? : ∀ {a b : C} {n : N}, finite? a = some n → finite? b = some n → a = b

instance : Amount Int Int where
  finite? := some
  toFixed := dollarsText
  eq_of_finite? h h' := Option.some.inj (h.trans h'.symm)

@[simp] theorem finite?_int : (Amount.finite? : Int → Option Int) = some := rfl

/-- The numbers of JavaScript: those of `N`, and those that are not finite. -/
inductive Number (N : Type) where
  | finite (n : N)
  | infinity
  | negInfinity
  | nan
deriving DecidableEq

instance {N : Type} [Amount N N] : Amount (Number N) N where
  finite?
    | .finite n => Amount.finite? n
    | _ => none
  toFixed
    | .finite n => Amount.toFixed n
    | .infinity => js "Infinity"
    | .negInfinity => js "-Infinity"
    | .nan => js "NaN"
  eq_of_finite? := by
    intro a b n ha hb
    cases a with
    | finite a =>
      cases b with
      | finite b => rw [Amount.eq_of_finite? ha hb]
      | infinity | negInfinity | nan => cases hb
    | infinity | negInfinity | nan => cases ha

section Builder

variable {C N : Type} [NumberText N] [Amount C N]

/-- The JSON value of an amount. -/
def centsJson (cents : C) : Json N := .ofOption .num (Amount.finite? cents)

/-- The JSON value of an amount that may be `null`. -/
def optionalCentsJson (cents : Option C) : Json N := .ofOption .num (cents.bind Amount.finite?)

/-! ## The receipt -/

structure BuildReceiptInput (C : Type := Int) where
  caseId : Str
  category : CaseCategory
  input : SubscriptionCaseInput
  proposal : ActionProposal
  approval : ApprovalRecord
  execution : ExecutionEvidence
  outcome : OutcomeEvidence C
  environment : Environment
  anchor : Option ReceiptAnchor

def deriveStatus (input : BuildReceiptInput C) : ReceiptStatus :=
  if input.outcome.outcomeType = .noResponse then .unverified
  else if input.outcome.outcomeType = .declined then .unsuccessful
  else .successful

def summarizeAction (proposal : ActionProposal) : Str := proposal.summary

def summarizeOutcome (outcome : OutcomeEvidence C) : Str :=
  match outcome.outcomeType with
  | .refundIssued => js "Refund issued: $" ++ Amount.toFixed outcome.claimedSavingsCents
  | .cancelled => js "Subscription cancelled"
  | .declined => js "Request declined by the counterparty"
  | .noResponse => js "No response received within the case window"

def buildReceipt (sha256Hex : Str → Str) (receiptId createdAt : Str)
    (input : BuildReceiptInput C) : ClawbackReceipt C :=
  let caseCommitment := commit (N := N) sha256Hex (.obj
    [(js "caseId", .str input.caseId),
      (js "category", .str input.category.text),
      (js "merchantName", .str input.input.merchantName),
      (js "accountLast4", .str input.input.accountIdentifierLast4)])
  let actionCommitment := chain (N := N) sha256Hex (some caseCommitment) (.obj
    [(js "proposalId", .str input.proposal.proposalId),
      (js "exactMessage", .str input.proposal.exactMessage),
      (js "approvalId", .str input.approval.actionCommitment),
      (js "approvedAt", .str input.approval.approvedAt)])
  let executionCommitment := chain (N := N) sha256Hex (some actionCommitment) (.obj
    [(js "executionId", .str input.execution.executionId),
      (js "inputCommitment", .str input.execution.inputCommitment),
      (js "outputCommitment", .str input.execution.outputCommitment),
      (js "teeAttested", .bool input.execution.teeAttested),
      (js "providerAddress", .ofOption .str input.execution.providerAddress)])
  let outcomeCommitment := chain (N := N) sha256Hex (some executionCommitment) (.obj
    [(js "outcomeType", .str input.outcome.outcomeType.text),
      (js "claimedSavingsCents", centsJson input.outcome.claimedSavingsCents),
      (js "verifiedSavingsCents", optionalCentsJson input.outcome.verifiedSavingsCents)])
  let status := deriveStatus input
  let receiptCommitment := chain (N := N) sha256Hex (some outcomeCommitment) (.obj
    [(js "receiptId", .str receiptId),
      (js "status", .str status.text)])
  { receiptId
    caseId := input.caseId
    category := input.category
    status
    environment := input.environment
    actionTaken := summarizeAction input.proposal
    outcome := summarizeOutcome input.outcome
    claimedSavingsCents := input.outcome.claimedSavingsCents
    verifiedSavingsCents := input.outcome.verifiedSavingsCents
    execution :=
      { teeAttested := input.execution.teeAttested
        evidenceStrength :=
          if input.execution.teeAttested then .teeAttested else .notIndependentlyVerifiable
        providerAddress := input.execution.providerAddress
        model := input.execution.attestationEvidence.bind (·.model) }
    commitments :=
      { caseCommitment, actionCommitment, executionCommitment, outcomeCommitment,
        receiptCommitment }
    anchor :=
      { chainTxHash := input.anchor.bind (·.chainTxHash)
        storageRootHash := input.anchor.bind (·.storageRootHash) }
    approval := { verified := true, approvedAt := some input.approval.approvedAt }
    createdAt }

end Builder

end Clawback
