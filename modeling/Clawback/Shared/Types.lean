import Clawback.Js.Codec
import Clawback.Shared.StateMachine

/-!
# Core domain types

The records of the program and their layout as JSON objects, members in the order in
which the program writes them. Amounts of money are whole numbers of cents.

`DATA_FLOW_REGISTRY` names, for every sensitive field, who may see it, how long it lives
and which commitment of a receipt stands for it.
-/

namespace Clawback

open Js Codec

/-! ## Enumerations -/

inductive EvidenceStrength where
  | cryptographicallyVerifiable | teeAttested | economicallyEnforced | trustedClaim
  | notIndependentlyVerifiable
deriving DecidableEq, Inhabited

namespace EvidenceStrength

def text : EvidenceStrength → Str
  | cryptographicallyVerifiable => js "cryptographically_verifiable"
  | teeAttested => js "tee_attested"
  | economicallyEnforced => js "economically_enforced"
  | trustedClaim => js "trusted_claim"
  | notIndependentlyVerifiable => js "not_independently_verifiable"

instance : Codec Int EvidenceStrength :=
  ofTexts text [cryptographicallyVerifiable, teeAttested, economicallyEnforced, trustedClaim,
    notIndependentlyVerifiable] (by intro a; cases a <;> rfl)

end EvidenceStrength

instance : Codec Int CaseState := ofTexts CaseState.text CaseState.all (by intro a; cases a <;> rfl)

/-- The one category there is. -/
inductive CaseCategory where
  | subscriptionCancellation
deriving DecidableEq, Inhabited

namespace CaseCategory

def text : CaseCategory → Str
  | subscriptionCancellation => js "subscription_cancellation"

instance : Codec Int CaseCategory :=
  ofTexts text [subscriptionCancellation] (by intro a; cases a; rfl)

end CaseCategory

inductive ContactChannel where
  | email | chat | sandbox
deriving DecidableEq, Inhabited

namespace ContactChannel

def text : ContactChannel → Str
  | email => js "email"
  | chat => js "chat"
  | sandbox => js "sandbox"

instance : Codec Int ContactChannel :=
  ofTexts text [email, chat, sandbox] (by intro a; cases a <;> rfl)

end ContactChannel

/-- The boundary an outcome came through. -/
inductive Environment where
  | sandbox | live
deriving DecidableEq, Inhabited

namespace Environment

def text : Environment → Str
  | sandbox => js "sandbox"
  | live => js "live"

instance : Codec Int Environment := ofTexts text [sandbox, live] (by intro a; cases a <;> rfl)

end Environment

inductive OutcomeType where
  | cancelled | refundIssued | declined | noResponse
deriving DecidableEq, Inhabited

namespace OutcomeType

def text : OutcomeType → Str
  | cancelled => js "cancelled"
  | refundIssued => js "refund_issued"
  | declined => js "declined"
  | noResponse => js "no_response"

instance : Codec Int OutcomeType :=
  ofTexts text [cancelled, refundIssued, declined, noResponse] (by intro a; cases a <;> rfl)

end OutcomeType

inductive ReceiptStatus where
  | successful | unsuccessful | unverified
deriving DecidableEq, Inhabited

namespace ReceiptStatus

def text : ReceiptStatus → Str
  | successful => js "successful"
  | unsuccessful => js "unsuccessful"
  | unverified => js "unverified"

instance : Codec Int ReceiptStatus :=
  ofTexts text [successful, unsuccessful, unverified] (by intro a; cases a <;> rfl)

end ReceiptStatus

/-! ## Sensitive input -/

structure SubscriptionCaseInput where
  merchantName : Str
  accountIdentifierLast4 : Str
  subscriptionDetails : Str
  desiredOutcome : Str
  contactChannel : ContactChannel
  contactAddress : Str
deriving DecidableEq, Inhabited

def SubscriptionCaseInput.keys : List Str :=
  ["merchantName", "accountIdentifierLast4", "subscriptionDetails", "desiredOutcome",
    "contactChannel", "contactAddress"].map js

theorem SubscriptionCaseInput.keys_nodup : SubscriptionCaseInput.keys.Nodup := by decide +kernel

instance : Codec Int SubscriptionCaseInput where
  toJson a := record SubscriptionCaseInput.keys
    [toJson a.merchantName, toJson a.accountIdentifierLast4, toJson a.subscriptionDetails,
      toJson a.desiredOutcome, toJson a.contactChannel, toJson a.contactAddress]
  ofJson v :=
    match fields SubscriptionCaseInput.keys v with
    | some [v1, v2, v3, v4, v5, v6] =>
      SubscriptionCaseInput.mk <$> ofJson v1 <*> ofJson v2 <*> ofJson v3 <*> ofJson v4 <*>
        ofJson v5 <*> ofJson v6
    | _ => none
  ofJson_toJson a := by
    rw [fields_record SubscriptionCaseInput.keys_nodup rfl]
    simp
  uniqueKeys_toJson a := uniqueKeys_record SubscriptionCaseInput.keys_nodup rfl (by simp)
  toJson_ne_null _ := by simp [record]

/-! ## Action proposal and approval -/

structure ActionProposal where
  proposalId : Str
  summary : Str
  exactMessage : Str
  estimatedRecoveryCents : Option Int
  createdAt : Str
deriving DecidableEq, Inhabited

def ActionProposal.keys : List Str :=
  ["proposalId", "summary", "exactMessage", "estimatedRecoveryCents", "createdAt"].map js

theorem ActionProposal.keys_nodup : ActionProposal.keys.Nodup := by decide +kernel

instance : Codec Int ActionProposal where
  toJson a := record ActionProposal.keys
    [toJson a.proposalId, toJson a.summary, toJson a.exactMessage,
      optionToJson a.estimatedRecoveryCents, toJson a.createdAt]
  ofJson v :=
    match fields ActionProposal.keys v with
    | some [v1, v2, v3, v4, v5] =>
      ActionProposal.mk <$> ofJson v1 <*> ofJson v2 <*> ofJson v3 <*> optionOfJson v4 <*>
        ofJson v5
    | _ => none
  ofJson_toJson a := by
    rw [fields_record ActionProposal.keys_nodup rfl]
    simp
  uniqueKeys_toJson a := uniqueKeys_record ActionProposal.keys_nodup rfl (by simp)
  toJson_ne_null _ := by simp [record]

structure ApprovalRecord where
  caseId : Str
  proposalId : Str
  actionCommitment : Str
  approvedAt : Str
  approvedBy : Str
deriving DecidableEq, Inhabited

def ApprovalRecord.keys : List Str :=
  ["caseId", "proposalId", "actionCommitment", "approvedAt", "approvedBy"].map js

theorem ApprovalRecord.keys_nodup : ApprovalRecord.keys.Nodup := by decide +kernel

instance : Codec Int ApprovalRecord where
  toJson a := record ApprovalRecord.keys
    [toJson a.caseId, toJson a.proposalId, toJson a.actionCommitment, toJson a.approvedAt,
      toJson a.approvedBy]
  ofJson v :=
    match fields ApprovalRecord.keys v with
    | some [v1, v2, v3, v4, v5] =>
      ApprovalRecord.mk <$> ofJson v1 <*> ofJson v2 <*> ofJson v3 <*> ofJson v4 <*> ofJson v5
    | _ => none
  ofJson_toJson a := by
    rw [fields_record ApprovalRecord.keys_nodup rfl]
    simp
  uniqueKeys_toJson a := uniqueKeys_record ApprovalRecord.keys_nodup rfl (by simp)
  toJson_ne_null _ := by simp [record]

/-! ## Execution and outcome evidence -/

/-- `chatId` is whatever the compute provider put there, often a string, `null` when it
put nothing. -/
structure TeeAttestationEvidence where
  providerAddress : Str
  model : Option Str
  chatId : Value Int
  isValid : Bool
  verifiedAt : Str

def TeeAttestationEvidence.keys : List Str :=
  ["providerAddress", "model", "chatId", "isValid", "verifiedAt"].map js

theorem TeeAttestationEvidence.keys_nodup : TeeAttestationEvidence.keys.Nodup := by
  decide +kernel

instance : Codec Int TeeAttestationEvidence where
  toJson a := record TeeAttestationEvidence.keys
    [toJson a.providerAddress, optionToJson a.model, a.chatId.json, toJson a.isValid,
      toJson a.verifiedAt]
  ofJson v :=
    match fields TeeAttestationEvidence.keys v with
    | some [v1, v2, v3, v4, v5] =>
      TeeAttestationEvidence.mk <$> ofJson v1 <*> optionOfJson v2 <*> Value.ofJson? v3 <*>
        ofJson v4 <*> ofJson v5
    | _ => none
  ofJson_toJson a := by
    rw [fields_record TeeAttestationEvidence.keys_nodup rfl]
    simp
  uniqueKeys_toJson a :=
    uniqueKeys_record TeeAttestationEvidence.keys_nodup rfl (by simp [a.chatId.uniqueKeys])
  toJson_ne_null _ := by simp [record]

structure ExecutionEvidence where
  executionId : Str
  caseId : Str
  startedAt : Str
  completedAt : Option Str
  succeeded : Bool
  teeAttested : Bool
  attestationEvidence : Option TeeAttestationEvidence
  providerAddress : Option Str
  inputCommitment : Str
  outputCommitment : Str
  errorMessage : Option Str

def ExecutionEvidence.keys : List Str :=
  ["executionId", "caseId", "startedAt", "completedAt", "succeeded", "teeAttested",
    "attestationEvidence", "providerAddress", "inputCommitment", "outputCommitment",
    "errorMessage"].map js

theorem ExecutionEvidence.keys_nodup : ExecutionEvidence.keys.Nodup := by decide +kernel

instance : Codec Int ExecutionEvidence where
  toJson a := record ExecutionEvidence.keys
    [toJson a.executionId, toJson a.caseId, toJson a.startedAt, optionToJson a.completedAt,
      toJson a.succeeded, toJson a.teeAttested, optionToJson a.attestationEvidence,
      optionToJson a.providerAddress, toJson a.inputCommitment, toJson a.outputCommitment,
      optionToJson a.errorMessage]
  ofJson v :=
    match fields ExecutionEvidence.keys v with
    | some [v1, v2, v3, v4, v5, v6, v7, v8, v9, v10, v11] =>
      ExecutionEvidence.mk <$> ofJson v1 <*> ofJson v2 <*> ofJson v3 <*> optionOfJson v4 <*>
        ofJson v5 <*> ofJson v6 <*> optionOfJson v7 <*> optionOfJson v8 <*> ofJson v9 <*>
        ofJson v10 <*> optionOfJson v11
    | _ => none
  ofJson_toJson a := by
    rw [fields_record ExecutionEvidence.keys_nodup rfl]
    simp
  uniqueKeys_toJson a := uniqueKeys_record ExecutionEvidence.keys_nodup rfl (by simp)
  toJson_ne_null _ := by simp [record]

/-- The amounts are whole numbers of cents, unless another type of numbers is given. -/
structure OutcomeEvidence (C : Type := Int) where
  caseId : Str
  outcomeType : OutcomeType
  counterpartyConfirmation : Option Str
  claimedSavingsCents : C
  verifiedSavingsCents : Option C
  evidenceStrength : EvidenceStrength
  recordedAt : Str
deriving DecidableEq, Inhabited

def OutcomeEvidence.keys : List Str :=
  ["caseId", "outcomeType", "counterpartyConfirmation", "claimedSavingsCents",
    "verifiedSavingsCents", "evidenceStrength", "recordedAt"].map js

theorem OutcomeEvidence.keys_nodup : OutcomeEvidence.keys.Nodup := by decide +kernel

instance : Codec Int OutcomeEvidence where
  toJson a := record OutcomeEvidence.keys
    [toJson a.caseId, toJson a.outcomeType, optionToJson a.counterpartyConfirmation,
      toJson a.claimedSavingsCents, optionToJson a.verifiedSavingsCents,
      toJson a.evidenceStrength, toJson a.recordedAt]
  ofJson v :=
    match fields OutcomeEvidence.keys v with
    | some [v1, v2, v3, v4, v5, v6, v7] =>
      OutcomeEvidence.mk <$> ofJson v1 <*> ofJson v2 <*> optionOfJson v3 <*> ofJson v4 <*>
        optionOfJson v5 <*> ofJson v6 <*> ofJson v7
    | _ => none
  ofJson_toJson a := by
    rw [fields_record OutcomeEvidence.keys_nodup rfl]
    simp
  uniqueKeys_toJson a := uniqueKeys_record OutcomeEvidence.keys_nodup rfl (by simp)
  toJson_ne_null _ := by simp [record]

/-! ## Receipt -/

structure ReceiptExecution where
  teeAttested : Bool
  evidenceStrength : EvidenceStrength
  providerAddress : Option Str
  model : Option Str
deriving DecidableEq, Inhabited

def ReceiptExecution.keys : List Str :=
  ["teeAttested", "evidenceStrength", "providerAddress", "model"].map js

theorem ReceiptExecution.keys_nodup : ReceiptExecution.keys.Nodup := by decide +kernel

instance : Codec Int ReceiptExecution where
  toJson a := record ReceiptExecution.keys
    [toJson a.teeAttested, toJson a.evidenceStrength, optionToJson a.providerAddress,
      optionToJson a.model]
  ofJson v :=
    match fields ReceiptExecution.keys v with
    | some [v1, v2, v3, v4] =>
      ReceiptExecution.mk <$> ofJson v1 <*> ofJson v2 <*> optionOfJson v3 <*> optionOfJson v4
    | _ => none
  ofJson_toJson a := by
    rw [fields_record ReceiptExecution.keys_nodup rfl]
    simp
  uniqueKeys_toJson a := uniqueKeys_record ReceiptExecution.keys_nodup rfl (by simp)
  toJson_ne_null _ := by simp [record]

@[ext]
structure Commitments where
  caseCommitment : Str
  actionCommitment : Str
  executionCommitment : Str
  outcomeCommitment : Str
  receiptCommitment : Str
deriving DecidableEq, Inhabited

def Commitments.keys : List Str :=
  ["caseCommitment", "actionCommitment", "executionCommitment", "outcomeCommitment",
    "receiptCommitment"].map js

theorem Commitments.keys_nodup : Commitments.keys.Nodup := by decide +kernel

instance : Codec Int Commitments where
  toJson a := record Commitments.keys
    [toJson a.caseCommitment, toJson a.actionCommitment, toJson a.executionCommitment,
      toJson a.outcomeCommitment, toJson a.receiptCommitment]
  ofJson v :=
    match fields Commitments.keys v with
    | some [v1, v2, v3, v4, v5] =>
      Commitments.mk <$> ofJson v1 <*> ofJson v2 <*> ofJson v3 <*> ofJson v4 <*> ofJson v5
    | _ => none
  ofJson_toJson a := by
    rw [fields_record Commitments.keys_nodup rfl]
    simp
  uniqueKeys_toJson a := uniqueKeys_record Commitments.keys_nodup rfl (by simp)
  toJson_ne_null _ := by simp [record]

structure ReceiptAnchor where
  chainTxHash : Option Str
  storageRootHash : Option Str
deriving DecidableEq, Inhabited

def ReceiptAnchor.keys : List Str := ["chainTxHash", "storageRootHash"].map js

theorem ReceiptAnchor.keys_nodup : ReceiptAnchor.keys.Nodup := by decide +kernel

instance : Codec Int ReceiptAnchor where
  toJson a := record ReceiptAnchor.keys
    [optionToJson a.chainTxHash, optionToJson a.storageRootHash]
  ofJson v :=
    match fields ReceiptAnchor.keys v with
    | some [v1, v2] => ReceiptAnchor.mk <$> optionOfJson v1 <*> optionOfJson v2
    | _ => none
  ofJson_toJson a := by
    rw [fields_record ReceiptAnchor.keys_nodup rfl]
    simp
  uniqueKeys_toJson a := uniqueKeys_record ReceiptAnchor.keys_nodup rfl (by simp)
  toJson_ne_null _ := by simp [record]

structure ReceiptApproval where
  verified : Bool
  approvedAt : Option Str
deriving DecidableEq, Inhabited

def ReceiptApproval.keys : List Str := ["verified", "approvedAt"].map js

theorem ReceiptApproval.keys_nodup : ReceiptApproval.keys.Nodup := by decide +kernel

instance : Codec Int ReceiptApproval where
  toJson a := record ReceiptApproval.keys [toJson a.verified, optionToJson a.approvedAt]
  ofJson v :=
    match fields ReceiptApproval.keys v with
    | some [v1, v2] => ReceiptApproval.mk <$> ofJson v1 <*> optionOfJson v2
    | _ => none
  ofJson_toJson a := by
    rw [fields_record ReceiptApproval.keys_nodup rfl]
    simp
  uniqueKeys_toJson a := uniqueKeys_record ReceiptApproval.keys_nodup rfl (by simp)
  toJson_ne_null _ := by simp [record]

structure ClawbackReceipt (C : Type := Int) where
  receiptId : Str
  caseId : Str
  category : CaseCategory
  status : ReceiptStatus
  environment : Environment
  actionTaken : Str
  outcome : Str
  claimedSavingsCents : C
  verifiedSavingsCents : Option C
  execution : ReceiptExecution
  commitments : Commitments
  anchor : ReceiptAnchor
  approval : ReceiptApproval
  createdAt : Str
deriving DecidableEq, Inhabited

def ClawbackReceipt.keys : List Str :=
  ["receiptId", "caseId", "category", "status", "environment", "actionTaken", "outcome",
    "claimedSavingsCents", "verifiedSavingsCents", "execution", "commitments", "anchor",
    "approval", "createdAt"].map js

theorem ClawbackReceipt.keys_nodup : ClawbackReceipt.keys.Nodup := by decide +kernel

instance : Codec Int ClawbackReceipt where
  toJson a := record ClawbackReceipt.keys
    [toJson a.receiptId, toJson a.caseId, toJson a.category, toJson a.status,
      toJson a.environment, toJson a.actionTaken, toJson a.outcome,
      toJson a.claimedSavingsCents, optionToJson a.verifiedSavingsCents, toJson a.execution,
      toJson a.commitments, toJson a.anchor, toJson a.approval, toJson a.createdAt]
  ofJson v :=
    match fields ClawbackReceipt.keys v with
    | some [v1, v2, v3, v4, v5, v6, v7, v8, v9, v10, v11, v12, v13, v14] =>
      ClawbackReceipt.mk <$> ofJson v1 <*> ofJson v2 <*> ofJson v3 <*> ofJson v4 <*>
        ofJson v5 <*> ofJson v6 <*> ofJson v7 <*> ofJson v8 <*> optionOfJson v9 <*>
        ofJson v10 <*> ofJson v11 <*> ofJson v12 <*> ofJson v13 <*> ofJson v14
    | _ => none
  ofJson_toJson a := by
    rw [fields_record ClawbackReceipt.keys_nodup rfl]
    simp
  uniqueKeys_toJson a := uniqueKeys_record ClawbackReceipt.keys_nodup rfl (by simp)
  toJson_ne_null _ := by simp [record]

/-! ## Field-by-field data-flow registry -/

inductive DataVisibility where
  | userOnly | attestedComputeOnly | isPublic
deriving DecidableEq, Inhabited

inductive DataLifetime where
  | ephemeralInMemory | encryptedAtRest | permanentPublic
deriving DecidableEq, Inhabited

/-- `keyof ClawbackReceipt["commitments"]` -/
inductive CommitmentField where
  | caseCommitment | actionCommitment | executionCommitment | outcomeCommitment
  | receiptCommitment
deriving DecidableEq, Inhabited

structure DataFlowEntry where
  field : Str
  visibility : DataVisibility
  lifetime : DataLifetime
  commitmentField : Option CommitmentField
deriving DecidableEq, Inhabited

/-- `DATA_FLOW_REGISTRY` -/
def dataFlowRegistry : List DataFlowEntry :=
  [{ field := js "merchantName"
     visibility := .attestedComputeOnly
     lifetime := .encryptedAtRest
     commitmentField := some .caseCommitment },
   { field := js "accountIdentifierLast4"
     visibility := .attestedComputeOnly
     lifetime := .encryptedAtRest
     commitmentField := some .caseCommitment },
   { field := js "subscriptionDetails"
     visibility := .attestedComputeOnly
     lifetime := .encryptedAtRest
     commitmentField := some .caseCommitment },
   { field := js "desiredOutcome"
     visibility := .attestedComputeOnly
     lifetime := .encryptedAtRest
     commitmentField := some .caseCommitment },
   { field := js "contactAddress"
     visibility := .attestedComputeOnly
     lifetime := .encryptedAtRest
     commitmentField := some .caseCommitment },
   { field := js "exactMessage"
     visibility := .userOnly
     lifetime := .encryptedAtRest
     commitmentField := some .actionCommitment },
   { field := js "claimedSavingsCents"
     visibility := .isPublic
     lifetime := .permanentPublic
     commitmentField := some .outcomeCommitment }]

end Clawback
