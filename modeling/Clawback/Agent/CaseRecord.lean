import Clawback.Payments.Fee
import Clawback.Privacy.Encryption

/-!
# The record of a case

`CaseRecord` is what a store keeps of a case; `CasePatch` is a `Partial<CaseRecord>`, and
`CaseRecord.patched` spreads it over a record.
-/

namespace Clawback

open Js Codec

structure CaseRecord where
  caseId : Str
  ownerId : Str
  category : CaseCategory
  state : CaseState
  encryptedInput : EncryptedPayload
  proposal : Option ActionProposal
  encryptedProposalMessage : Option EncryptedPayload
  approval : Option ApprovalRecord
  execution : Option ExecutionEvidence
  outcome : Option OutcomeEvidence
  receipt : Option ClawbackReceipt
  settlement : Option SettlementRecord
  environment : Environment
  degradedReason : Option Str
  createdAt : Str
  updatedAt : Str

def CaseRecord.keys : List Str :=
  ["caseId", "ownerId", "category", "state", "encryptedInput", "proposal",
    "encryptedProposalMessage", "approval", "execution", "outcome", "receipt", "settlement",
    "environment", "degradedReason", "createdAt", "updatedAt"].map js

theorem CaseRecord.keys_nodup : CaseRecord.keys.Nodup := by decide +kernel

instance : Codec Int CaseRecord where
  toJson a := record CaseRecord.keys
    [toJson a.caseId, toJson a.ownerId, toJson a.category, toJson a.state,
      toJson a.encryptedInput, optionToJson a.proposal, optionToJson a.encryptedProposalMessage,
      optionToJson a.approval, optionToJson a.execution, optionToJson a.outcome,
      optionToJson a.receipt, optionToJson a.settlement, toJson a.environment,
      optionToJson a.degradedReason, toJson a.createdAt, toJson a.updatedAt]
  ofJson v :=
    match fields CaseRecord.keys v with
    | some [v1, v2, v3, v4, v5, v6, v7, v8, v9, v10, v11, v12, v13, v14, v15, v16] =>
      CaseRecord.mk <$> ofJson v1 <*> ofJson v2 <*> ofJson v3 <*> ofJson v4 <*> ofJson v5 <*>
        optionOfJson v6 <*> optionOfJson v7 <*> optionOfJson v8 <*> optionOfJson v9 <*>
        optionOfJson v10 <*> optionOfJson v11 <*> optionOfJson v12 <*> ofJson v13 <*>
        optionOfJson v14 <*> ofJson v15 <*> ofJson v16
    | _ => none
  ofJson_toJson a := by
    rw [fields_record CaseRecord.keys_nodup rfl]
    simp
  uniqueKeys_toJson a := uniqueKeys_record CaseRecord.keys_nodup rfl (by simp)
  toJson_ne_null _ := by simp [record]

/-- The view of a case that is returned to a caller. -/
structure CaseSummary where
  caseId : Str
  category : CaseCategory
  state : CaseState
  proposal : Option ActionProposal
  outcome : Option OutcomeEvidence
  receipt : Option ClawbackReceipt
  environment : Environment
  degradedReason : Option Str
  createdAt : Str
  updatedAt : Str

def toSummary (record : CaseRecord) : CaseSummary where
  caseId := record.caseId
  category := record.category
  state := record.state
  proposal := record.proposal
  outcome := record.outcome
  receipt := record.receipt
  environment := record.environment
  degradedReason := record.degradedReason
  createdAt := record.createdAt
  updatedAt := record.updatedAt

/-- `Partial<CaseRecord>` -/
structure CasePatch where
  caseId : Option Str := none
  ownerId : Option Str := none
  category : Option CaseCategory := none
  state : Option CaseState := none
  encryptedInput : Option EncryptedPayload := none
  proposal : Option (Option ActionProposal) := none
  encryptedProposalMessage : Option (Option EncryptedPayload) := none
  approval : Option (Option ApprovalRecord) := none
  execution : Option (Option ExecutionEvidence) := none
  outcome : Option (Option OutcomeEvidence) := none
  receipt : Option (Option ClawbackReceipt) := none
  settlement : Option (Option SettlementRecord) := none
  environment : Option Environment := none
  degradedReason : Option (Option Str) := none
  createdAt : Option Str := none
  updatedAt : Option Str := none

/-- `{ ...current, ...patch, state: nextState, updatedAt: now }` -/
def CaseRecord.patched (current : CaseRecord) (patch : CasePatch) (nextState : CaseState)
    (now : Str) : CaseRecord where
  caseId := patch.caseId.getD current.caseId
  ownerId := patch.ownerId.getD current.ownerId
  category := patch.category.getD current.category
  state := nextState
  encryptedInput := patch.encryptedInput.getD current.encryptedInput
  proposal := patch.proposal.getD current.proposal
  encryptedProposalMessage :=
    patch.encryptedProposalMessage.getD current.encryptedProposalMessage
  approval := patch.approval.getD current.approval
  execution := patch.execution.getD current.execution
  outcome := patch.outcome.getD current.outcome
  receipt := patch.receipt.getD current.receipt
  settlement := patch.settlement.getD current.settlement
  environment := patch.environment.getD current.environment
  degradedReason := patch.degradedReason.getD current.degradedReason
  createdAt := patch.createdAt.getD current.createdAt
  updatedAt := now

end Clawback
