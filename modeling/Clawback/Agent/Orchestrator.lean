import Clawback.Agent.Store
import Clawback.Compute.Client
import Clawback.Receipts.Verifier
import Clawback.Shared.Money

/-!
# The orchestrator

The five methods of `Orchestrator`, as programs over the effects of the agent. The hash
function, the cipher and the encryption key are the same for all calls; the other
dependencies may differ from call to call.
-/

namespace Clawback

open Js Async

/-- What every call shares. -/
structure Platform where
  sha256Hex : Str → Str
  gcm : Gcm
  encryptionKey : Str

/-- The dependencies a call is made with. -/
structure OrchestratorDeps where
  compute : Option ComputeConfig
  source : Environment
  hasStorageClient : Bool
  hasAnchorClient : Bool
deriving DecidableEq, Inhabited

def proposalMismatchError : JsError :=
  .error (js "ProposalMismatchError")
    (js "The proposal being approved does not match the case's current proposal.")

/-- Reading the member `key` of `null`. -/
def nonNull {α : Type} (key : Str) : Option α → Except JsError α
  | some a => .ok a
  | none => .error (.error (js "TypeError")
      (js "Cannot read properties of null (reading '" ++ key ++ js "')"))

/-- A patch that needs no effect. -/
def purePatch (f : CaseRecord → CasePatch) (record : CaseRecord) : Action CasePatch :=
  return f record

section Methods

variable (env : Platform)

/-- `encryptAtRest`, with an initialisation vector of its own. -/
def encryptText (plaintext : Json Int) : Action EncryptedPayload := do
  let iv ← Prog.perform (Effect.randomBytes 12)
  Prog.lift (encryptAtRest env.gcm plaintext env.encryptionKey iv)

/-- `JSON.parse(json) as SubscriptionCaseInput` -/
def parseInput (json : Str) : Except JsError SubscriptionCaseInput :=
  match Codec.ofText (N := Int) json with
  | some input => .ok input
  | none => .error (.error (js "SyntaxError") (js "Unexpected token in JSON"))

/-- The input of a case, decrypted. -/
def decryptInput (record : CaseRecord) : Except JsError SubscriptionCaseInput := do
  let inputJson ← decryptAtRest env.gcm record.encryptedInput env.encryptionKey
  parseInput inputJson

/-! ## Submitting a case -/

def summarize (input : SubscriptionCaseInput) : Str :=
  js "Requesting: " ++ input.desiredOutcome

/-- `extractCents(input.desiredOutcome) ?? extractCents(input.subscriptionDetails)` -/
def estimateRecovery (input : SubscriptionCaseInput) : Option Int :=
  firstDollarCents input.desiredOutcome <|> firstDollarCents input.subscriptionDetails

/-- The text of a message. What is not a string is refused when it is encrypted, before
anything is stored of it. -/
def messageText (message : Value Int) : Str :=
  match message.json with
  | .str text => text
  | _ => []

def draftRecord (caseId ownerId : Str) (encryptedInput : EncryptedPayload)
    (environment : Environment) (now : Str) : CaseRecord where
  caseId
  ownerId
  category := .subscriptionCancellation
  state := .draft
  encryptedInput
  proposal := none
  encryptedProposalMessage := none
  approval := none
  execution := none
  outcome := none
  receipt := none
  settlement := none
  environment
  degradedReason := none
  createdAt := now
  updatedAt := now

/-- The patch of `PROPOSE_ACTION`. -/
def proposalPatch (proposal : ActionProposal) (analysis : AnalysisResult) (startedAt : Str)
    (current : CaseRecord) : Action CasePatch := do
  let encryptedProposalMessage ← encryptText env analysis.message.json
  let executionId ← newId (js "exec")
  let completedAt ← now
  return {
    proposal := some (some proposal)
    encryptedProposalMessage := some (some encryptedProposalMessage)
    execution := some (some
      { executionId
        caseId := current.caseId
        startedAt
        completedAt := some completedAt
        succeeded := true
        teeAttested := analysis.teeAttested
        attestationEvidence := analysis.attestation
        providerAddress := analysis.providerAddress
        inputCommitment := analysis.inputCommitment
        outputCommitment := analysis.outputCommitment
        errorMessage := none })
    degradedReason := some analysis.degradedReason }

def submitCase (deps : OrchestratorDeps) (ownerId : Str) (input : SubscriptionCaseInput) :
    Action CaseSummary := do
  let caseId ← newId (js "case")
  let startedAt ← now
  let encryptedInput ← encryptText env (.str (Json.stringify (toJson input : Json Int)))
  Prog.perform (Effect.create
    (draftRecord caseId ownerId encryptedInput deps.source startedAt))
  let _ ← transition caseId .submit (purePatch fun _ => {})
  let _ ← transition caseId .beginAnalysis (purePatch fun _ => {})
  let analysis ← analyze env.sha256Hex deps.compute input
  let proposalId ← newId (js "proposal")
  let createdAt ← now
  let proposal : ActionProposal :=
    { proposalId
      summary := summarize input
      exactMessage := messageText analysis.message
      estimatedRecoveryCents := estimateRecovery input
      createdAt }
  let _ ← transition caseId .proposeAction (proposalPatch env proposal analysis startedAt)
  let _ ← transition caseId .requestApproval (purePatch fun _ => {})
  let final ← Prog.perform (Effect.get caseId)
  return toSummary final

/-! ## Deciding on a proposal -/

def rejectProposal (caseId ownerId : Str) : Action CaseSummary := do
  let _ ← getForOwner caseId ownerId -- authorization check
  let record ← transition caseId .reject (purePatch fun _ => {})
  return toSummary record

/-- The current proposal, when it is the one that is approved. -/
def proposalToApprove (current : CaseRecord) (proposalId : Str) :
    Except JsError ActionProposal :=
  match current.proposal with
  | some proposal =>
    if proposal.proposalId = proposalId then .ok proposal else .error proposalMismatchError
  | none => .error proposalMismatchError

def verifyClaimedSavings (result : ProviderActionResult) : Option Int :=
  if result.claimedSavingsCents ≤ 0 then some result.claimedSavingsCents
  else match result.counterpartyConfirmation with
    | some confirmation => if confirmation = [] then none else some result.claimedSavingsCents
    | none => none

/-- The body of the `try` block around `sendAction`. -/
def sendForOutcome (caseId : Str) (input : SubscriptionCaseInput) (exactMessage : Str) :
    Action OutcomeEvidence := do
  let result ← Prog.perform (Effect.sendAction { caseId, input, exactMessage })
  let recordedAt ← now
  return {
    caseId
    outcomeType := result.outcomeType
    counterpartyConfirmation := result.counterpartyConfirmation
    claimedSavingsCents := result.claimedSavingsCents
    verifiedSavingsCents := verifyClaimedSavings result
    evidenceStrength := .trustedClaim
    recordedAt }

/-- The patch of `EXECUTION_FAILED` after an exception. -/
def failedExecutionPatch (message : Str) (record : CaseRecord) : CasePatch :=
  { execution := some (record.execution.map fun execution =>
      { execution with succeeded := false, errorMessage := some message }) }

def outcomeEvent (outcome : OutcomeEvidence) : CaseEvent :=
  if outcome.outcomeType = .noResponse then .executionFailed else .executionSucceeded

/-- The argument of `buildReceipt`; the members it reads may not be `null`. -/
def receiptInput (deps : OrchestratorDeps) (caseId : Str) (input : SubscriptionCaseInput)
    (afterOutcome : CaseRecord) : Except JsError BuildReceiptInput := do
  let proposal ← nonNull (js "proposalId") afterOutcome.proposal
  let approval ← nonNull (js "actionCommitment") afterOutcome.approval
  let execution ← nonNull (js "executionId") afterOutcome.execution
  let outcome ← nonNull (js "outcomeType") afterOutcome.outcome
  return { caseId, category := afterOutcome.category, input, proposal, approval, execution,
           outcome, environment := deps.source, anchor := none }

/-- The receipt with the root hash of its upload, when the upload succeeds. -/
def storeReceipt (deps : OrchestratorDeps) (receipt : ClawbackReceipt) :
    Action ClawbackReceipt :=
  if deps.hasStorageClient then do
    match ← (Prog.perform (Effect.uploadJson receipt) : Action StoredArtifact).attempt with
    | .ok stored =>
      return { receipt with anchor := { receipt.anchor with storageRootHash := some stored.rootHash } }
    | .error _ => return receipt
  else return receipt

/-- The receipt with the hash of its anchoring transaction, when anchoring succeeds. -/
def anchorReceipt (deps : OrchestratorDeps) (caseId : Str) (receipt : ClawbackReceipt) :
    Action ClawbackReceipt :=
  if deps.hasAnchorClient then do
    match ← (Prog.perform (Effect.anchorReceipt (commit env.sha256Hex (.str caseId))
      receipt.commitments.receiptCommitment none) : Action AnchorResult).attempt with
    | .ok anchored =>
      return { receipt with anchor := { receipt.anchor with chainTxHash := some anchored.txHash } }
    | .error _ => return receipt
  else return receipt

/-- The fee on verified savings. -/
def settle (caseId : Str) (outcome : OutcomeEvidence) : Action Unit :=
  match outcome.verifiedSavingsCents with
  | some savings =>
    if 0 < savings then do
      let fee ← Prog.lift (computeFee (some savings) defaultFeeBps)
      let _ ← Prog.perform (Effect.assessFee caseId fee)
      return ()
    else return ()
  | none => return ()

/-- What follows the outcome: the receipt, its anchors, the fee and the last transition. -/
def finalize (deps : OrchestratorDeps) (caseId : Str) (input : SubscriptionCaseInput)
    (outcome : OutcomeEvidence) (afterOutcome : CaseRecord) : Action CaseSummary := do
  let built ← Prog.lift (receiptInput deps caseId input afterOutcome)
  let receiptId ← newId (js "receipt")
  let createdAt ← now
  let receipt := buildReceipt env.sha256Hex receiptId createdAt built
  Prog.lift (assertNoSandboxLeakage receipt deps.source)
  let storedReceipt ← storeReceipt deps receipt
  let anchoredReceipt ← anchorReceipt env deps caseId storedReceipt
  settle caseId outcome
  let finalRecord ← transition caseId .outcomeConfirmed
    (purePatch fun _ => { receipt := some (some anchoredReceipt) })
  return toSummary finalRecord

/-- What follows the exception of a failed action. -/
def recordFailure (caseId : Str) (error : JsError) : Action CaseSummary := do
  let _ ← transition caseId .executionFailed (purePatch (failedExecutionPatch error.text))
  let record ← Prog.perform (Effect.get caseId)
  return toSummary record

/-- What follows the answer of the provider. -/
def recordOutcome (deps : OrchestratorDeps) (caseId : Str) (input : SubscriptionCaseInput)
    (outcome : OutcomeEvidence) : Action CaseSummary := do
  let afterOutcome ← transition caseId (outcomeEvent outcome)
    (purePatch fun _ => { outcome := some (some outcome) })
  if outcome.outcomeType = .noResponse then return toSummary afterOutcome
  else finalize env deps caseId input outcome afterOutcome

def approveAndExecute (deps : OrchestratorDeps) (caseId ownerId proposalId : Str) :
    Action CaseSummary := do
  let current ← getForOwner caseId ownerId
  let proposal ← Prog.lift (proposalToApprove current proposalId)
  let approvedAt ← now
  let approval : ApprovalRecord :=
    { caseId
      proposalId
      actionCommitment := commit env.sha256Hex (toJson proposal)
      approvedAt
      approvedBy := ownerId }
  let _ ← transition caseId .approve (purePatch fun _ => { approval := some (some approval) })
  let _ ← transition caseId .beginExecution (purePatch fun _ => {})
  let input ← Prog.lift (decryptInput env current)
  match ← (sendForOutcome caseId input proposal.exactMessage).attempt with
  | .error error => recordFailure caseId error
  | .ok outcome => recordOutcome env deps caseId input outcome

/-! ## Looking at a case -/

def getCase (caseId ownerId : Str) : Action CaseSummary := do
  let record ← getForOwner caseId ownerId
  return toSummary record

/-- `verifyCaseReceipt` on the record it has read. -/
def verifyRecord (caseId : Str) (record : CaseRecord) : Except JsError VerificationReport :=
  match record.receipt, record.proposal, record.approval, record.execution, record.outcome with
  | some receipt, some proposal, some approval, some execution, some outcome => do
    let input ← decryptInput env record
    return verifyReceipt env.sha256Hex receipt { input, proposal, approval, execution, outcome }
  | _, _, _, _, _ => .error (.ofMessage
      (js "Case " ++ caseId ++ js " has no finalized receipt to verify yet."))

def verifyCaseReceipt (caseId ownerId : Str) : Action VerificationReport := do
  let record ← getForOwner caseId ownerId
  Prog.lift (verifyRecord env caseId record)

end Methods

/-! ## The calls -/

inductive Call where
  | submitCase (deps : OrchestratorDeps) (ownerId : Str) (input : SubscriptionCaseInput)
  | rejectProposal (caseId ownerId : Str)
  | approveAndExecute (deps : OrchestratorDeps) (caseId ownerId proposalId : Str)
  | getCase (caseId ownerId : Str)
  | verifyCaseReceipt (caseId ownerId : Str)
  /-- The record of a case goes through its JSON text, as in `FileCaseStore`. -/
  | reload (caseId : Str)

inductive CallResult where
  | summary (summary : CaseSummary)
  | report (report : VerificationReport)
  | reloaded

/-- The program of a call. -/
def start (env : Platform) : Call → Action CallResult
  | .submitCase deps ownerId input => do
    let result ← submitCase env deps ownerId input
    return .summary result
  | .rejectProposal caseId ownerId => do
    let result ← rejectProposal caseId ownerId
    return .summary result
  | .approveAndExecute deps caseId ownerId proposalId => do
    let result ← approveAndExecute env deps caseId ownerId proposalId
    return .summary result
  | .getCase caseId ownerId => do
    let result ← getCase caseId ownerId
    return .summary result
  | .verifyCaseReceipt caseId ownerId => do
    let result ← verifyCaseReceipt env caseId ownerId
    return .report result
  | .reload caseId => do
    Prog.perform (Effect.reload caseId)
    return .reloaded

/-- Calls to the orchestrator that share a case store. -/
def agent (env : Platform) :
    System Call Effect Effect.Answer JsError World Choice CallResult where
  start := start env
  exec := exec

end Clawback
