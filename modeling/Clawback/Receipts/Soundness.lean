import Clawback.Receipts.Binding

/-!
# What a passing verification means

* `verifyReceipt_binds`: a receipt that passes and carries the anchored receipt commitment
  is the anchored one in every committed field, and so are its artifacts.
* `forged_field_rejected`: a receipt that keeps the anchored commitment cannot change its
  id, case, category, status or any other commitment. Display fields are outside the chain:
  `forged_action_passes`.
* `registered_fields_agree_iff`: when the commitments determine the fields of the data-flow
  registry.
-/

namespace Clawback

open Js

section Building

variable {C N : Type} [NumberText N] [Amount C N]

def BuildReceiptInput.artifacts (x : BuildReceiptInput C) : Artifacts C where
  input := x.input
  proposal := x.proposal
  approval := x.approval
  execution := x.execution
  outcome := x.outcome

/-- Builder and verifier compute the same commitments. -/
theorem buildReceipt_commitments (sha256Hex : Str → Str) (receiptId createdAt : Str)
    (x : BuildReceiptInput C) :
    (buildReceipt sha256Hex receiptId createdAt x).commitments =
      recomputedCommitments sha256Hex (buildReceipt sha256Hex receiptId createdAt x)
        x.artifacts := rfl

/-- A receipt passes against the artifacts it was built from. -/
theorem buildReceipt_passes {sha256Hex : Str → Str} {receiptId createdAt : Str}
    {x : BuildReceiptInput C} (hat : x.approval.approvedAt ≠ [])
    (hcommit : x.approval.actionCommitment ≠ []) :
    (verifyReceipt sha256Hex (buildReceipt sha256Hex receiptId createdAt x)
      x.artifacts).allCryptographicChecksPassed = true :=
  passed_iff.mpr ⟨buildReceipt_commitments sha256Hex receiptId createdAt x, hat, hcommit⟩

end Building

/-! ## The fixture of the tests -/

/-- `makeFixture()` -/
def fixture : BuildReceiptInput :=
  let proposal : ActionProposal :=
    { proposalId := js "proposal_1"
      summary := js "Request a refund for this month's unused subscription " ++
        js "and cancel future billing."
      exactMessage := js "Hello, I'd like to cancel my subscription " ++
        js "and request a refund for the current billing period, " ++
        js "which I did not use. Account ending 4242."
      estimatedRecoveryCents := some 1999
      createdAt := js "2026-01-01T00:00:00.000Z" }
  { caseId := js "case_1"
    category := .subscriptionCancellation
    input :=
      { merchantName := js "Acme Streaming"
        accountIdentifierLast4 := js "4242"
        subscriptionDetails := js "Premium plan, $19.99/month."
        desiredOutcome := js "Cancel and refund this month's charge."
        contactChannel := .sandbox
        contactAddress := js "sandbox@example.test" }
    proposal
    approval :=
      { caseId := js "case_1"
        proposalId := js "proposal_1"
        actionCommitment := commit Sha256.hex (toJson proposal)
        approvedAt := js "2026-01-01T00:00:01.000Z"
        approvedBy := js "user_test_1" }
    execution :=
      { executionId := js "exec_1"
        caseId := js "case_1"
        startedAt := js "2026-01-01T00:00:00.000Z"
        completedAt := some (js "2026-01-01T00:00:02.000Z")
        succeeded := true
        teeAttested := true
        attestationEvidence := some
          { providerAddress := js "0xProvider"
            model := some (js "test-model")
            chatId := .ofStr (js "chat_123")
            isValid := true
            verifiedAt := js "2026-01-01T00:00:02.000Z" }
        providerAddress := some (js "0xProvider")
        inputCommitment :=
          commit Sha256.hex (.obj [(js "merchantName", .str (js "Acme Streaming"))])
        outputCommitment := commit Sha256.hex (.obj [(js "output", .str (js "ok"))])
        errorMessage := none }
    outcome :=
      { caseId := js "case_1"
        outcomeType := .refundIssued
        counterpartyConfirmation := some (js "Sandbox confirmation: refund approved.")
        claimedSavingsCents := 1999
        verifiedSavingsCents := some 1999
        evidenceStrength := .trustedClaim
        recordedAt := js "2026-01-01T00:00:03.000Z" }
    environment := .sandbox
    anchor := none }

/-- The receipt of the fixture. -/
def fixtureReceipt : ClawbackReceipt :=
  buildReceipt Sha256.hex (js "receipt_1") (js "2026-01-01T00:00:04.000Z") fixture

theorem fixture_linked : Linked Sha256.hex fixtureReceipt fixture.artifacts :=
  passed_iff.mp (buildReceipt_passes (by decide) (commit_ne_nil _ _))

/-- With distinct digests there is no collision. -/
theorem noCollision_of_nodup {C N : Type} [NumberText N] [Amount C N] {sha256Hex : Str → Str}
    {receipt receipt' : ClawbackReceipt C} {artifacts artifacts' : Artifacts C}
    (hsame : committedTexts sha256Hex receipt' artifacts' =
      committedTexts sha256Hex receipt artifacts)
    (hdistinct : ((committedTexts sha256Hex receipt artifacts).map sha256Hex).Nodup) :
    NoCollision sha256Hex receipt artifacts receipt' artifacts' := by
  intro t ht t' ht' heq
  rw [Set.mem_ofPred_eq, hsame, or_self] at ht ht'
  exact List.inj_on_of_nodup_map hdistinct ht ht' heq

/-- The fixture without an attestation of the execution, and with a higher claim. -/
def tampered : BuildReceiptInput :=
  { fixture with
    execution := { fixture.execution with teeAttested := false }
    outcome := { fixture.outcome with claimedSavingsCents := 9999 } }

/-- The fixture with savings of another type of numbers. -/
def fixtureClaiming (cents : Number Int) : BuildReceiptInput (Number Int) :=
  { caseId := fixture.caseId
    category := fixture.category
    input := fixture.input
    proposal := fixture.proposal
    approval := fixture.approval
    execution := fixture.execution
    outcome :=
      { caseId := fixture.outcome.caseId
        outcomeType := fixture.outcome.outcomeType
        counterpartyConfirmation := fixture.outcome.counterpartyConfirmation
        claimedSavingsCents := cents
        verifiedSavingsCents := some cents
        evidenceStrength := fixture.outcome.evidenceStrength
        recordedAt := fixture.outcome.recordedAt }
    environment := fixture.environment
    anchor := fixture.anchor }

/-- The receipt of an infinite refund. -/
def infiniteReceipt : ClawbackReceipt (Number Int) :=
  buildReceipt Sha256.hex (js "receipt_1") (js "2026-01-01T00:00:04.000Z")
    (fixtureClaiming .infinity)

/-- The texts of the fixture, of its tampered stages, of its stages with infinite savings, of
its proposal and of its case id. -/
def fixtureTexts : List Str :=
  committedTexts Sha256.hex fixtureReceipt fixture.artifacts ++
    (committedTexts Sha256.hex fixtureReceipt tampered.artifacts).take 3 ++
    (committedTexts Sha256.hex infiniteReceipt (fixtureClaiming .infinity).artifacts).take 2 ++
    [canonicalize (toJson fixture.proposal : Json Int),
      canonicalize (.str (js "case_1") : Json Int)]

theorem fixtureTexts_nodup : (fixtureTexts.map Sha256.hex).Nodup := by
  decide +kernel

theorem fixture_digests_nodup :
    ((committedTexts Sha256.hex fixtureReceipt fixture.artifacts).map Sha256.hex).Nodup := by
  apply List.Nodup.sublist _ fixtureTexts_nodup
  apply List.Sublist.map
  exact ((List.sublist_append_left _ _).trans (List.sublist_append_left _ _)).trans
    (List.sublist_append_left _ _)

/-! ## Binding -/

section Binding

variable {C N : Type} [NumberText N] [Amount C N] {sha256Hex : Str → Str}
  {receipt receipt' : ClawbackReceipt C} {artifacts artifacts' : Artifacts C}

/-- Two receipts with one receipt commitment that both carry the commitments of their
artifacts agree on all that is committed. -/
theorem linked_agree
    (hno : NoCollision sha256Hex receipt artifacts receipt' artifacts')
    (h : receipt.commitments = recomputedCommitments sha256Hex receipt artifacts)
    (h' : receipt'.commitments = recomputedCommitments sha256Hex receipt' artifacts')
    (hanchor : receipt'.commitments.receiptCommitment = receipt.commitments.receiptCommitment) :
    artifacts'.caseArtifact receipt' = artifacts.caseArtifact receipt ∧
      artifacts'.stages receipt' = artifacts.stages receipt ∧
      receipt'.commitments = receipt.commitments := by
  have hfinal : recomputedReceiptCommitment sha256Hex receipt artifacts =
      recomputedReceiptCommitment sha256Hex receipt' artifacts' := by
    rw [h, h'] at hanchor
    exact hanchor.symm
  obtain ⟨hcase, hstages⟩ := committed_eq hno hfinal
  refine ⟨hcase.symm, hstages.symm, ?_⟩
  rw [h, h', recomputedCommitments_eq, recomputedCommitments_eq, hcase, hstages]

/-- The public fields that such receipts agree on. -/
theorem linked_fields_agree
    (hno : NoCollision sha256Hex receipt artifacts receipt' artifacts')
    (h : receipt.commitments = recomputedCommitments sha256Hex receipt artifacts)
    (h' : receipt'.commitments = recomputedCommitments sha256Hex receipt' artifacts')
    (hanchor : receipt'.commitments.receiptCommitment = receipt.commitments.receiptCommitment) :
    receipt'.receiptId = receipt.receiptId ∧ receipt'.caseId = receipt.caseId ∧
      receipt'.category = receipt.category ∧ receipt'.status = receipt.status ∧
      receipt'.commitments = receipt.commitments := by
  obtain ⟨hcase, hstages, hcommitments⟩ := linked_agree hno h h' hanchor
  simp only [Artifacts.stages, List.cons.injEq, StageArtifact.receipt.injEq] at hstages
  exact ⟨hstages.1.1, congrArg CaseArtifact.caseId hcase, congrArg CaseArtifact.category hcase,
    hstages.1.2, hcommitments⟩

end Binding

/-- **Binding.** If the hash function has no collision on the texts involved, a receipt
that passes verification and carries the receipt commitment of a built one agrees with it
on every committed field, and its artifacts agree with those it was built from. -/
theorem verifyReceipt_binds {sha256Hex : Str → Str} {receiptId createdAt : Str}
    {x : BuildReceiptInput} {receipt' : ClawbackReceipt} {artifacts' : Artifacts}
    (hno : NoCollision sha256Hex (buildReceipt sha256Hex receiptId createdAt x) x.artifacts
      receipt' artifacts')
    (hpass : (verifyReceipt sha256Hex receipt' artifacts').allCryptographicChecksPassed = true)
    (hanchor : receipt'.commitments.receiptCommitment =
      (buildReceipt sha256Hex receiptId createdAt x).commitments.receiptCommitment) :
    (receipt'.receiptId = receiptId ∧
      receipt'.caseId = x.caseId ∧
      receipt'.category = x.category ∧
      receipt'.status = deriveStatus x ∧
      receipt'.commitments = (buildReceipt sha256Hex receiptId createdAt x).commitments) ∧
    (artifacts'.input.merchantName = x.input.merchantName ∧
      artifacts'.input.accountIdentifierLast4 = x.input.accountIdentifierLast4) ∧
    (artifacts'.proposal.proposalId = x.proposal.proposalId ∧
      artifacts'.proposal.exactMessage = x.proposal.exactMessage) ∧
    (artifacts'.approval.actionCommitment = x.approval.actionCommitment ∧
      artifacts'.approval.approvedAt = x.approval.approvedAt) ∧
    (artifacts'.execution.executionId = x.execution.executionId ∧
      artifacts'.execution.inputCommitment = x.execution.inputCommitment ∧
      artifacts'.execution.outputCommitment = x.execution.outputCommitment ∧
      artifacts'.execution.teeAttested = x.execution.teeAttested ∧
      artifacts'.execution.providerAddress = x.execution.providerAddress) ∧
    (artifacts'.outcome.outcomeType = x.outcome.outcomeType ∧
      artifacts'.outcome.claimedSavingsCents = x.outcome.claimedSavingsCents ∧
      artifacts'.outcome.verifiedSavingsCents = x.outcome.verifiedSavingsCents) := by
  have hbuilt := buildReceipt_commitments sha256Hex receiptId createdAt x
  have hlinked := (passed_iff.mp hpass).commitments
  have hfields := linked_fields_agree hno hbuilt hlinked hanchor
  obtain ⟨hcase, hstages, -⟩ := linked_agree hno hbuilt hlinked hanchor
  simp only [Artifacts.caseArtifact, CaseArtifact.mk.injEq] at hcase
  simp only [Artifacts.stages, List.cons.injEq, StageArtifact.outcome.injEq,
    StageArtifact.execution.injEq, StageArtifact.action.injEq, and_true, finite?_int,
    Option.some.injEq, Option.bind_fun_some] at hstages
  obtain ⟨-, -, hmerchant, hlast4⟩ := hcase
  obtain ⟨-, houtcome, hexecution, haction⟩ := hstages
  obtain ⟨hproposalId, hmessage, happrovalId, happrovedAt⟩ := haction
  exact ⟨hfields, ⟨hmerchant, hlast4⟩, ⟨hproposalId, hmessage⟩, ⟨happrovalId, happrovedAt⟩,
    hexecution, houtcome⟩

theorem verifyReceipt_binds_fixture :
    fixtureReceipt.receiptId = js "receipt_1" ∧
      fixture.artifacts.proposal.exactMessage = fixture.proposal.exactMessage := by
  have h := verifyReceipt_binds (x := fixture) (noCollision_of_nodup rfl fixture_digests_nodup)
    (passed_iff.mpr fixture_linked) rfl
  exact ⟨h.1.1, h.2.2.1.2⟩

/-! ## Forged fields -/

section Forged

variable {C N : Type} [NumberText N] [Amount C N]

/-- What the anchor protects: a receipt that keeps the receipt commitment but changes its
id, case, category, status or another commitment is rejected, and so is one that only
changes commitments, and every one whose commitments are not chained anew from its own id,
case, category and status and from the artifacts. One whose commitments are, and that keeps
the labels of environment and attestation, passes whatever else it shows. -/
theorem forged_field_rejected {sha256Hex : Str → Str} {receiptId createdAt : Str}
    {x : BuildReceiptInput C} {receipt receipt' : ClawbackReceipt C}
    (hbuilt : receipt = buildReceipt sha256Hex receiptId createdAt x)
    (hno : NoCollision sha256Hex receipt x.artifacts receipt' x.artifacts) :
    (receipt'.commitments.receiptCommitment = receipt.commitments.receiptCommitment →
      (receipt'.receiptId ≠ receipt.receiptId ∨ receipt'.caseId ≠ receipt.caseId ∨
        receipt'.category ≠ receipt.category ∨ receipt'.status ≠ receipt.status ∨
        receipt'.commitments ≠ receipt.commitments) →
      (verifyReceipt sha256Hex receipt' x.artifacts).allCryptographicChecksPassed = false) ∧
    (receipt'.receiptId = receipt.receiptId → receipt'.caseId = receipt.caseId →
      receipt'.category = receipt.category → receipt'.status = receipt.status →
      receipt'.commitments ≠ receipt.commitments →
      (verifyReceipt sha256Hex receipt' x.artifacts).allCryptographicChecksPassed = false) ∧
    (receipt'.commitments ≠ stageCommitments sha256Hex (x.artifacts.caseArtifact receipt')
        (x.artifacts.stages receipt') →
      (verifyReceipt sha256Hex receipt' x.artifacts).allCryptographicChecksPassed = false) ∧
    (x.approval.approvedAt ≠ [] → x.approval.actionCommitment ≠ [] →
      receipt'.environment = receipt.environment →
      receipt'.execution.teeAttested = receipt.execution.teeAttested →
      receipt'.commitments = stageCommitments sha256Hex (x.artifacts.caseArtifact receipt')
        (x.artifacts.stages receipt') →
      (verifyReceipt sha256Hex receipt' x.artifacts).allCryptographicChecksPassed = true) := by
  subst hbuilt
  refine ⟨?_, ?_, fun hforged => ?_, fun hat hcommit _ _ hchained => ?_⟩
  · intro hanchor hforged
    rw [← Bool.not_eq_true]
    intro hpass
    obtain ⟨hreceiptId, hcaseId, hcategory, hstatus, hcommitments⟩ :=
      linked_fields_agree hno (buildReceipt_commitments sha256Hex receiptId createdAt x)
        (passed_iff.mp hpass).commitments hanchor
    rcases hforged with h | h | h | h | h
    · exact h hreceiptId
    · exact h hcaseId
    · exact h hcategory
    · exact h hstatus
    · exact h hcommitments
  · intro hreceiptId hcaseId hcategory hstatus hforged
    rw [← Bool.not_eq_true]
    intro hpass
    apply hforged
    rw [(passed_iff.mp hpass).commitments, recomputedCommitments_eq, Artifacts.caseArtifact,
      Artifacts.stages, hreceiptId, hcaseId, hcategory, hstatus]
    rfl
  · rw [← Bool.not_eq_true]
    intro hpass
    apply hforged
    rw [← recomputedCommitments_eq]
    exact (passed_iff.mp hpass).commitments
  · rw [← recomputedCommitments_eq] at hchained
    exact passed_iff.mpr ⟨hchained, hat, hcommit⟩

end Forged

/-- The receipt of the fixture without its case commitment. -/
def withoutCaseCommitment : ClawbackReceipt :=
  { fixtureReceipt with
    commitments := { fixtureReceipt.commitments with caseCommitment := [] } }

theorem forged_field_rejected_commitment :
    (verifyReceipt Sha256.hex withoutCaseCommitment
      fixture.artifacts).allCryptographicChecksPassed = false := by
  have hno : NoCollision Sha256.hex fixtureReceipt fixture.artifacts withoutCaseCommitment
      fixture.artifacts := noCollision_of_nodup rfl fixture_digests_nodup
  apply (forged_field_rejected rfl hno).1 rfl
  refine Or.inr (Or.inr (Or.inr (Or.inr fun h => ?_)))
  have hcase := congrArg Commitments.caseCommitment h
  exact commit_ne_nil _ _ hcase.symm

/-- The verdict does not depend on the summary of the action. -/
theorem linked_actionTaken {sha256Hex : Str → Str} {receipt : ClawbackReceipt}
    {artifacts : Artifacts} (actionTaken : Str) (h : Linked sha256Hex receipt artifacts) :
    Linked sha256Hex { receipt with actionTaken } artifacts :=
  ⟨h.commitments, h.approvedAt, h.actionCommitment⟩

/-- The receipt of the fixture with another summary of what was done. -/
def forgedAction : ClawbackReceipt :=
  { fixtureReceipt with actionTaken := js "Requested a refund of all charges since 2020." }

/-- The summary of the action is not committed to: a receipt with another one passes. -/
theorem forged_action_passes :
    fixture.approval.approvedAt ≠ [] ∧ fixture.approval.actionCommitment ≠ [] ∧
      NoCollision Sha256.hex fixtureReceipt fixture.artifacts forgedAction
        fixture.artifacts ∧
      forgedAction.actionTaken ≠ fixtureReceipt.actionTaken ∧
      (verifyReceipt Sha256.hex forgedAction
        fixture.artifacts).allCryptographicChecksPassed = true :=
  ⟨by decide, commit_ne_nil _ _, noCollision_of_nodup rfl fixture_digests_nodup, by decide,
    passed_iff.mpr (linked_actionTaken _ fixture_linked)⟩

/-! ## The fields of the registry -/

section Registry

variable {C N : Type} [NumberText N] [Amount C N] {sha256Hex : Str → Str}
  {receipt : ClawbackReceipt C} {artifacts artifacts' : Artifacts C}

/-- What the data-flow registry names among the artifacts: texts and an amount. -/
def Artifacts.registered (artifacts : Artifacts C) : List (Str × (Str ⊕ C)) :=
  [(js "merchantName", .inl artifacts.input.merchantName),
    (js "accountIdentifierLast4", .inl artifacts.input.accountIdentifierLast4),
    (js "subscriptionDetails", .inl artifacts.input.subscriptionDetails),
    (js "desiredOutcome", .inl artifacts.input.desiredOutcome),
    (js "contactAddress", .inl artifacts.input.contactAddress),
    (js "exactMessage", .inl artifacts.proposal.exactMessage),
    (js "claimedSavingsCents", .inr artifacts.outcome.claimedSavingsCents)]

/-- Two sets of artifacts agree on every field that has a commitment in the registry. -/
def RegisteredAgree (artifacts artifacts' : Artifacts C) : Prop :=
  ∀ entry ∈ dataFlowRegistry, entry.commitmentField ≠ none →
    artifacts.registered.lookup entry.field = artifacts'.registered.lookup entry.field

/-- Seven fields have a commitment in the registry. -/
theorem registeredAgree_iff :
    RegisteredAgree artifacts artifacts' ↔
      artifacts.input.merchantName = artifacts'.input.merchantName ∧
      artifacts.input.accountIdentifierLast4 = artifacts'.input.accountIdentifierLast4 ∧
      artifacts.input.subscriptionDetails = artifacts'.input.subscriptionDetails ∧
      artifacts.input.desiredOutcome = artifacts'.input.desiredOutcome ∧
      artifacts.input.contactAddress = artifacts'.input.contactAddress ∧
      artifacts.proposal.exactMessage = artifacts'.proposal.exactMessage ∧
      artifacts.outcome.claimedSavingsCents = artifacts'.outcome.claimedSavingsCents := by
  have hmerchant : ∀ a : Artifacts C, a.registered.lookup (js "merchantName") =
      some (.inl a.input.merchantName) := fun _ => rfl
  have hlast4 : ∀ a : Artifacts C, a.registered.lookup (js "accountIdentifierLast4") =
      some (.inl a.input.accountIdentifierLast4) := fun _ => rfl
  have hdetails : ∀ a : Artifacts C, a.registered.lookup (js "subscriptionDetails") =
      some (.inl a.input.subscriptionDetails) := fun _ => rfl
  have hdesired : ∀ a : Artifacts C, a.registered.lookup (js "desiredOutcome") =
      some (.inl a.input.desiredOutcome) := fun _ => rfl
  have haddress : ∀ a : Artifacts C, a.registered.lookup (js "contactAddress") =
      some (.inl a.input.contactAddress) := fun _ => rfl
  have hmessage : ∀ a : Artifacts C, a.registered.lookup (js "exactMessage") =
      some (.inl a.proposal.exactMessage) := fun _ => rfl
  have hclaimed : ∀ a : Artifacts C, a.registered.lookup (js "claimedSavingsCents") =
      some (.inr a.outcome.claimedSavingsCents) := fun _ => rfl
  simp only [RegisteredAgree, dataFlowRegistry, List.forall_mem_cons, List.not_mem_nil,
    hmerchant, hlast4, hdetails, hdesired, haddress, hmessage, hclaimed, ne_eq,
    reduceCtorEq, not_false_eq_true, forall_const, Option.some.injEq, Sum.inl.injEq,
    Sum.inr.injEq, IsEmpty.forall_iff, and_true]

/-- The commitments determine every registered field exactly when the two sets of
artifacts agree on the three fields that the case commitment leaves out, and on the claimed
savings if these are not finite. -/
theorem registered_fields_agree_iff
    (hno : NoCollision sha256Hex receipt artifacts receipt artifacts')
    (hpass : (verifyReceipt sha256Hex receipt artifacts).allCryptographicChecksPassed = true)
    (hpass' : (verifyReceipt sha256Hex receipt artifacts').allCryptographicChecksPassed =
      true) :
    RegisteredAgree artifacts artifacts' ↔
      artifacts.input.subscriptionDetails = artifacts'.input.subscriptionDetails ∧
      artifacts.input.desiredOutcome = artifacts'.input.desiredOutcome ∧
      artifacts.input.contactAddress = artifacts'.input.contactAddress ∧
      (Amount.finite? artifacts.outcome.claimedSavingsCents = none →
        artifacts.outcome.claimedSavingsCents = artifacts'.outcome.claimedSavingsCents) := by
  obtain ⟨hcase, hstages, -⟩ := linked_agree hno (passed_iff.mp hpass).commitments
    (passed_iff.mp hpass').commitments rfl
  simp only [Artifacts.caseArtifact, CaseArtifact.mk.injEq] at hcase
  simp only [Artifacts.stages, List.cons.injEq, StageArtifact.outcome.injEq,
    StageArtifact.action.injEq, and_true] at hstages
  obtain ⟨-, -, hmerchant, hlast4⟩ := hcase
  obtain ⟨-, ⟨-, hfinite, -⟩, -, ⟨-, hmessage, -, -⟩⟩ := hstages
  rw [registeredAgree_iff]
  constructor
  · rintro ⟨-, -, hdetails, hdesired, haddress, -, hclaimed⟩
    exact ⟨hdetails, hdesired, haddress, fun _ => hclaimed⟩
  · rintro ⟨hdetails, hdesired, haddress, hclaimed⟩
    refine ⟨hmerchant.symm, hlast4.symm, hdetails, hdesired, haddress, hmessage.symm, ?_⟩
    cases hvalue : Amount.finite? artifacts.outcome.claimedSavingsCents with
    | none => exact hclaimed hvalue
    | some n => exact Amount.eq_of_finite? hvalue (hfinite.trans hvalue)

end Registry

/-- The artifacts with other details of the subscription. -/
def Artifacts.withDetails (artifacts : Artifacts) (subscriptionDetails : Str) : Artifacts :=
  { artifacts with input := { artifacts.input with subscriptionDetails } }

/-- The verdict does not depend on the details of the subscription. -/
theorem linked_withDetails {sha256Hex : Str → Str} {receipt : ClawbackReceipt}
    {artifacts : Artifacts} (details : Str) (h : Linked sha256Hex receipt artifacts) :
    Linked sha256Hex receipt (artifacts.withDetails details) :=
  ⟨h.commitments, h.approvedAt, h.actionCommitment⟩

theorem committedTexts_withDetails (sha256Hex : Str → Str) (receipt : ClawbackReceipt)
    (artifacts : Artifacts) (details : Str) :
    committedTexts sha256Hex receipt (artifacts.withDetails details) =
      committedTexts sha256Hex receipt artifacts := rfl

/-- The artifacts of the fixture for a subscription at ten times the price. -/
def otherDetails : Artifacts := fixture.artifacts.withDetails (js "Premium plan, $199.90/month.")

theorem registered_fields_agree_iff_otherDetails :
    RegisteredAgree fixture.artifacts otherDetails ↔
      fixture.input.subscriptionDetails = otherDetails.input.subscriptionDetails ∧
      fixture.input.desiredOutcome = otherDetails.input.desiredOutcome ∧
      fixture.input.contactAddress = otherDetails.input.contactAddress ∧
      (Amount.finite? fixture.outcome.claimedSavingsCents = none →
        fixture.outcome.claimedSavingsCents = otherDetails.outcome.claimedSavingsCents) :=
  registered_fields_agree_iff
    (noCollision_of_nodup (committedTexts_withDetails _ _ _ _) fixture_digests_nodup)
    (passed_iff.mpr fixture_linked) (passed_iff.mpr (linked_withDetails _ fixture_linked))

/-- Two sets of artifacts pass against one receipt, and differ in a registered field. -/
theorem unregistered_details_pass :
    NoCollision Sha256.hex fixtureReceipt fixture.artifacts fixtureReceipt otherDetails ∧
      (verifyReceipt Sha256.hex fixtureReceipt
        fixture.artifacts).allCryptographicChecksPassed = true ∧
      (verifyReceipt Sha256.hex fixtureReceipt otherDetails).allCryptographicChecksPassed =
        true ∧
      ¬ RegisteredAgree fixture.artifacts otherDetails := by
  refine ⟨noCollision_of_nodup (committedTexts_withDetails _ _ _ _) fixture_digests_nodup,
    passed_iff.mpr fixture_linked, passed_iff.mpr (linked_withDetails _ fixture_linked), ?_⟩
  rw [registeredAgree_iff]
  rintro ⟨-, -, hdetails, -⟩
  exact absurd hdetails (by decide)

end Clawback
