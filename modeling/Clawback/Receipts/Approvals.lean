import Clawback.Receipts.Soundness

/-!
# The approved action

The verifier computes whether an approval matches the proposal on file, but the verdict does
not depend on it, nor on the case that the approval and the evidence are of. So a passing
verification means that the approved action is the executed one exactly when the artifacts
were made so.

* `commits_iff`: what an approval commits to determines the proposal it was given for.
* `passed_implies_approved_iff`: the condition on how approval and evidence were made, for any
  artifacts.
-/

namespace Clawback

open Js

/-- The approval on file is an approval of this proposal, and all evidence is about the
receipt's case. -/
structure Approved {C : Type} (sha256Hex : Str → Str) (receipt : ClawbackReceipt C)
    (artifacts : Artifacts C) : Prop where
  action : artifacts.approval.actionCommitment = commit sha256Hex (toJson artifacts.proposal) ∨
    artifacts.approval.actionCommitment =
      commit sha256Hex (.str artifacts.proposal.exactMessage)
  proposalId : artifacts.approval.proposalId = artifacts.proposal.proposalId
  approvalCase : artifacts.approval.caseId = receipt.caseId
  executionCase : artifacts.execution.caseId = receipt.caseId
  outcomeCase : artifacts.outcome.caseId = receipt.caseId

/-! ## An approval of something else -/

/-- The artifacts with the approval made out for another proposal of another case. -/
def Artifacts.withApprovalOf (artifacts : Artifacts) (caseId proposalId : Str) : Artifacts :=
  { artifacts with approval := { artifacts.approval with caseId, proposalId } }

/-- The verdict does not depend on the case and the proposal an approval is for. -/
theorem linked_withApprovalOf {sha256Hex : Str → Str} {receipt : ClawbackReceipt}
    {artifacts : Artifacts} (caseId proposalId : Str)
    (h : Linked sha256Hex receipt artifacts) :
    Linked sha256Hex receipt (artifacts.withApprovalOf caseId proposalId) :=
  ⟨h.commitments, h.approvedAt, h.actionCommitment⟩

def strangeApproval : Artifacts :=
  fixture.artifacts.withApprovalOf (js "case_2") (js "proposal_2")

/-- An approval of another proposal in another case passes verification. -/
theorem strange_approval_passes :
    (verifyReceipt Sha256.hex fixtureReceipt strangeApproval).allCryptographicChecksPassed =
        true ∧
      strangeApproval.approval.proposalId ≠ strangeApproval.proposal.proposalId ∧
      strangeApproval.approval.caseId ≠ fixtureReceipt.caseId :=
  ⟨passed_iff.mpr (linked_withApprovalOf _ _ fixture_linked), by decide, by decide⟩

/-! ## How an approval is given -/

/-- What an approval commits to: the proposal, in this implementation, or its bare message.
The verifier checks both shapes. -/
inductive ApprovalShape where
  | proposal
  | exactMessage

def ApprovalShape.value : ApprovalShape → ActionProposal → Json Int
  | .proposal, approved => toJson approved
  | .exactMessage, approved => .str approved.exactMessage

/-- The approval was given for the proposal `approved` in the case `givenIn`. -/
structure GivenFor (sha256Hex : Str → Str) (shape : ApprovalShape) (approved : ActionProposal)
    (givenIn : Str) (approval : ApprovalRecord) : Prop where
  caseId : approval.caseId = givenIn
  proposalId : approval.proposalId = approved.proposalId
  action : approval.actionCommitment = commit sha256Hex (shape.value approved)

/-- The approval given for `approved` in the case `givenIn` was given for the proposal on file
in the case `caseId`, and the evidence was recorded there. -/
structure MadeFor {C : Type} (shape : ApprovalShape) (approved : ActionProposal)
    (givenIn caseId : Str) (artifacts : Artifacts C) : Prop where
  action : shape.value approved = shape.value artifacts.proposal
  proposalId : approved.proposalId = artifacts.proposal.proposalId
  approvalCase : givenIn = caseId
  executionCase : artifacts.execution.caseId = caseId
  outcomeCase : artifacts.outcome.caseId = caseId

/-- The approval was given for no proposal. -/
def Ungiven (sha256Hex : Str → Str) (approval : ApprovalRecord) : Prop :=
  ∀ shape approved givenIn, ¬GivenFor sha256Hex shape approved givenIn approval

/-- The hash function has no collision on what was approved and the proposal on file. -/
def ApprovalNoCollision (sha256Hex : Str → Str) (shape : ApprovalShape)
    (approved proposal : ActionProposal) : Prop :=
  Set.InjOn sha256Hex
    {canonicalize (shape.value approved), canonicalize (toJson proposal : Json Int),
      canonicalize (.str proposal.exactMessage : Json Int)}

/-- A proposal is read back from its canonical text. -/
theorem ActionProposal.eq_of_keyPerm {p q : ActionProposal}
    (h : Json.KeyPerm (toJson p : Json Int) (toJson q)) : p = q := by
  obtain ⟨proposalId, summary, exactMessage, estimated, createdAt⟩ := p
  obtain ⟨proposalId', summary', exactMessage', estimated', createdAt'⟩ := q
  have hoption : ∀ x : Option Int, (Codec.optionToJson x : Json Int) = .ofOption .num x := by
    intro x
    cases x <;> rfl
  have hmembers := Json.KeyPerm.members h rfl ActionProposal.keys_nodup
  simp only [ActionProposal.keys, List.map_cons, List.map_nil, List.zip_cons_cons,
    List.zip_nil_right, Json.keyPermMembers_cons, Json.keyPermMembers_nil, true_and,
    and_true, hoption] at hmembers
  obtain ⟨hid, hsummary, hmessage, hestimated, hcreated⟩ := hmembers
  rw [Json.keyPerm_str.mp hid, Json.keyPerm_str.mp hsummary, Json.keyPerm_str.mp hmessage,
    ofOption_num_injective hestimated, Json.keyPerm_str.mp hcreated]

/-- A proposal is not a message. -/
theorem not_keyPerm_str (p : ActionProposal) (s : Str) :
    ¬Json.KeyPerm (toJson p : Json Int) (.str s) := by
  intro h
  cases h

theorem ApprovalShape.uniqueKeys (shape : ApprovalShape) (approved : ActionProposal) :
    (shape.value approved).UniqueKeys := by
  cases shape with
  | proposal => exact Codec.uniqueKeys_toJson approved
  | exactMessage => trivial

/-- What an approval commits to is the proposal on file, or its message, exactly when it was
given for it. -/
theorem commits_iff {sha256Hex : Str → Str} {shape : ApprovalShape}
    {approved proposal : ActionProposal}
    (hno : ApprovalNoCollision sha256Hex shape approved proposal) :
    commit sha256Hex (shape.value approved) = commit sha256Hex (toJson proposal) ∨
        commit sha256Hex (shape.value approved) = commit sha256Hex (.str proposal.exactMessage) ↔
      shape.value approved = shape.value proposal := by
  have hread : ∀ {v : Json Int}, v.UniqueKeys →
      canonicalize v ∈ ({canonicalize (shape.value approved),
        canonicalize (toJson proposal : Json Int),
        canonicalize (.str proposal.exactMessage : Json Int)} : Set Str) →
      commit sha256Hex (shape.value approved) = commit sha256Hex v →
        Json.KeyPerm (shape.value approved) v := fun hv hmem h =>
    (canonicalize_eq_iff (shape.uniqueKeys approved) hv).mp
      (hno (Or.inl rfl) hmem (List.append_cancel_left h))
  constructor
  · rintro (h | h)
    · have hperm := hread (Codec.uniqueKeys_toJson proposal) (Or.inr (Or.inl rfl)) h
      cases shape with
      | proposal => exact congrArg _ (ActionProposal.eq_of_keyPerm hperm)
      | exactMessage => cases hperm
    · have hstr : (Json.str proposal.exactMessage : Json Int).UniqueKeys := trivial
      have hperm := hread hstr (Or.inr (Or.inr rfl)) h
      cases shape with
      | proposal => exact absurd hperm (not_keyPerm_str _ _)
      | exactMessage => exact congrArg Json.str (Json.keyPerm_str.mp hperm)
  · intro h
    rw [h]
    cases shape with
    | proposal => exact .inl rfl
    | exactMessage => exact .inr rfl

/-! ## What a passing verification means for the approval -/

section Artifacts

variable {C N : Type} [NumberText N] [Amount C N] {sha256Hex : Str → Str}
  {shape : ApprovalShape} {approved : ActionProposal} {givenIn : Str} {artifacts : Artifacts C}

/-- The approved action is the one on file exactly when the artifacts were made so. -/
theorem approved_iff (hgiven : GivenFor sha256Hex shape approved givenIn artifacts.approval)
    (hno : ApprovalNoCollision sha256Hex shape approved artifacts.proposal)
    (receipt : ClawbackReceipt C) :
    Approved sha256Hex receipt artifacts ↔
      MadeFor shape approved givenIn receipt.caseId artifacts := by
  have haction := commits_iff hno
  rw [← hgiven.action] at haction
  constructor
  · intro h
    exact ⟨haction.mp h.action, hgiven.proposalId.symm.trans h.proposalId,
      hgiven.caseId.symm.trans h.approvalCase, h.executionCase, h.outcomeCase⟩
  · intro h
    exact ⟨haction.mpr h.action, hgiven.proposalId.trans h.proposalId,
      hgiven.caseId.trans h.approvalCase, h.executionCase, h.outcomeCase⟩

/-- In every case there is a receipt that passes against given artifacts with an approval. -/
theorem exists_passing (sha256Hex : Str → Str) {artifacts : Artifacts C} (caseId : Str)
    (hat : artifacts.approval.approvedAt ≠ [])
    (hcommit : artifacts.approval.actionCommitment ≠ []) :
    ∃ receipt : ClawbackReceipt C, receipt.caseId = caseId ∧
      (verifyReceipt sha256Hex receipt artifacts).allCryptographicChecksPassed = true := by
  let x : BuildReceiptInput C :=
    { caseId, category := .subscriptionCancellation, input := artifacts.input
      proposal := artifacts.proposal, approval := artifacts.approval
      execution := artifacts.execution, outcome := artifacts.outcome, environment := .sandbox
      anchor := none }
  exact ⟨buildReceipt sha256Hex [] [] x, rfl, buildReceipt_passes (x := x) hat hcommit⟩

theorem approval_of_passed {receipt : ClawbackReceipt C}
    (h : (verifyReceipt sha256Hex receipt artifacts).allCryptographicChecksPassed = true) :
    artifacts.approval.approvedAt ≠ [] ∧ artifacts.approval.actionCommitment ≠ [] :=
  ⟨(passed_iff.mp h).approvedAt, (passed_iff.mp h).actionCommitment⟩

/-- An approval of the proposal on file was given for it. -/
theorem Ungiven.not_approved (h : Ungiven sha256Hex artifacts.approval)
    (receipt : ClawbackReceipt C) : ¬Approved sha256Hex receipt artifacts := by
  intro happroved
  rcases happroved.action with hproposal | hmessage
  · exact h .proposal _ _ ⟨rfl, happroved.proposalId, hproposal⟩
  · exact h .exactMessage _ _ ⟨rfl, happroved.proposalId, hmessage⟩

/-- All receipts of the case that pass against the artifacts stand for an approved action. -/
def PassedMeansApproved (sha256Hex : Str → Str) (caseId : Str) (artifacts : Artifacts C) : Prop :=
  ∀ receipt : ClawbackReceipt C, receipt.caseId = caseId →
    (verifyReceipt sha256Hex receipt artifacts).allCryptographicChecksPassed = true →
      Approved sha256Hex receipt artifacts

/-- Without an approval nothing passes. -/
theorem passedMeansApproved_of_none (caseId : Str)
    (h : artifacts.approval.approvedAt = [] ∨ artifacts.approval.actionCommitment = []) :
    PassedMeansApproved sha256Hex caseId artifacts := by
  intro receipt _ hpass
  obtain ⟨hat, hcommit⟩ := approval_of_passed hpass
  rcases h with hnone | hnone
  · exact absurd hnone hat
  · exact absurd hnone hcommit

/-- Where the approval was given for something, that has to be the proposal on file. -/
theorem passedMeansApproved_iff
    (hgiven : GivenFor sha256Hex shape approved givenIn artifacts.approval)
    (hno : ApprovalNoCollision sha256Hex shape approved artifacts.proposal) (caseId : Str) :
    PassedMeansApproved sha256Hex caseId artifacts ↔
      artifacts.approval.approvedAt = [] ∨ MadeFor shape approved givenIn caseId artifacts := by
  constructor
  · intro h
    by_cases hat : artifacts.approval.approvedAt = []
    · exact .inl hat
    · have hcommit : artifacts.approval.actionCommitment ≠ [] := by
        rw [hgiven.action]
        exact commit_ne_nil _ _
      obtain ⟨receipt, rfl, hpass⟩ := exists_passing sha256Hex caseId hat hcommit
      exact .inr ((approved_iff hgiven hno receipt).mp (h receipt rfl hpass))
  · rintro (hat | hmade)
    · exact passedMeansApproved_of_none caseId (.inl hat)
    · rintro receipt rfl _
      exact (approved_iff hgiven hno receipt).mpr hmade

theorem Ungiven.passedMeansApproved_iff (h : Ungiven sha256Hex artifacts.approval)
    (caseId : Str) : PassedMeansApproved sha256Hex caseId artifacts ↔
      artifacts.approval.approvedAt = [] ∨ artifacts.approval.actionCommitment = [] := by
  constructor
  · intro hmeans
    by_contra hsome
    obtain ⟨hat, hcommit⟩ := not_or.mp hsome
    obtain ⟨receipt, hcase, hpass⟩ := exists_passing sha256Hex caseId hat hcommit
    exact h.not_approved receipt (hmeans receipt hcase hpass)
  · exact passedMeansApproved_of_none caseId

/-- A receipt that passes stands for an approved action exactly when the approval was given
for the proposal on file, in the receipt's case, and the evidence was recorded there. All
receipts of a case that pass do so exactly when this holds of the case, or when there is no
approval. An approval that was given for nothing makes no receipt stand for an approved
action. -/
theorem passed_implies_approved_iff (sha256Hex : Str → Str) (artifacts : Artifacts C) :
    (∀ shape approved givenIn, GivenFor sha256Hex shape approved givenIn artifacts.approval →
      ApprovalNoCollision sha256Hex shape approved artifacts.proposal →
      (∀ receipt : ClawbackReceipt C,
        (verifyReceipt sha256Hex receipt artifacts).allCryptographicChecksPassed = true →
          (Approved sha256Hex receipt artifacts ↔
            MadeFor shape approved givenIn receipt.caseId artifacts)) ∧
      ∀ caseId, PassedMeansApproved sha256Hex caseId artifacts ↔
        artifacts.approval.approvedAt = [] ∨ MadeFor shape approved givenIn caseId artifacts) ∧
    (Ungiven sha256Hex artifacts.approval →
      (∀ receipt : ClawbackReceipt C, ¬Approved sha256Hex receipt artifacts) ∧
      ∀ caseId, PassedMeansApproved sha256Hex caseId artifacts ↔
        artifacts.approval.approvedAt = [] ∨ artifacts.approval.actionCommitment = []) := by
  refine ⟨fun shape approved givenIn hgiven hno => ⟨?_, ?_⟩, fun hungiven => ⟨?_, ?_⟩⟩
  · exact fun receipt _ => approved_iff hgiven hno receipt
  · exact passedMeansApproved_iff hgiven hno
  · exact hungiven.not_approved
  · exact hungiven.passedMeansApproved_iff

end Artifacts

/-- The fixture's approval was given for its proposal. -/
theorem fixture_given :
    GivenFor Sha256.hex .proposal fixture.proposal (js "case_1") fixture.artifacts.approval :=
  ⟨rfl, rfl, rfl⟩

theorem fixture_approvalNoCollision :
    ApprovalNoCollision Sha256.hex .proposal fixture.proposal fixture.artifacts.proposal := by
  have hdistinct : Sha256.hex (canonicalize (toJson fixture.proposal : Json Int)) ≠
      Sha256.hex (canonicalize (.str fixture.proposal.exactMessage : Json Int)) := by
    decide +kernel
  change Set.InjOn Sha256.hex {canonicalize (toJson fixture.proposal : Json Int),
    canonicalize (toJson fixture.proposal : Json Int),
    canonicalize (.str fixture.proposal.exactMessage : Json Int)}
  rw [Set.insert_idem]
  exact Set.injOn_pair.mpr fun h => absurd h hdistinct

/-- The fixture's artifacts with an approval that commits to nothing. -/
def emptyApproval : Artifacts :=
  { fixture.artifacts with
    approval := { fixture.artifacts.approval with actionCommitment := js "approved" } }

theorem emptyApproval_ungiven : Ungiven Sha256.hex emptyApproval.approval := by
  intro shape approved givenIn h
  have hhead := congrArg List.head? h.action
  rw [commit, List.head?_append_of_ne_nil _ (by decide)] at hhead
  exact absurd hhead (by decide)

/-- Every receipt of the fixture's case that passes against its artifacts is of the approved
action, and not every receipt of another case that passes is, nor of its own case with an approval
that commits to nothing. -/
theorem passed_implies_approved_iff_fixture :
    PassedMeansApproved Sha256.hex (js "case_1") fixture.artifacts ∧
      ¬PassedMeansApproved Sha256.hex (js "case_2") fixture.artifacts ∧
      ¬PassedMeansApproved Sha256.hex (js "case_1") emptyApproval := by
  have hfixture := ((passed_implies_approved_iff Sha256.hex fixture.artifacts).1 _ _ _
    fixture_given fixture_approvalNoCollision).2
  have hempty :=
    ((passed_implies_approved_iff Sha256.hex emptyApproval).2 emptyApproval_ungiven).2
  refine ⟨(hfixture (js "case_1")).mpr (.inr ⟨rfl, rfl, rfl, rfl, rfl⟩), ?_, ?_⟩
  · intro hother
    rcases (hfixture (js "case_2")).mp hother with hat | hmade
    · exact absurd hat (by decide)
    · exact absurd hmade.approvalCase (by decide)
  · intro hown
    rcases (hempty (js "case_1")).mp hown with hat | hcommit
    · exact absurd hat (by decide)
    · exact absurd hcommit (by decide)

end Clawback
