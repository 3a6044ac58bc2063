import Clawback.Receipts.Soundness

/-!
# The commitments of the stages

What each of the five commitments of a receipt is about, on its own.

* `commitment_eq_iff`: a commitment of one stage is a commitment of another receipt exactly
  when it is one of the same stage and all that was committed up to there agrees.
* `tampering_localised`: a first change at one stage fails the checks from that stage on, and
  no check before it, if the savings are finite: what is not finite is committed to as `null`.
* `stages_separate`: no commitment stands in for one of another stage, for the commitment of
  a proposal or for the commitment of a text.
-/

namespace Clawback

open Js

/-- The place of a stage in the chain. -/
def CommitmentField.position : CommitmentField → Nat
  | caseCommitment => 0
  | actionCommitment => 1
  | executionCommitment => 2
  | outcomeCommitment => 3
  | receiptCommitment => 4

theorem CommitmentField.position_injective : Function.Injective position := by
  intro i j h
  cases i <;> cases j <;> first | rfl | cases h

theorem CommitmentField.position_lt (i : CommitmentField) : i.position < 5 := by
  cases i <;> decide

theorem CommitmentField.forall_iff {P : CommitmentField → Prop} : (∀ i, P i) ↔
    P .caseCommitment ∧ P .actionCommitment ∧ P .executionCommitment ∧ P .outcomeCommitment ∧
      P .receiptCommitment := by
  constructor
  · intro h
    exact ⟨h _, h _, h _, h _, h _⟩
  · rintro ⟨hcase, haction, hexecution, houtcome, hreceipt⟩ i
    cases i <;> assumption

/-- The commitment of a stage. -/
def Commitments.get (commitments : Commitments) : CommitmentField → Str
  | .caseCommitment => commitments.caseCommitment
  | .actionCommitment => commitments.actionCommitment
  | .executionCommitment => commitments.executionCommitment
  | .outcomeCommitment => commitments.outcomeCommitment
  | .receiptCommitment => commitments.receiptCommitment

section Agreement

variable {C N : Type} [Amount C N] (receipt : ClawbackReceipt C)
  (artifacts : Artifacts C) (receipt' : ClawbackReceipt C) (artifacts' : Artifacts C)

/-- The fields that a stage commits to agree. -/
def StageAgrees : CommitmentField → Prop
  | .caseCommitment =>
    receipt.caseId = receipt'.caseId ∧ receipt.category = receipt'.category ∧
      artifacts.input.merchantName = artifacts'.input.merchantName ∧
      artifacts.input.accountIdentifierLast4 = artifacts'.input.accountIdentifierLast4
  | .actionCommitment =>
    artifacts.proposal.proposalId = artifacts'.proposal.proposalId ∧
      artifacts.proposal.exactMessage = artifacts'.proposal.exactMessage ∧
      artifacts.approval.actionCommitment = artifacts'.approval.actionCommitment ∧
      artifacts.approval.approvedAt = artifacts'.approval.approvedAt
  | .executionCommitment =>
    artifacts.execution.executionId = artifacts'.execution.executionId ∧
      artifacts.execution.inputCommitment = artifacts'.execution.inputCommitment ∧
      artifacts.execution.outputCommitment = artifacts'.execution.outputCommitment ∧
      artifacts.execution.teeAttested = artifacts'.execution.teeAttested ∧
      artifacts.execution.providerAddress = artifacts'.execution.providerAddress
  | .outcomeCommitment =>
    artifacts.outcome.outcomeType = artifacts'.outcome.outcomeType ∧
      artifacts.outcome.claimedSavingsCents = artifacts'.outcome.claimedSavingsCents ∧
      artifacts.outcome.verifiedSavingsCents = artifacts'.outcome.verifiedSavingsCents
  | .receiptCommitment =>
    receipt.receiptId = receipt'.receiptId ∧ receipt.status = receipt'.status

/-- What a stage commits to agrees: savings that are not finite are all the same to it. -/
def StageCommitted : CommitmentField → Prop
  | .outcomeCommitment =>
    artifacts.outcome.outcomeType = artifacts'.outcome.outcomeType ∧
      Amount.finite? artifacts.outcome.claimedSavingsCents =
        Amount.finite? artifacts'.outcome.claimedSavingsCents ∧
      artifacts.outcome.verifiedSavingsCents.bind Amount.finite? =
        artifacts'.outcome.verifiedSavingsCents.bind Amount.finite?
  | i => StageAgrees receipt artifacts receipt' artifacts' i

end Agreement

/-- The savings of an outcome are finite numbers; the verified ones may be missing. -/
structure OutcomeEvidence.FiniteSavings {C N : Type} [Amount C N] (outcome : OutcomeEvidence C) :
    Prop where
  claimed : Amount.finite? outcome.claimedSavingsCents ≠ none
  verified : ∀ cents ∈ outcome.verifiedSavingsCents, Amount.finite? cents ≠ none

/-- Whole numbers of cents are finite. -/
theorem OutcomeEvidence.finiteSavings (outcome : OutcomeEvidence) : outcome.FiniteSavings :=
  ⟨Option.some_ne_none _, fun _ _ => Option.some_ne_none _⟩

section Finite

variable {C N : Type} [Amount C N]

theorem eq_of_finite?_eq {a b : C} (ha : Amount.finite? a ≠ none)
    (h : Amount.finite? a = Amount.finite? b) : a = b := by
  obtain ⟨n, hn⟩ := Option.ne_none_iff_exists'.mp ha
  exact Amount.eq_of_finite? hn (h ▸ hn)

theorem eq_of_bind_finite?_eq {a b : Option C} (ha : ∀ cents ∈ a, Amount.finite? cents ≠ none)
    (hb : ∀ cents ∈ b, Amount.finite? cents ≠ none)
    (h : a.bind Amount.finite? = b.bind Amount.finite?) : a = b := by
  cases a with
  | none =>
    cases b with
    | none => rfl
    | some b => exact absurd h.symm (hb b rfl)
  | some a =>
    cases b with
    | none => exact absurd h (ha a rfl)
    | some b => rw [eq_of_finite?_eq (ha a rfl) h]

end Finite

section

variable {C N : Type} [Amount C N] {receipt receipt' : ClawbackReceipt C}
  {artifacts artifacts' : Artifacts C}

theorem StageAgrees.committed {i : CommitmentField}
    (h : StageAgrees receipt artifacts receipt' artifacts' i) :
    StageCommitted receipt artifacts receipt' artifacts' i := by
  cases i with
  | outcomeCommitment =>
    obtain ⟨htype, hclaimed, hverified⟩ := h
    exact ⟨htype, congrArg _ hclaimed, by rw [hverified]⟩
  | _ => exact h

/-- With finite savings a stage commits to its fields. -/
theorem stageCommitted_iff {i : CommitmentField}
    (hfinite : i = .outcomeCommitment →
      artifacts.outcome.FiniteSavings ∧ artifacts'.outcome.FiniteSavings) :
    StageCommitted receipt artifacts receipt' artifacts' i ↔
      StageAgrees receipt artifacts receipt' artifacts' i := by
  refine ⟨fun h => ?_, StageAgrees.committed⟩
  cases i with
  | outcomeCommitment =>
    obtain ⟨hf, hf'⟩ := hfinite rfl
    obtain ⟨htype, hclaimed, hverified⟩ := h
    exact ⟨htype, eq_of_finite?_eq hf.claimed hclaimed,
      eq_of_bind_finite?_eq hf.verified hf'.verified hverified⟩
  | _ => exact h

/-- The chains up to a stage are the same exactly when what is committed up to it agrees. -/
theorem stages_drop_eq_iff (i : CommitmentField) :
    (artifacts.caseArtifact receipt = artifacts'.caseArtifact receipt' ∧
      (artifacts.stages receipt).drop (4 - i.position) =
        (artifacts'.stages receipt').drop (4 - i.position)) ↔
    ∀ j : CommitmentField, j.position ≤ i.position →
      StageCommitted receipt artifacts receipt' artifacts' j := by
  rw [CommitmentField.forall_iff]
  cases i <;>
    simp [Artifacts.caseArtifact, Artifacts.stages, StageCommitted, StageAgrees,
      CommitmentField.position, and_comm, and_assoc, and_left_comm]

/-- The chains up to different stages differ in length. -/
theorem position_eq_of_stages_drop_eq {i j : CommitmentField}
    (h : (artifacts.stages receipt).drop (4 - i.position) =
      (artifacts'.stages receipt').drop (4 - j.position)) : i = j := by
  have hlength := congrArg List.length h
  simp only [List.length_drop, Artifacts.stages, List.length_cons, List.length_nil] at hlength
  have hi := i.position_lt
  have hj := j.position_lt
  apply CommitmentField.position_injective
  omega

variable [NumberText N] {sha256Hex : Str → Str}

/-- The commitment of a stage is a digest of the chain. -/
theorem get_recomputedCommitments (i : CommitmentField) :
    (recomputedCommitments sha256Hex receipt artifacts).get i =
      HashChain.digest (textDigest sha256Hex) stageLayout (artifacts.caseArtifact receipt)
        ((artifacts.stages receipt).drop (4 - i.position)) := by
  cases i <;> rfl

/-- Two commitments are equal exactly when they are of one stage and all that is committed up
to it agrees. -/
theorem commitment_eq_iff (hno : NoCollision sha256Hex receipt artifacts receipt' artifacts')
    (i j : CommitmentField) :
    (recomputedCommitments sha256Hex receipt artifacts).get i =
        (recomputedCommitments sha256Hex receipt' artifacts').get j ↔
      i = j ∧ ∀ k : CommitmentField, k.position ≤ i.position →
        StageCommitted receipt artifacts receipt' artifacts' k := by
  rw [get_recomputedCommitments, get_recomputedCommitments,
    HashChain.digest_drop_eq_iff hno.chain]
  constructor
  · rintro ⟨hcase, hstages⟩
    obtain rfl := position_eq_of_stages_drop_eq hstages
    exact ⟨rfl, (stages_drop_eq_iff i).mp ⟨hcase, hstages⟩⟩
  · rintro ⟨rfl, hagree⟩
    exact (stages_drop_eq_iff i).mpr hagree

/-- The hash function has no collision among the texts of a receipt and one more text. -/
def NoCollisionWith (sha256Hex : Str → Str) (receipt : ClawbackReceipt C)
    (artifacts : Artifacts C) (text : Str) : Prop :=
  Set.InjOn sha256Hex {t | t ∈ committedTexts sha256Hex receipt artifacts ∨ t = text}

/-- A text that is neither the one of a case nor one of a chained artifact has a digest of its
own. -/
theorem commitment_ne_digest {text : Str}
    (hcase : ∀ a : CaseArtifact, canonicalize (a.json : Json N) ≠ text)
    (hchained : ∀ d (a : StageArtifact N), canonicalize (chained (some d) a.json) ≠ text)
    (hno : NoCollisionWith sha256Hex receipt artifacts text) (i : CommitmentField) :
    (recomputedCommitments sha256Hex receipt artifacts).get i ≠ textDigest sha256Hex text := by
  have hinj : Set.InjOn (textDigest sha256Hex)
      {t | t ∈ committedTexts sha256Hex receipt artifacts ∨ t = text} :=
    fun _ ht _ ht' heq => hno ht ht' (List.append_cancel_left heq)
  rw [get_recomputedCommitments]
  exact HashChain.digest_ne hinj (hcase _) hchained _

theorem commitment_ne_commit_proposal (proposal : ActionProposal)
    (hno : NoCollisionWith sha256Hex receipt artifacts (canonicalize (toJson proposal : Json Int)))
    (i : CommitmentField) : (recomputedCommitments sha256Hex receipt artifacts).get i ≠
      commit sha256Hex (toJson proposal) := by
  refine commitment_ne_digest (fun a h => ?_) (fun d a h => ?_) hno i
  · exact absurd (firstKey_eq_of_canonicalize h)
      (by decide +kernel : firstKey CaseArtifact.keys ≠ firstKey ActionProposal.keys)
  · exact absurd (firstKey_eq_of_canonicalize h)
      (by decide +kernel : firstKey [js "previous", js "artifact"] ≠ firstKey ActionProposal.keys)

theorem commitment_ne_commit_str (s : Str)
    (hno : NoCollisionWith sha256Hex receipt artifacts (canonicalize (.str s : Json Int)))
    (i : CommitmentField) : (recomputedCommitments sha256Hex receipt artifacts).get i ≠
      commit sha256Hex (.str s) := by
  -- a text begins with a quotation mark
  refine commitment_ne_digest (fun a h => ?_) (fun d a h => ?_) hno i
  · exact absurd (List.cons.inj h).1 (by decide)
  · exact absurd (List.cons.inj h).1 (by decide)

end

/-! ## Tampering with the fixture -/

theorem injOn_fixtureTexts : Set.InjOn Sha256.hex {t | t ∈ fixtureTexts} :=
  fun _ ht _ ht' heq => List.inj_on_of_nodup_map fixtureTexts_nodup ht ht' heq

theorem committedTexts_fixture_subset {t : Str}
    (h : t ∈ committedTexts Sha256.hex fixtureReceipt fixture.artifacts) : t ∈ fixtureTexts :=
  List.mem_append_left _ (List.mem_append_left _ (List.mem_append_left _ h))

/-- The stages before the execution are those of the fixture. -/
theorem committedTexts_tampered_subset {t : Str}
    (h : t ∈ committedTexts Sha256.hex fixtureReceipt tampered.artifacts) : t ∈ fixtureTexts := by
  rw [← List.take_append_drop 3 (committedTexts _ _ _)] at h
  rcases List.mem_append.mp h with hnew | hold
  · exact List.mem_append_left _ (List.mem_append_left _ (List.mem_append_right _ hnew))
  · rw [committedTexts, HashChain.texts_drop _ (by decide : 3 ≤ 4)] at hold
    exact committedTexts_fixture_subset (HashChain.texts_drop_subset _ _ 3 hold)

/-- The stages before the outcome are those of the fixture. -/
theorem committedTexts_infinite_subset {t : Str}
    (h : t ∈ committedTexts Sha256.hex infiniteReceipt (fixtureClaiming .infinity).artifacts) :
    t ∈ fixtureTexts := by
  rw [← List.take_append_drop 2 (committedTexts _ _ _)] at h
  rcases List.mem_append.mp h with hnew | hold
  · exact List.mem_append_left _ (List.mem_append_right _ hnew)
  · rw [committedTexts, HashChain.texts_drop _ (by decide : 2 ≤ 4)] at hold
    have hsame : ∀ t, t ∈ HashChain.texts (textDigest Sha256.hex) stageLayout
        (fixture.artifacts.caseArtifact fixtureReceipt)
        ((fixture.artifacts.stages fixtureReceipt).drop 2) → t ∈ fixtureTexts :=
      fun t ht => committedTexts_fixture_subset (HashChain.texts_drop_subset _ _ 2 ht)
    exact hsame t hold

theorem noCollision_tampered : NoCollision Sha256.hex fixtureReceipt fixture.artifacts
    fixtureReceipt tampered.artifacts := by
  apply injOn_fixtureTexts.mono
  rintro t (h | h)
  · exact committedTexts_fixture_subset h
  · exact committedTexts_tampered_subset h

/-- Savings that are no number at all have the texts of infinite ones. -/
theorem noCollision_infinite : NoCollision Sha256.hex infiniteReceipt
    (fixtureClaiming .infinity).artifacts infiniteReceipt (fixtureClaiming .nan).artifacts := by
  apply injOn_fixtureTexts.mono
  rintro t (h | h)
  · exact committedTexts_infinite_subset h
  · exact committedTexts_infinite_subset h

/-! ## The checks of the verifier -/

/-- The question under which the verifier checks a commitment. -/
def CommitmentField.question : CommitmentField → Str
  | caseCommitment =>
    js "Does the case artifact match the commitment recorded in this receipt?"
  | actionCommitment =>
    js "Does the approved action match the commitment chained into this receipt?"
  | executionCommitment =>
    js "Does the recorded execution match the commitment chained into this receipt?"
  | outcomeCommitment =>
    js "Does the recorded outcome match the commitment chained into this receipt?"
  | receiptCommitment =>
    js "Does the receipt's final commitment match a fresh recomputation of its own receiptId and status?"

/-- The result of the check of a commitment. -/
def VerificationReport.commitmentCheck (report : VerificationReport) (i : CommitmentField) :
    Option Bool :=
  (report.checks.find? fun check => check.question == i.question).map (·.result)

theorem commitmentCheck_verifyReceipt {C N : Type} [NumberText N] [Amount C N]
    (sha256Hex : Str → Str) (receipt : ClawbackReceipt C) (artifacts : Artifacts C)
    (i : CommitmentField) :
    (verifyReceipt sha256Hex receipt artifacts).commitmentCheck i =
      some ((recomputedCommitments sha256Hex receipt artifacts).get i ==
        receipt.commitments.get i) := by
  cases i <;> rfl

section

variable {C N : Type} [NumberText N] [Amount C N] {sha256Hex : Str → Str}
  {receiptId createdAt : Str} {x : BuildReceiptInput C}

/-- The check of a commitment succeeds exactly when all that is committed up to it is what the
receipt was built from. -/
theorem commitmentCheck_buildReceipt {artifacts' : Artifacts C}
    (hno : NoCollision sha256Hex (buildReceipt sha256Hex receiptId createdAt x) x.artifacts
      (buildReceipt sha256Hex receiptId createdAt x) artifacts') (i : CommitmentField) :
    (verifyReceipt sha256Hex (buildReceipt sha256Hex receiptId createdAt x)
        artifacts').commitmentCheck i = some true ↔
      ∀ j : CommitmentField, j.position ≤ i.position →
        StageCommitted (buildReceipt sha256Hex receiptId createdAt x) x.artifacts
          (buildReceipt sha256Hex receiptId createdAt x) artifacts' j := by
  rw [commitmentCheck_verifyReceipt, buildReceipt_commitments, Option.some.injEq, beq_iff_eq,
    eq_comm, commitment_eq_iff hno]
  exact and_iff_right rfl

theorem commitmentCheck_ne_none (receipt : ClawbackReceipt C) (artifacts : Artifacts C)
    (i : CommitmentField) :
    (verifyReceipt sha256Hex receipt artifacts).commitmentCheck i = some true ∨
      (verifyReceipt sha256Hex receipt artifacts).commitmentCheck i = some false := by
  rw [commitmentCheck_verifyReceipt]
  cases (recomputedCommitments sha256Hex receipt artifacts).get i == receipt.commitments.get i
  · exact .inr rfl
  · exact .inl rfl

/-- Artifacts that first differ from those of a receipt at one stage, whatever they are behind
it: the checks of the commitments before that stage succeed, and those of the stage itself, of
the stages behind it and of the receipt commitment fail. If they first differ in the outcome,
the savings have to be finite. -/
theorem tampering_localised {artifacts' : Artifacts C} {k : CommitmentField}
    (hno : NoCollision sha256Hex (buildReceipt sha256Hex receiptId createdAt x) x.artifacts
      (buildReceipt sha256Hex receiptId createdAt x) artifacts')
    (hbefore : ∀ j : CommitmentField, j.position < k.position →
      StageAgrees (buildReceipt sha256Hex receiptId createdAt x) x.artifacts
        (buildReceipt sha256Hex receiptId createdAt x) artifacts' j)
    (hfirst : ¬ StageAgrees (buildReceipt sha256Hex receiptId createdAt x) x.artifacts
      (buildReceipt sha256Hex receiptId createdAt x) artifacts' k)
    (hfinite : k = .outcomeCommitment →
      x.outcome.FiniteSavings ∧ artifacts'.outcome.FiniteSavings) :
    (∀ j : CommitmentField, j.position < k.position →
      (verifyReceipt sha256Hex (buildReceipt sha256Hex receiptId createdAt x)
        artifacts').commitmentCheck j = some true) ∧
    (∀ j : CommitmentField, k.position ≤ j.position →
      (verifyReceipt sha256Hex (buildReceipt sha256Hex receiptId createdAt x)
        artifacts').commitmentCheck j = some false) ∧
    (verifyReceipt sha256Hex (buildReceipt sha256Hex receiptId createdAt x)
      artifacts').commitmentCheck .receiptCommitment = some false := by
  have hlater : ∀ j : CommitmentField, k.position ≤ j.position →
      (verifyReceipt sha256Hex (buildReceipt sha256Hex receiptId createdAt x)
        artifacts').commitmentCheck j = some false := by
    intro j hj
    refine (commitmentCheck_ne_none _ _ j).resolve_left fun htrue => ?_
    have hcommitted := (commitmentCheck_buildReceipt hno j).mp htrue k hj
    exact hfirst ((stageCommitted_iff hfinite).mp hcommitted)
  refine ⟨fun j hj => ?_, hlater, hlater _ (Nat.le_of_lt_succ k.position_lt)⟩
  apply (commitmentCheck_buildReceipt hno j).mpr
  intro i hi
  exact (hbefore i (hi.trans_lt hj)).committed

theorem tampering_localised_execution :
    (verifyReceipt Sha256.hex fixtureReceipt tampered.artifacts).commitmentCheck
        .actionCommitment = some true ∧
      (verifyReceipt Sha256.hex fixtureReceipt tampered.artifacts).commitmentCheck
        .receiptCommitment = some false := by
  have hbefore : ∀ j : CommitmentField, j.position < CommitmentField.executionCommitment.position →
      StageAgrees fixtureReceipt fixture.artifacts fixtureReceipt tampered.artifacts j := by
    intro j hj
    cases j with
    | caseCommitment => exact ⟨rfl, rfl, rfl, rfl⟩
    | actionCommitment => exact ⟨rfl, rfl, rfl, rfl⟩
    | _ => exact absurd hj (by decide)
  have hfirst : ¬ StageAgrees fixtureReceipt fixture.artifacts fixtureReceipt tampered.artifacts
      .executionCommitment := fun h => Bool.noConfusion h.2.2.2.1
  obtain ⟨hkept, -, hreceipt⟩ := tampering_localised noCollision_tampered hbefore hfirst
    fun h => nomatch h
  exact ⟨hkept .actionCommitment (by decide), hreceipt⟩

/-- A change of infinite savings into `NaN` is not noticed. -/
theorem infinite_change_passes :
    NoCollision Sha256.hex infiniteReceipt (fixtureClaiming .infinity).artifacts
      infiniteReceipt (fixtureClaiming .nan).artifacts ∧
    (∀ j : CommitmentField, j.position < CommitmentField.outcomeCommitment.position →
      StageAgrees infiniteReceipt (fixtureClaiming .infinity).artifacts infiniteReceipt
        (fixtureClaiming .nan).artifacts j) ∧
    ¬ StageAgrees infiniteReceipt (fixtureClaiming .infinity).artifacts infiniteReceipt
      (fixtureClaiming .nan).artifacts .outcomeCommitment ∧
    (verifyReceipt Sha256.hex infiniteReceipt
      (fixtureClaiming .nan).artifacts).commitmentCheck .outcomeCommitment = some true ∧
    (verifyReceipt Sha256.hex infiniteReceipt
      (fixtureClaiming .nan).artifacts).commitmentCheck .receiptCommitment = some true := by
  have hcommitted : ∀ j : CommitmentField,
      StageCommitted infiniteReceipt (fixtureClaiming .infinity).artifacts infiniteReceipt
        (fixtureClaiming .nan).artifacts j := by
    intro j
    cases j with
    | caseCommitment => exact ⟨rfl, rfl, rfl, rfl⟩
    | actionCommitment => exact ⟨rfl, rfl, rfl, rfl⟩
    | executionCommitment => exact ⟨rfl, rfl, rfl, rfl, rfl⟩
    | outcomeCommitment => exact ⟨rfl, rfl, rfl⟩
    | receiptCommitment => exact ⟨rfl, rfl⟩
  refine ⟨noCollision_infinite, fun j hj => ?_, fun h => (nomatch h.2.1), ?_, ?_⟩
  · refine (stageCommitted_iff ?_).mp (hcommitted j)
    rintro rfl
    exact absurd hj (by decide)
  · exact (commitmentCheck_buildReceipt noCollision_infinite _).mpr fun j _ => hcommitted j
  · exact (commitmentCheck_buildReceipt noCollision_infinite _).mpr fun j _ => hcommitted j

/-- No commitment of a stage stands in for one of another stage, of this or another receipt,
for the commitment of a proposal or for that of a text. Two commitments of one stage from the
outcome on are told apart if the savings are finite. -/
theorem stages_separate (sha256Hex : Str → Str) (x y : BuildReceiptInput C)
    (receiptId createdAt receiptId' createdAt' : Str) (r r' : ClawbackReceipt C)
    (hr : r = buildReceipt sha256Hex receiptId createdAt x)
    (hr' : r' = buildReceipt sha256Hex receiptId' createdAt' y) :
    (NoCollision sha256Hex r x.artifacts r' y.artifacts → ∀ i j : CommitmentField,
      (i = j → CommitmentField.outcomeCommitment.position ≤ i.position →
        x.outcome.FiniteSavings ∧ y.outcome.FiniteSavings) →
      (r.commitments.get i = r'.commitments.get j ↔
        i = j ∧ ∀ k : CommitmentField, k.position ≤ i.position →
          StageAgrees r x.artifacts r' y.artifacts k)) ∧
    (∀ proposal : ActionProposal,
      NoCollisionWith sha256Hex r x.artifacts (canonicalize (toJson proposal : Json Int)) →
      ∀ i, r.commitments.get i ≠ commit sha256Hex (toJson proposal)) ∧
    (∀ s : Str,
      NoCollisionWith sha256Hex r x.artifacts (canonicalize (.str s : Json Int)) →
      ∀ i, r.commitments.get i ≠ commit sha256Hex (.str s)) := by
  subst hr hr'
  rw [buildReceipt_commitments, buildReceipt_commitments]
  refine ⟨fun hno i j hfinite => ?_, commitment_ne_commit_proposal, commitment_ne_commit_str⟩
  rw [commitment_eq_iff hno]
  refine and_congr_right fun hij => forall_congr' fun k => forall_congr' fun hk =>
    stageCommitted_iff ?_
  rintro rfl
  exact hfinite hij hk

theorem stages_separate_tampered :
    fixtureReceipt.commitments.get .executionCommitment ≠
        (buildReceipt Sha256.hex (js "receipt_1") [] tampered).commitments.get
          .executionCommitment ∧
      fixtureReceipt.commitments.get .caseCommitment ≠
        commit Sha256.hex (.str (js "case_1")) := by
  obtain ⟨hstages, -, hstr⟩ := stages_separate Sha256.hex fixture tampered (js "receipt_1")
    (js "2026-01-01T00:00:04.000Z") (js "receipt_1") [] fixtureReceipt _ rfl rfl
  refine ⟨fun heq => ?_, hstr _ ?_ _⟩
  · obtain ⟨-, hagree⟩ := (hstages noCollision_tampered _ _ fun _ h => absurd h (by decide)).mp heq
    exact Bool.noConfusion (hagree .executionCommitment le_rfl).2.2.2.1
  · apply injOn_fixtureTexts.mono
    rintro t (h | rfl)
    · exact committedTexts_fixture_subset h
    · exact List.mem_append_right _ (List.mem_cons_of_mem _ List.mem_cons_self)

/-- One outcome commitment stands for infinite savings and for savings that are no number. -/
theorem infinite_outcome_shared :
    NoCollision Sha256.hex infiniteReceipt (fixtureClaiming .infinity).artifacts
      (buildReceipt Sha256.hex (js "receipt_1") [] (fixtureClaiming .nan))
      (fixtureClaiming .nan).artifacts ∧
    infiniteReceipt.commitments.get .outcomeCommitment =
      (buildReceipt Sha256.hex (js "receipt_1") [] (fixtureClaiming .nan)).commitments.get
        .outcomeCommitment ∧
    ¬ StageAgrees infiniteReceipt (fixtureClaiming .infinity).artifacts
      (buildReceipt Sha256.hex (js "receipt_1") [] (fixtureClaiming .nan))
      (fixtureClaiming .nan).artifacts .outcomeCommitment :=
  ⟨noCollision_infinite, rfl, fun h => nomatch h.2.1⟩

end

end Clawback
