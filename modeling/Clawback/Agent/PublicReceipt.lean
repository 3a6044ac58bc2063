import Clawback.Agent.Sequence

/-!
# What a receipt makes public

Two runs of a submission and an approval, with the same answers from outside and different inputs.

* `public_receipt_iff`: their receipts agree outside the commitments exactly if the desired
  outcomes are the same, and the receipts are stored under the same hashes.
* `receipt_leaks`: with different desired outcomes the receipts differ.
-/

namespace Clawback

open Js Async

variable {env : Platform}

/-- A receipt without its commitments. -/
def ClawbackReceipt.withoutCommitments (receipt : ClawbackReceipt) : ClawbackReceipt :=
  { receipt with commitments := ⟨[], [], [], [], []⟩ }

/-! ## What is asked and answered -/

/-- The receipts that are uploaded. -/
def uploads (l : Log) : List ClawbackReceipt :=
  l.filterMap fun a => match a.entry.effect with
    | .uploadJson receipt => some receipt
    | _ => none

/-- The root hashes that uploads are answered with. -/
def rootHashes (l : Log) : List Str :=
  l.filterMap fun a => match a.entry with
    | ⟨.uploadJson _, .ok artifact⟩ => some artifact.rootHash
    | _ => none

/-- The hashes of the transactions that anchor a receipt. -/
def txHashes (l : Log) : List Str :=
  l.filterMap fun a => match a.entry with
    | ⟨.anchorReceipt _ _ _, .ok result⟩ => some result.txHash
    | _ => none

/-- The answers of the provider. -/
def answers (l : Log) : List ProviderActionResult :=
  l.filterMap fun a => match a.entry with
    | ⟨.sendAction _, .ok result⟩ => some result
    | _ => none

@[simp] theorem uploads_append (l l' : Log) : uploads (l ++ l') = uploads l ++ uploads l' :=
  List.filterMap_append

@[simp] theorem rootHashes_append (l l' : Log) :
    rootHashes (l ++ l') = rootHashes l ++ rootHashes l' := List.filterMap_append

@[simp] theorem txHashes_append (l l' : Log) :
    txHashes (l ++ l') = txHashes l ++ txHashes l' := List.filterMap_append

@[simp] theorem answers_append (l l' : Log) : answers (l ++ l') = answers l ++ answers l' :=
  List.filterMap_append

/-- What is harmless reaches nobody outside. -/
theorem published_of_harmless {l : Log} (h : l.all harmless = true) :
    uploads l = [] ∧ rootHashes l = [] ∧ txHashes l = [] ∧ answers l = [] := by
  have hinward : ∀ a ∈ l, a.entry.effect.isOutward = false := by
    intro a ha
    exact (Bool.not_eq_true' _).mp ((Bool.and_eq_true _ _).mp (List.all_eq_true.mp h a ha)).1
  unfold uploads rootHashes txHashes answers
  simp only [List.filterMap_eq_nil_iff]
  refine ⟨?_, ?_, ?_, ?_⟩ <;> rintro ⟨w, ⟨e, r⟩, w'⟩ ha <;> have he := hinward _ ha <;> cases e <;>
    first | rfl | cases he

/-! ## The receipt of an approval -/

/-- The approval has asked `l` and built the receipt. -/
inductive Builds (env : Platform) (deps : OrchestratorDeps) (c ownerId proposalId : Str) (w : World)
    (l : Log) : ClawbackReceipt → Prop
  | mk {x : Execution} {input : SubscriptionCaseInput} {answer : ProviderActionResult}
    {recordedAt uuid createdAt t₁ t₂ t₃ : Str} {rest restIds : List Str} :
    Begins c ownerId proposalId w x → answers l = [answer] → ids l = uuid :: restIds →
    times l = x.approvedAt :: t₁ :: t₂ :: recordedAt :: t₃ :: createdAt :: rest →
    Builds env deps c ownerId proposalId w l (buildReceipt env.sha256Hex
      (js "receipt" ++ js "_" ++ uuid) createdAt
      (x.receiptInput env deps input (outcomeOf c answer recordedAt)))

/-- What an approval publishes: nothing, or the one receipt that it has built. -/
def Publishes (env : Platform) (deps : OrchestratorDeps) (c ownerId proposalId : Str) (w : World)
    (l : Log) (w' : World) : Prop :=
  (uploads l = [] ∧ ∀ r, w'.store c = some r → r.receipt = none) ∨
    ∃ receipt, Builds env deps c ownerId proposalId w l receipt ∧
      (∀ u ∈ uploads l, u = receipt) ∧
      ∀ r v, w'.store c = some r → r.receipt = some v →
        v = { receipt with anchor := ⟨(txHashes l).head?, (rootHashes l).head?⟩ }

section

variable {deps : OrchestratorDeps} {c ownerId proposalId : Str} {w w' : World} {l : Log}

theorem eq_with_anchor {receipt : ClawbackReceipt} {anchor : ReceiptAnchor}
    (h : receipt.anchor = anchor) : receipt = { receipt with anchor } := by
  rw [← h]

theorem Uploads.published {receipt stored : ClawbackReceipt}
    (h : Uploads deps receipt w stored l) (hanchor : receipt.anchor = ⟨none, none⟩) :
    (∀ u ∈ uploads l, u = receipt) ∧ txHashes l = [] ∧ answers l = [] ∧ ids l = [] ∧
      times l = [] ∧ stored = { receipt with anchor := ⟨none, (rootHashes l).head?⟩ } := by
  cases h with
  | off _ =>
    exact ⟨fun u hu => (List.not_mem_nil hu).elim, rfl, rfl, rfl, rfl, eq_with_anchor hanchor⟩
  | stored artifact =>
    refine ⟨fun u hu => List.mem_singleton.mp hu, rfl, rfl, rfl, rfl, ?_⟩
    rw [hanchor]
    rfl
  | failed error =>
    exact ⟨fun u hu => List.mem_singleton.mp hu, rfl, rfl, rfl, rfl, eq_with_anchor hanchor⟩

theorem Anchors.published {receipt anchored : ClawbackReceipt} (hash : Option Str)
    (h : Anchors env deps c receipt w anchored l) (hanchor : receipt.anchor = ⟨none, hash⟩) :
    uploads l = [] ∧ rootHashes l = [] ∧ answers l = [] ∧ ids l = [] ∧ times l = [] ∧
      anchored = { receipt with anchor := ⟨(txHashes l).head?, hash⟩ } := by
  cases h with
  | off _ => exact ⟨rfl, rfl, rfl, rfl, rfl, eq_with_anchor hanchor⟩
  | anchored result =>
    refine ⟨rfl, rfl, rfl, rfl, rfl, ?_⟩
    rw [hanchor]
    rfl
  | failed error => exact ⟨rfl, rfl, rfl, rfl, rfl, eq_with_anchor hanchor⟩

theorem Settles.published {outcome : OutcomeEvidence} {result : Except JsError Unit}
    (h : Settles c outcome w result l w') : uploads l = [] ∧ rootHashes l = [] ∧
      txHashes l = [] ∧ answers l = [] ∧ ids l = [] ∧ times l = [] := by
  cases h <;> exact ⟨rfl, rfl, rfl, rfl, rfl, rfl⟩

/-- What is asked from the outcome up to the settlement. -/
theorem published_receiptLog {receipt stored anchored : ClawbackReceipt} {l₁ l₂ l₃ : Log}
    {uuid : Str} (createdAt : Str) {outcome : OutcomeEvidence} {result : Except JsError Unit}
    (h₁ : Uploads deps receipt (w.draw uuid) stored l₁)
    (h₂ : Anchors env deps c stored (w.draw uuid) anchored l₂)
    (h₃ : Settles c outcome (w.draw uuid) result l₃ w') (hanchor : receipt.anchor = ⟨none, none⟩) :
    ∃ p : Log, p = [drew w uuid, asked (w.draw uuid) .now (.ok createdAt)] ++ l₁ ++ l₂ ++ l₃ ∧
      ids p = [uuid] ∧ times p = [createdAt] ∧ answers p = [] ∧ (∀ u ∈ uploads p, u = receipt) ∧
      anchored = { receipt with anchor := ⟨(txHashes p).head?, (rootHashes p).head?⟩ } := by
  obtain ⟨hup₁, htx₁, hans₁, hids₁, htimes₁, hstored⟩ := h₁.published hanchor
  obtain ⟨hup₂, hroot₂, hans₂, hids₂, htimes₂, hanchored⟩ :=
    h₂.published (rootHashes l₁).head? (by rw [hstored])
  obtain ⟨hup₃, hroot₃, htx₃, hans₃, hids₃, htimes₃⟩ := h₃.published
  refine ⟨_, rfl, ?_, ?_, ?_, ?_, ?_⟩
  · simp only [ids_append, hids₁, hids₂, hids₃, List.append_nil]
    rfl
  · simp only [times_append, htimes₁, htimes₂, htimes₃, List.append_nil]
    rfl
  · simp only [answers_append, hans₁, hans₂, hans₃, List.append_nil]
    rfl
  · simp only [uploads_append, hup₂, hup₃, List.append_nil]
    exact hup₁
  · simp only [txHashes_append, rootHashes_append, htx₁, hroot₂, htx₃, hroot₃, List.append_nil]
    rw [hanchored, hstored]
    rfl

/-- What the part after the outcome publishes. -/
theorem Finalizes.published {built : BuildReceiptInput} {pending : CaseRecord}
    {result : Except JsError CaseSummary} (h : Finalizes env deps built pending w result l w')
    (hfound : w.store built.caseId = some pending) (hid : pending.caseId = built.caseId)
    (hreceipt : pending.receipt = none) (hanchor : built.anchor = none) :
    ∃ uuid createdAt restIds rest, ids l = uuid :: restIds ∧ times l = createdAt :: rest ∧
      answers l = [] ∧ ∃ receipt, receipt = buildReceipt env.sha256Hex
        (js "receipt" ++ js "_" ++ uuid) createdAt built ∧ (∀ u ∈ uploads l, u = receipt) ∧
      ∀ r v, w'.store built.caseId = some r → r.receipt = some v →
        v = { receipt with anchor := ⟨(txHashes l).head?, (rootHashes l).head?⟩ } := by
  have hblank : ∀ uuid createdAt, (buildReceipt env.sha256Hex (js "receipt" ++ js "_" ++ uuid)
      createdAt built).anchor = ⟨none, none⟩ := by
    intro uuid createdAt
    unfold buildReceipt
    rw [hanchor]
    rfl
  have hpending : ∀ {w₁ : World}, w₁.store = w.store → ∀ r v,
      w₁.store built.caseId = some r → r.receipt = some v → False := by
    intro w₁ hstore r v hr hv
    rw [hstore, hfound] at hr
    cases hr
    rw [hreceipt] at hv
    cases hv
  cases h with
  | @unsettled uuid createdAt _ _ l₁ l₂ l₃ _ _ h₁ h₂ h₃ =>
    obtain ⟨p, rfl, hids, htimes, hanswers, huploads, -⟩ := published_receiptLog
      createdAt h₁ h₂ h₃ (hblank uuid createdAt)
    exact ⟨uuid, createdAt, [], [], hids, htimes, hanswers, _, rfl, huploads,
      fun r v hr hv => (hpending h₃.store r v hr hv).elim⟩
  | @unconfirmed uuid createdAt _ _ l₁ l₂ l₃ since _ _ h₁ h₂ h₃ hcut =>
    obtain ⟨p, rfl, hids, htimes, hanswers, huploads, -⟩ := published_receiptLog
      createdAt h₁ h₂ h₃ (hblank uuid createdAt)
    obtain ⟨hup, -, -, hans⟩ := published_of_harmless hcut.harmless
    refine ⟨uuid, createdAt, ids since, times since, ?_, ?_, ?_, _, rfl, ?_,
      fun r v hr hv => (hpending h₃.store r v hr hv).elim⟩
    · rw [ids_append, hids, List.singleton_append]
    · rw [times_append, htimes, List.singleton_append]
    · rw [answers_append, hanswers, hans, List.append_nil]
    · rw [uploads_append, hup, List.append_nil]
      exact huploads
  | @confirmed uuid createdAt _ anchored l₁ l₂ l₃ final updatedAt w₁ h₁ h₂ h₃ hfinal =>
    obtain ⟨p, hp, hids, htimes, hanswers, huploads, hanchored⟩ := published_receiptLog
      createdAt h₁ h₂ h₃ (hblank uuid createdAt)
    rw [← hp]
    refine ⟨uuid, createdAt, [], [updatedAt], ?_, ?_, ?_, _, rfl, ?_, fun r v hr hv => ?_⟩
    · rw [ids_append, hids]
      rfl
    · rw [times_append, htimes]
      rfl
    · rw [answers_append, hanswers]
      rfl
    · rw [uploads_append]
      exact fun u hu => huploads u ((List.mem_append.mp hu).resolve_right List.not_mem_nil)
    · have hstored : (w₁.put final).store built.caseId = some final :=
        if_pos (hfinal ▸ hid.symm)
      rw [hstored] at hr
      cases hr
      have hv' : some anchored = some v := by
        rw [← hv, hfinal]
        rfl
      have htx : txHashes (p ++ moveLog w₁ built.caseId pending final updatedAt) = txHashes p :=
        (txHashes_append _ _).trans (List.append_nil _)
      have hroot : rootHashes (p ++ moveLog w₁ built.caseId pending final updatedAt) =
          rootHashes p := (rootHashes_append _ _).trans (List.append_nil _)
      rw [htx, hroot, ← Option.some.inj hv', hanchored]

/-- What an approval publishes. -/
theorem Executes.published {result : Except JsError CaseSummary}
    (h : Executes env deps c ownerId proposalId w result l w')
    (hreceipt : ∀ r, w.store c = some r → r.receipt = none) :
    Publishes env deps c ownerId proposalId w l w' := by
  have hsilent : ∀ {x : Execution} {r : CaseRecord} {w₁ : World},
      Begins c ownerId proposalId w x → w₁.store c = some r → r.receipt = x.record.receipt →
      ∀ r', w₁.store c = some r' → r'.receipt = none := by
    intro x r w₁ hx hr hsame r' hr'
    rw [hr] at hr'
    cases hr'
    rw [hsame]
    exact hreceipt _ hx.found
  cases h with
  | refused hl => exact .inl ⟨(published_of_harmless hl).1, hreceipt⟩
  | @unbegun x _ since hx hcut =>
    refine .inl ⟨?_, hsilent hx (if_pos hx.caseId.symm : _ = some (x.approved env)) rfl⟩
    rw [uploads_append, (published_of_harmless hcut.harmless).1]
    rfl
  | @undecrypted x _ hx _ => exact .inl ⟨rfl, hsilent hx hx.executing_found rfl⟩
  | unfailed hx _ hcut | unrecorded hx _ hcut =>
    refine .inl ⟨?_, hsilent hx hx.executing_found rfl⟩
    rw [uploads_append, (published_of_harmless hcut.harmless).1]
    rfl
  | @failed x _ error updatedAt _ _ hx _ hsince =>
    refine .inl ⟨?_, hsilent hx
      (if_pos hx.caseId.symm : _ = some (x.failed env error.text updatedAt)) rfl⟩
    rw [uploads_append, (published_of_harmless hsince).1]
    rfl
  | @unanswered x _ _ _ updatedAt outcome r hx _ _ _ hr =>
    have hid : r.caseId = c := by
      rw [hr]
      exact hx.caseId
    refine .inl ⟨rfl, hsilent hx (if_pos hid.symm : _ = some r) ?_⟩
    rw [hr]
    rfl
  | @finalizing x input answer recordedAt updatedAt outcome r l' _ _ hx _ houtcome _ hr hfinalizes =>
    have hid : r.caseId = x.record.caseId := by rw [hr]; rfl
    have hsame : r.receipt = x.record.receipt := by rw [hr]; rfl
    have hblank : r.receipt = none := hsame.trans (hreceipt _ hx.found)
    obtain ⟨uuid, createdAt, restIds, rest, hids, htimes, hanswers, receipt, hbuilt, huploads,
      hstored⟩ := hfinalizes.published (if_pos hid.symm) hid hblank rfl
    refine .inr ⟨receipt, ?_, ?_, ?_⟩
    · rw [hbuilt, houtcome]
      let before := x.answeredLog env w input answer recordedAt ++
        moveLog (x.executingWorld env w) c (x.executing env) r updatedAt
      have hanswers' : answers (before ++ l') = [answer] := by
        rw [answers_append, hanswers]
        rfl
      have hids' : ids (before ++ l') = uuid :: restIds := by
        rw [ids_append, hids]
        rfl
      have htimes' : times (before ++ l') = x.approvedAt :: x.movedAt :: x.begunAt :: recordedAt ::
          updatedAt :: createdAt :: rest := by
        rw [times_append, htimes]
        rfl
      exact .mk hx hanswers' hids' htimes'
    · intro u hu
      rw [uploads_append] at hu
      exact huploads u ((List.mem_append.mp hu).resolve_left List.not_mem_nil)
    · intro r' v hr' hv
      have hcase : (x.receiptInput env deps input outcome).caseId = c := hx.caseId
      rw [hcase] at hstored
      rw [txHashes_append, rootHashes_append]
      exact hstored r' v hr' hv

end

/-! ## Two runs -/

/-- What a submitted record has of its input in the open. -/
structure Describes (input : SubscriptionCaseInput) (r : CaseRecord) : Prop where
  category : r.category = .subscriptionCancellation
  receipt : r.receipt = none
  summary : ∀ proposal, r.proposal = some proposal → proposal.summary = summarize input

section

variable {deps : OrchestratorDeps} {ownerId : Str} {input : SubscriptionCaseInput}
  {w₀ w : World} {r : CaseRecord} {l : Log}

theorem Submitting.describes (h : Submitting env deps ownerId input w₀ r l w) :
    Describes input r := by
  induction h with
  | created _ _ hd =>
    rw [hd]
    refine ⟨rfl, rfl, fun proposal hproposal => ?_⟩
    cases hproposal
  | advanced _ _ _ ih => exact ⟨ih.category, ih.receipt, ih.summary⟩
  | proposed _ _ _ _ ih =>
    refine ⟨ih.category, ih.receipt, fun proposal hproposal => ?_⟩
    cases hproposal
    rfl

/-- The record of a case that a submission has stored. -/
theorem Submits.describes {result : Except JsError CaseSummary} {c : Str}
    (h : Submits env deps ownerId input w₀ result l w) (hnew : w₀.store c = none)
    (hr : w.store c = some r) : Describes input r := by
  have hlast : ∀ {r' : CaseRecord} {l' : Log} {w' : World},
      Submitting env deps ownerId input w₀ r' l' w' → w.store = w'.store → Describes input r := by
    intro r' l' w' hsubmitting hstore
    rw [hstore] at hr
    by_cases hc : c = r'.caseId
    · rw [hc, hsubmitting.found] at hr
      cases hr
      exact hsubmitting.describes
    · rw [hsubmitting.only.others c hc, hnew] at hr
      cases hr
  cases h with
  | unstored _ =>
    have hnone : w₀.store c = some r := hr
    rw [hnew] at hnone
    cases hnone
  | cut hsubmitting _ hstore _ _ _ => exact hlast hsubmitting hstore
  | awaiting hsubmitting _ _ => exact hlast hsubmitting rfl

end

/-- After any calls, an input is submitted, and then the new case is approved. -/
structure Processed (env : Platform) (deps : OrchestratorDeps) (ownerId : Str)
    (input : SubscriptionCaseInput) (c proposalId : Str) (s a : AgentEnded) : Prop where
  run : ∃ script l, (agent env).runCalls World.empty script = some (l ++ [s, a])
  submits : s.call = .submitCase deps ownerId input
  isNew : s.before.store c = none
  approves : a.call = .approveAndExecute deps c ownerId proposalId

/-- The attestation of the analysis that is stored of a case. -/
def attestation (c : Str) (w : World) :
    Option (Bool × Option TeeAttestationEvidence × Option Str) := do
  let r ← w.store c
  let e ← r.execution
  return (e.teeAttested, e.attestationEvidence, e.providerAddress)

/-- Two runs draw the same ids, read the same times, and get the same answer of the provider and
the same attestation of the analysis. -/
structure SameAnswers (c : Str) (s s' a a' : AgentEnded) : Prop where
  ids : ids a.asked = ids a'.asked
  times : times a.asked = times a'.asked
  answers : answers a.asked = answers a'.asked
  attested : attestation c s.after = attestation c s'.after

theorem Begins.attestation {c ownerId proposalId : Str} {w : World} {x : Execution}
    (hx : Begins c ownerId proposalId w x) : attestation c w = some (x.evidence.teeAttested,
      x.evidence.attestationEvidence, x.evidence.providerAddress) := by
  unfold Clawback.attestation
  rw [hx.found, Option.bind_eq_bind, Option.bind_some, hx.evidence]
  rfl

theorem Processed.published {deps : OrchestratorDeps} {ownerId c proposalId : Str}
    {input : SubscriptionCaseInput} {s a : AgentEnded}
    (h : Processed env deps ownerId input c proposalId s a) : a.before = s.after ∧
      (∀ r, s.after.store c = some r → Describes input r) ∧
      Publishes env deps c ownerId proposalId s.after a.asked a.after := by
  obtain ⟨⟨script, l, hrun⟩, hs, hnew, ha⟩ := h
  have hcut : l ++ [s, a] = l ++ [s] ++ [a] := by rw [List.append_assoc]; rfl
  rw [hcut] at hrun
  obtain ⟨⟨script', hrun'⟩, hbefore, hcompletes⟩ := System.runCalls_last hrun
  obtain ⟨⟨script'', hrun''⟩, hbefore', hcompletes'⟩ := System.runCalls_last hrun'
  have hafter : a.before = s.after := by
    rw [hbefore, finalWorld_append]
    rfl
  have hsound : Sound env a.before := hbefore ▸ sound_of_runCalls hrun'
  have hsound' : Sound env s.before := hbefore' ▸ sound_of_runCalls hrun''
  have hdescribes : ∀ r, s.after.store c = some r → Describes input r := by
    intro r hr
    have hends := ((ensures_start hsound' s.call).completes hcompletes').1
    rw [hs] at hends
    cases hends with
    | quiet _ hstore _ _ =>
      rw [hstore, hnew] at hr
      cases hr
    | submits hsubmits => exact hsubmits.describes hnew hr
  refine ⟨hafter, hdescribes, ?_⟩
  have hends := ((ensures_start hsound a.call).completes hcompletes).1
  rw [ha, hafter] at hends
  cases hends with
  | quiet hl hstore _ _ =>
    refine .inl ⟨(published_of_harmless hl).1, fun r hr => (hdescribes r ?_).receipt⟩
    rwa [hstore] at hr
  | executes hexecutes => exact hexecutes.published fun r hr => (hdescribes r hr).receipt

/-- The part of a receipt outside the commitments depends on the proposal through its summary. -/
theorem withoutCommitments_buildReceipt_iff {sha256Hex : Str → Str} {receiptId createdAt : Str}
    {b b' : BuildReceiptInput} (hcase : b.caseId = b'.caseId) (hcategory : b.category = b'.category)
    (houtcome : b.outcome = b'.outcome) (henvironment : b.environment = b'.environment)
    (hanchor : b.anchor = b'.anchor) (happroved : b.approval.approvedAt = b'.approval.approvedAt)
    (hattested : b.execution.teeAttested = b'.execution.teeAttested)
    (hevidence : b.execution.attestationEvidence = b'.execution.attestationEvidence)
    (hprovider : b.execution.providerAddress = b'.execution.providerAddress) :
    (buildReceipt sha256Hex receiptId createdAt b).withoutCommitments =
      (buildReceipt sha256Hex receiptId createdAt b').withoutCommitments ↔
        b.proposal.summary = b'.proposal.summary := by
  constructor
  · exact fun h => congrArg ClawbackReceipt.actionTaken h
  · intro hsummary
    unfold ClawbackReceipt.withoutCommitments buildReceipt deriveStatus summarizeAction
    simp only [hcase, hcategory, houtcome, henvironment, hanchor, happroved, hattested, hevidence,
      hprovider, hsummary]

/-- The receipts of two runs, before they are anchored. -/
theorem withoutCommitments_builds_iff {deps : OrchestratorDeps} {ownerId c proposalId : Str}
    {input input' : SubscriptionCaseInput} {s s' a a' : AgentEnded}
    {receipt receipt' : ClawbackReceipt} (hsame : SameAnswers c s s' a a')
    (hdescribes : ∀ r, s.after.store c = some r → Describes input r)
    (hdescribes' : ∀ r, s'.after.store c = some r → Describes input' r)
    (h : Builds env deps c ownerId proposalId s.after a.asked receipt)
    (h' : Builds env deps c ownerId proposalId s'.after a'.asked receipt') :
    (receipt.withoutCommitments = receipt'.withoutCommitments ↔
      input.desiredOutcome = input'.desiredOutcome) ∧ receipt.anchor = receipt'.anchor := by
  obtain ⟨hx, hanswers, hids, htimes⟩ := h
  obtain ⟨hx', hanswers', hids', htimes'⟩ := h'
  rename_i x decrypted answer recordedAt uuid createdAt _ _ _ _ _ x' decrypted' answer' recordedAt'
    uuid' createdAt' _ _ _ _ _
  obtain ⟨huuid, -⟩ := List.cons.inj (hids.symm.trans (hsame.ids.trans hids'))
  have hanswer := List.singleton_inj.mp (hanswers.symm.trans (hsame.answers.trans hanswers'))
  have hattestation := hx.attestation.symm.trans (hsame.attested.trans hx'.attestation)
  simp only [Option.some.injEq, Prod.mk.injEq] at hattestation
  obtain ⟨hattested, hevidence, hprovider⟩ := hattestation
  have hread := htimes.symm.trans (hsame.times.trans htimes')
  simp only [List.cons.injEq] at hread
  obtain ⟨happrovedAt, -, -, hrecordedAt, -, hcreatedAt, -⟩ := hread
  have hsummary := (hdescribes _ hx.found).summary _ hx.proposal
  have hsummary' := (hdescribes' _ hx'.found).summary _ hx'.proposal
  subst huuid hanswer hrecordedAt hcreatedAt
  let b := x.receiptInput env deps decrypted (outcomeOf c answer recordedAt)
  let b' := x'.receiptInput env deps decrypted' (outcomeOf c answer recordedAt)
  have hcategory : b.category = b'.category :=
    (hdescribes _ hx.found).category.trans (hdescribes' _ hx'.found).category.symm
  have hiff : (buildReceipt env.sha256Hex (js "receipt" ++ js "_" ++ uuid) createdAt
      b).withoutCommitments = (buildReceipt env.sha256Hex (js "receipt" ++ js "_" ++ uuid) createdAt
      b').withoutCommitments ↔ x.proposal.summary = x'.proposal.summary :=
    withoutCommitments_buildReceipt_iff (hx.caseId.trans hx'.caseId.symm) hcategory rfl rfl rfl
      happrovedAt hattested hevidence hprovider
  refine ⟨hiff.trans ?_, rfl⟩
  rw [hsummary, hsummary']
  unfold summarize
  exact List.append_right_inj _

theorem withoutCommitments_anchored_iff {receipt receipt' : ClawbackReceipt}
    {anchor anchor' : ReceiptAnchor} (hsame : receipt.anchor = receipt'.anchor) :
    { receipt with anchor }.withoutCommitments = { receipt' with anchor := anchor' }.withoutCommitments ↔
      receipt.withoutCommitments = receipt'.withoutCommitments ∧ anchor = anchor' := by
  cases receipt
  cases receipt'
  unfold ClawbackReceipt.withoutCommitments
  simp only [ClawbackReceipt.mk.injEq] at hsame ⊢
  tauto

/-- The uploaded receipts of two runs agree outside the commitments exactly if the desired outcomes
are the same. -/
theorem uploaded_iff {deps : OrchestratorDeps} {ownerId c proposalId : Str}
    {input input' : SubscriptionCaseInput} {s s' a a' : AgentEnded}
    (h : Processed env deps ownerId input c proposalId s a)
    (h' : Processed env deps ownerId input' c proposalId s' a')
    (hsame : SameAnswers c s s' a a') {u u' : ClawbackReceipt} (hu : u ∈ uploads a.asked)
    (hu' : u' ∈ uploads a'.asked) : u.withoutCommitments = u'.withoutCommitments ↔
      input.desiredOutcome = input'.desiredOutcome := by
  obtain ⟨-, hdescribes, hpublishes⟩ := h.published
  obtain ⟨-, hdescribes', hpublishes'⟩ := h'.published
  rcases hpublishes with ⟨hnone, -⟩ | ⟨receipt, hbuilds, huploads, -⟩
  · rw [hnone] at hu
    cases hu
  rcases hpublishes' with ⟨hnone, -⟩ | ⟨receipt', hbuilds', huploads', -⟩
  · rw [hnone] at hu'
    cases hu'
  rw [huploads u hu, huploads' u' hu']
  exact (withoutCommitments_builds_iff hsame hdescribes hdescribes' hbuilds hbuilds').1

/-- **The public receipt.** In two runs that differ in their inputs only, the uploaded receipts
agree outside the commitments exactly if the desired outcomes are the same; and so do the stored
receipts, provided that storage and chain have answered with the same hashes. -/
theorem public_receipt_iff {deps : OrchestratorDeps} {ownerId c proposalId : Str}
    {input input' : SubscriptionCaseInput} {s s' a a' : AgentEnded}
    (h : Processed env deps ownerId input c proposalId s a)
    (h' : Processed env deps ownerId input' c proposalId s' a')
    (hsame : SameAnswers c s s' a a') :
    (∀ u ∈ uploads a.asked, ∀ u' ∈ uploads a'.asked,
      u.withoutCommitments = u'.withoutCommitments ↔
        input.desiredOutcome = input'.desiredOutcome) ∧
    ∀ r r' v v', a.after.store c = some r → a'.after.store c = some r' → r.receipt = some v →
      r'.receipt = some v' → (v.withoutCommitments = v'.withoutCommitments ↔
        input.desiredOutcome = input'.desiredOutcome ∧
          (txHashes a.asked).head? = (txHashes a'.asked).head? ∧
          (rootHashes a.asked).head? = (rootHashes a'.asked).head?) := by
  refine ⟨fun u hu u' hu' => uploaded_iff h h' hsame hu hu', fun r r' v v' hr hr' hv hv' => ?_⟩
  obtain ⟨-, hdescribes, hpublishes⟩ := h.published
  obtain ⟨-, hdescribes', hpublishes'⟩ := h'.published
  rcases hpublishes with ⟨-, hnone⟩ | ⟨receipt, hbuilds, -, hstored⟩
  · rw [hnone r hr] at hv
    cases hv
  rcases hpublishes' with ⟨-, hnone⟩ | ⟨receipt', hbuilds', -, hstored'⟩
  · rw [hnone r' hr'] at hv'
    cases hv'
  obtain ⟨hiff, hanchor⟩ :=
    withoutCommitments_builds_iff hsame hdescribes hdescribes' hbuilds hbuilds'
  rw [hstored r v hr hv, hstored' r' v' hr' hv', withoutCommitments_anchored_iff hanchor, hiff,
    ReceiptAnchor.mk.injEq]

/-! ## Sample runs -/

/-- The sandbox, with a storage client. -/
def storingDeps : OrchestratorDeps := { sampleDeps with hasStorageClient := true }

/-- An input is submitted, approved, and its receipt uploaded. -/
def storingScript (input : SubscriptionCaseInput) : List (Call × List Choice) :=
  [(.submitCase storingDeps (js "user_1") input, sampleChoices),
    (.approveAndExecute storingDeps (js "case_1") (js "user_1") (js "proposal_2"),
      sampleAnswers ++ [.stored ⟨js "0x01", js "0x02"⟩, sampleTime, .ok, sampleTime, .ok])]

theorem processed_of_storingScript {input : SubscriptionCaseInput} {l : List AgentEnded}
    (h : (agent samplePlatform).runCalls World.empty (storingScript input) = some l) :
    ∃ s a, l = [s, a] ∧ Processed samplePlatform storingDeps (js "user_1") input (js "case_1")
      (js "proposal_2") s a := by
  obtain ⟨_, _, _, _, rest, -, -, hrest, rfl⟩ := System.runCalls_cons h
  obtain ⟨_, _, _, _, rest', -, -, hnil, rfl⟩ := System.runCalls_cons hrest
  cases hnil
  exact ⟨_, _, rfl, ⟨_, [], h⟩, rfl, rfl, rfl⟩

/-- The two runs have the same answers, nothing is attested, and both upload a receipt. -/
def comparable (l l' : List AgentEnded) : Bool :=
  match l, l' with
  | [s, a], [s', a'] =>
    match attestation (js "case_1") s.after, attestation (js "case_1") s'.after with
    | some (false, none, none), some (false, none, none) =>
      ids a.asked == ids a'.asked && (times a.asked == times a'.asked &&
        (decide (answers a.asked = answers a'.asked) &&
        (!(uploads a.asked).isEmpty && !(uploads a'.asked).isEmpty)))
    | _, _ => false
  | _, _ => false

theorem runs_of_comparable (input input' : SubscriptionCaseInput)
    (h : (((agent samplePlatform).runCalls World.empty (storingScript input)).any fun l =>
      ((agent samplePlatform).runCalls World.empty (storingScript input')).any (comparable l)) =
        true) :
    ∃ s a s' a' u u', Processed samplePlatform storingDeps (js "user_1") input (js "case_1")
        (js "proposal_2") s a ∧
      Processed samplePlatform storingDeps (js "user_1") input' (js "case_1") (js "proposal_2")
        s' a' ∧
      SameAnswers (js "case_1") s s' a a' ∧ u ∈ uploads a.asked ∧ u' ∈ uploads a'.asked := by
  obtain ⟨l, hrun, hl⟩ := (Option.any_eq_true _ _).mp h
  obtain ⟨l', hrun', hl'⟩ := (Option.any_eq_true _ _).mp hl
  obtain ⟨s, a, rfl, hprocessed⟩ := processed_of_storingScript hrun
  obtain ⟨s', a', rfl, hprocessed'⟩ := processed_of_storingScript hrun'
  dsimp only [comparable] at hl'
  split at hl'
  · rename_i hattested hattested'
    simp only [Bool.and_eq_true, beq_iff_eq, decide_eq_true_eq, Bool.not_eq_true',
      List.isEmpty_eq_false_iff] at hl'
    obtain ⟨hids, htimes, hanswers, huploads, huploads'⟩ := hl'
    obtain ⟨u, hu⟩ := List.exists_mem_of_ne_nil _ huploads
    obtain ⟨u', hu'⟩ := List.exists_mem_of_ne_nil _ huploads'
    exact ⟨s, a, s', a', u, u', hprocessed, hprocessed',
      ⟨hids, htimes, hanswers, hattested.trans hattested'.symm⟩, hu, hu'⟩
  · cases hl'

/-- Another merchant and another account. -/
def otherMerchant : SubscriptionCaseInput :=
  { sampleInput with merchantName := js "Bolt Gym", accountIdentifierLast4 := js "2004" }

set_option maxRecDepth 10000 in
theorem public_receipt_iff_sample :
    ∃ s a s' a' u u', Processed samplePlatform storingDeps (js "user_1") sampleInput
        (js "case_1") (js "proposal_2") s a ∧
      Processed samplePlatform storingDeps (js "user_1") otherMerchant (js "case_1")
        (js "proposal_2") s' a' ∧
      u ∈ uploads a.asked ∧ u' ∈ uploads a'.asked ∧
      u.withoutCommitments = u'.withoutCommitments := by
  obtain ⟨s, a, s', a', u, u', h, h', hsame, hu, hu'⟩ :=
    runs_of_comparable sampleInput otherMerchant (by decide +kernel)
  exact ⟨s, a, s', a', u, u', h, h', hu, hu', ((public_receipt_iff h h' hsame).1 u hu u' hu').mpr rfl⟩

/-- Another desired outcome. -/
def otherOutcome : SubscriptionCaseInput :=
  { sampleInput with desiredOutcome := js "Cancel because of my divorce." }

set_option maxRecDepth 10000 in
/-- Two runs that differ in the desired outcome upload receipts that differ outside the
commitments. -/
theorem receipt_leaks :
    ∃ s a s' a' u u', Processed samplePlatform storingDeps (js "user_1") sampleInput
        (js "case_1") (js "proposal_2") s a ∧
      Processed samplePlatform storingDeps (js "user_1") otherOutcome (js "case_1")
        (js "proposal_2") s' a' ∧
      SameAnswers (js "case_1") s s' a a' ∧ u ∈ uploads a.asked ∧ u' ∈ uploads a'.asked ∧
      u.withoutCommitments ≠ u'.withoutCommitments := by
  obtain ⟨s, a, s', a', u, u', h, h', hsame, hu, hu'⟩ :=
    runs_of_comparable sampleInput otherOutcome (by decide +kernel)
  refine ⟨s, a, s', a', u, u', h, h', hsame, hu, hu', fun heq => ?_⟩
  have hdesired := (uploaded_iff h h' hsame hu hu').mp heq
  revert hdesired
  decide

end Clawback
