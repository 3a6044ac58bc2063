import Clawback.Agent.Runs
import Clawback.Agent.Submission

/-!
# What the stored records reveal

Two cases of one owner, submitted in two runs with any interleaving, whose records are compared
with all ciphertexts and commitments blanked.

* `shown_unproposed`, `shown_proposed`: all that a record shows before its approval.
* `at_rest_iff`: of two records with the same ids and times, those without a proposal agree; those
  with one agree exactly if the desired outcomes and the drafted messages do.
* `masked_iff_fields`: without 0G Compute that is a condition on four fields of the inputs.
* `record_leaks`: with another merchant the stored records differ.
-/

namespace Clawback

open Js Async

variable {env : Platform}

/-! ## Blanked records -/

/-- An encrypted payload that is blanked. -/
def blankPayload : EncryptedPayload := ⟨[], [], []⟩

/-- The evidence of an execution with its commitments blanked. -/
def ExecutionEvidence.masked (e : ExecutionEvidence) : ExecutionEvidence :=
  { e with inputCommitment := [], outputCommitment := [] }

/-- A record before its approval, with its ciphertexts and commitments blanked. -/
def CaseRecord.masked (r : CaseRecord) : CaseRecord :=
  { r with
    encryptedInput := blankPayload
    encryptedProposalMessage := r.encryptedProposalMessage.map fun _ => blankPayload
    execution := r.execution.map ExecutionEvidence.masked }

/-- The ids and times in a record before its approval. -/
def CaseRecord.stamps (r : CaseRecord) :
    Str × Str × Str × Option (Str × Str) × Option (Str × Str × Option Str) :=
  (r.caseId, r.createdAt, r.updatedAt,
    r.proposal.map fun proposal => (proposal.proposalId, proposal.createdAt),
    r.execution.map fun execution =>
      (execution.executionId, execution.startedAt, execution.completedAt))

/-- What an analysis leaves in the open. -/
structure SameInTheOpen (a a' : AnalysisResult) : Prop where
  message : messageText a.message = messageText a'.message
  teeAttested : a.teeAttested = a'.teeAttested
  attestation : a.attestation = a'.attestation
  providerAddress : a.providerAddress = a'.providerAddress
  degradedReason : a.degradedReason = a'.degradedReason

/-- With what the call has asked, the analysis of the input has given `analysis`. -/
def Drafts (env : Platform) (deps : OrchestratorDeps) (input : SubscriptionCaseInput)
    (tr : CallTrace) (analysis : AnalysisResult) : Prop :=
  ∃ before since after, tr = before ++ since ++ after ∧
    (analyze env.sha256Hex deps.compute input).Gives since (.ok analysis)

/-- Call `t` submits a case, and `r` is a record of this case that has been stored, by whichever
call, before an approval. -/
structure AtRest (h : AgentHistory) (t : Nat) (deps : OrchestratorDeps) (ownerId : Str)
    (input : SubscriptionCaseInput) (r : CaseRecord) : Prop where
  called : .called t (.submitCase deps ownerId input) ∈ h
  created : ∃ d, Created h t d ∧ d.caseId = r.caseId
  stored : ∃ u, Stored h u r
  unapproved : r.approval = none

/-! ## What a proposal consists of -/

/-- What a record has got from the analysis of the input. -/
structure ProposedFrom (input : SubscriptionCaseInput) (analysis : AnalysisResult)
    (r : CaseRecord) : Prop where
  proposal : ∃ proposalId createdAt, r.proposal = some
    { proposalId
      summary := summarize input
      exactMessage := messageText analysis.message
      estimatedRecoveryCents := estimateRecovery input
      createdAt }
  message : ∃ message, r.encryptedProposalMessage = some message
  execution : ∃ executionId startedAt completedAt,
    r.execution = some (evidenceOf analysis executionId r.caseId startedAt completedAt)
  degradedReason : r.degradedReason = analysis.degradedReason

/-- A submission stores the proposal that follows from its analysis. -/
def Proposing (env : Platform) : Call → CallTrace → Effect → Prop
  | .submitCase deps _ input, tr, .save r => r.state = .actionProposed →
    ∃ analysis, Drafts env deps input tr analysis ∧ ProposedFrom input analysis r
  | _, _, _ => True

/-- 0G Compute has not been asked. -/
def Idle (tr : CallTrace) : Prop := ∀ a ∈ tr, a.effect.isCompute = false

/-- No proposal has been saved. -/
def Unproposed (tr : CallTrace) : Prop :=
  ∀ r, ⟨.save r, .ok ()⟩ ∈ tr → r.state ≠ .actionProposed

/-- 0G Compute has been asked for the analysis alone, which has given `analysis`. -/
def DraftsAlone (env : Platform) (deps : OrchestratorDeps) (input : SubscriptionCaseInput)
    (tr : CallTrace) (analysis : AnalysisResult) : Prop :=
  ∃ before since after, tr = before ++ since ++ after ∧ Idle before ∧ Idle after ∧
    (analyze env.sha256Hex deps.compute input).Gives since (.ok analysis)

/-- A submission asks 0G Compute before it stores a proposal, and stores the one that follows
from its analysis, whose message is a text. -/
def Drafting (env : Platform) : Call → CallTrace → Effect → Prop
  | .submitCase deps _ input, tr, .save r => r.state = .actionProposed →
    ∃ analysis, DraftsAlone env deps input tr analysis ∧ ProposedFrom input analysis r ∧
      ∃ text, analysis.message.json = .str text
  | .submitCase _ _ _, tr, e => e.isCompute = true → Unproposed tr
  | _, _, _ => True

section Rules

variable {deps : OrchestratorDeps} {ownerId : Str} {input : SubscriptionCaseInput} {tr : CallTrace}
  {α β : Type}

@[simp] theorem idle_append {tr tr' : CallTrace} : Idle (tr ++ tr') ↔ Idle tr ∧ Idle tr' :=
  List.forall_mem_append

@[simp] theorem unproposed_append {tr tr' : CallTrace} :
    Unproposed (tr ++ tr') ↔ Unproposed tr ∧ Unproposed tr' := by
  simp only [Unproposed, List.mem_append, or_imp, forall_and]

theorem idle_singleton {a : Entry Effect Effect.Answer JsError}
    (h : a.effect.isCompute = false) : Idle [a] := by
  intro b hb
  rw [List.mem_singleton.mp hb]
  exact h

theorem idle_of_local {since : CallTrace} (h : ∀ a ∈ since, a.effect.isLocal = true) :
    Idle since := by
  intro a ha
  have hlocal := h a ha
  cases he : a.effect <;> rw [he] at hlocal <;> first | rfl | cases hlocal

theorem unproposed_of_quiet {since : CallTrace} (h : ∀ a ∈ since, a.effect.isQuiet = true) :
    Unproposed since := fun _ hr => nomatch h _ hr

theorem drafting_of_local {e : Effect} (h : e.isLocal = true) :
    Drafting env (.submitCase deps ownerId input) tr e := by
  cases e with
  | randomUUID | now | randomBytes _ => exact fun hcompute => nomatch hcompute
  | _ => cases h

theorem drafting_local_bind {S : α → Prop} {p : Action α} {f : α → Action β}
    (hp : Only (fun e => e.isLocal = true) S p)
    (hnext : ∀ a since, S a → Idle since → Unproposed since →
      Obeys (Drafting env (.submitCase deps ownerId input)) (fun _ _ => True) (f a) (tr ++ since)) :
    Obeys (Drafting env (.submitCase deps ownerId input)) (fun _ _ => True) (p >>= f) tr := by
  refine hp.obeys_bind (fun _ _ => drafting_of_local) (fun a since hS hsince => ?_)
    fun _ _ => trivial
  exact hnext a since hS (idle_of_local hsince)
    (unproposed_of_quiet fun b hb => Effect.isQuiet_of_isLocal (hsince b hb))

/-- A transition that does not lead to `ACTION_PROPOSED`. -/
theorem drafting_advance {c : Str} {event : CaseEvent} {f : CaseRecord → Action β}
    (hevent : event.target ≠ .actionProposed)
    (hnext : ∀ r since, Idle since → Unproposed since →
      Obeys (Drafting env (.submitCase deps ownerId input)) (fun _ _ => True) (f r) (tr ++ since)) :
    Obeys (Drafting env (.submitCase deps ownerId input)) (fun _ _ => True)
      (transition c event (purePatch fun _ => {}) >>= f) tr := by
  refine Obeys.bind (obeys_transition_since (T := fun e => e.isLocal = true) (S := fun _ _ => True)
    (fun _ => Effect.isQuiet_of_isLocal) rfl (fun _ _ _ _ => drafting_of_local)
    (fun hcompute => nomatch hcompute) (fun _ => Only.ret trivial) ?_ ?_ fun _ _ _ => trivial)
  · intro r r' changes since _ _ hmoved hstate
    exact absurd (hmoved.target.symm.trans hstate) hevent
  · intro r r' changes since hsince _ hmoved
    rw [List.append_assoc]
    refine hnext r' _ ?_ ?_
    · have hread : Idle [⟨.get c, .ok r⟩] := idle_singleton rfl
      exact idle_append.mpr ⟨idle_append.mpr ⟨hread, idle_of_local hsince⟩, idle_singleton rfl⟩
    · intro s hs
      rcases List.mem_append.mp hs with hs | hs
      · rcases List.mem_cons.mp hs with hs | hs
        · cases hs
        · cases hsince _ hs
      · cases List.mem_singleton.mp hs
        rw [hmoved.target]
        exact hevent

/-- What the patch of `PROPOSE_ACTION` changes. -/
theorem proposalPatch_eq (proposal : ActionProposal) (analysis : AnalysisResult)
    (startedAt : Str) (current : CaseRecord) :
    Only (fun e => e.isLocal = true) (fun patch => ∃ message executionId completedAt, patch =
      { proposal := some (some proposal)
        encryptedProposalMessage := some (some message)
        execution := some (some
          (evidenceOf analysis executionId current.caseId startedAt completedAt))
        degradedReason := some analysis.degradedReason } ∧ ∃ text, analysis.message.json = .str text)
      (proposalPatch env proposal analysis startedAt current) := by
  refine Only.bind (encryptText_locally _) fun message htext => ?_
  refine Only.bind (newId_locally _) fun executionId _ => ?_
  refine Only.bind now_locally fun completedAt _ => ?_
  exact Only.ret ⟨message, executionId, completedAt, rfl, htext⟩

theorem submitCase_drafting :
    Obeys (Drafting env (.submitCase deps ownerId input)) (fun _ _ => True)
      (submitCase env deps ownerId input) [] := by
  unfold submitCase
  refine drafting_local_bind (newId_locally _) fun caseId since₁ _ hidle₁ hnone₁ => ?_
  refine drafting_local_bind now_locally fun startedAt since₂ _ hidle₂ hnone₂ => ?_
  refine drafting_local_bind (encryptText_locally _) fun encryptedInput since₃ _ hidle₃ hnone₃ => ?_
  refine Obeys.bind (Obeys.perform (fun hcompute => nomatch hcompute) fun created => ?_)
  cases created with
  | error x => exact trivial
  | ok _ =>
    refine drafting_advance (by decide) fun _ since₄ hidle₄ hnone₄ => ?_
    refine drafting_advance (by decide) fun _ since₅ hidle₅ hnone₅ => ?_
    generalize htr : [] ++ since₁ ++ since₂ ++ since₃ ++ _ ++ since₄ ++ since₅ = tr
    have hidle : Idle tr := by
      rw [← htr]
      simp only [List.nil_append, idle_append]
      exact ⟨⟨⟨⟨⟨hidle₁, hidle₂⟩, hidle₃⟩, idle_singleton rfl⟩, hidle₄⟩, hidle₅⟩
    have hnone : Unproposed tr := by
      rw [← htr]
      simp only [List.nil_append, unproposed_append]
      refine ⟨⟨⟨⟨⟨hnone₁, hnone₂⟩, hnone₃⟩, ?_⟩, hnone₄⟩, hnone₅⟩
      exact fun r hr => nomatch List.mem_singleton.mp hr
    refine Obeys.bind ((Only.obeys ?_ (analyze_analysing _ _)).gives.mono ?_)
    · intro since e hsince he
      have hquiet : Unproposed since :=
        unproposed_of_quiet fun a ha => Effect.isQuiet_of_isAnalysis (hsince a ha)
      cases e <;> first | exact fun _ => unproposed_append.mpr ⟨hnone, hquiet⟩ | cases he
    rintro r _ ⟨-, since, rfl, hgives⟩
    cases r with
    | error x => exact trivial
    | ok analysis =>
      refine drafting_local_bind (newId_locally _) fun proposalId since₆ _ hidle₆ _ => ?_
      refine drafting_local_bind now_locally fun createdAt since₇ _ hidle₇ _ => ?_
      refine Obeys.bind (obeys_transition_since (fun _ => Effect.isQuiet_of_isLocal) rfl
        (fun _ _ _ _ => drafting_of_local) (fun hcompute => nomatch hcompute)
        (fun r => proposalPatch_eq _ analysis startedAt r) ?_ ?_ fun _ _ _ => trivial)
      · rintro r _ _ since₈ hsince₈ ⟨message, executionId, completedAt, rfl, htext⟩
          ⟨next, updatedAt, -, rfl⟩ -
        have hread : Idle [⟨.get caseId, .ok r⟩] := idle_singleton rfl
        refine ⟨analysis, ⟨tr, since, since₆ ++ since₇ ++ ⟨.get caseId, .ok r⟩ :: since₈, ?_, hidle,
          ?_, hgives⟩, ?_, htext⟩
        · simp only [List.append_assoc]
        · exact idle_append.mpr ⟨idle_append.mpr ⟨hidle₆, hidle₇⟩,
            idle_append.mpr ⟨hread, idle_of_local hsince₈⟩⟩
        · exact ⟨⟨_, _, rfl⟩, ⟨_, rfl⟩, ⟨_, _, _, rfl⟩, rfl⟩
      · intro r r' changes _ _ _ _
        refine drafting_advance (by decide) fun _ _ _ _ => ?_
        refine Obeys.bind (Obeys.perform (fun hcompute => nomatch hcompute) fun final => ?_)
        cases final <;> exact trivial

end Rules

theorem start_drafting (k : Call) :
    Obeys (Drafting env k) (fun _ _ => True) (start env k) [] := by
  cases k with
  | submitCase deps ownerId input =>
    refine Obeys.bind (submitCase_drafting.mono fun r _ _ => ?_)
    cases r <;> exact trivial
  | _ => exact Obeys.free fun _ _ => trivial

theorem proposing_of_drafting {k : Call} {tr : CallTrace} {e : Effect} (h : Drafting env k tr e) :
    Proposing env k tr e := by
  unfold Proposing
  split
  · intro hstate
    obtain ⟨analysis, ⟨before, since, after, heq, -, -, hgives⟩, hfrom, -⟩ := h hstate
    exact ⟨analysis, ⟨before, since, after, heq, hgives⟩, hfrom⟩
  · trivial

theorem start_proposing (k : Call) :
    Obeys (Proposing env k) (fun _ _ => True) (start env k) [] :=
  (start_drafting k).weaken fun _ _ => proposing_of_drafting

/-! ## Records without an approval -/

/-- `r` is `s` in another state, at another time. -/
def Restated (s r : CaseRecord) : Prop := r = { s with state := r.state, updatedAt := r.updatedAt }

/-- Where a record without an approval comes from: it is the created one in another state, or
the one with which a submission has stored the proposal. -/
def ComesFrom (h : AgentHistory) (r : CaseRecord) : Prop :=
  (r.state ∈ unproposedStates ∧ ∃ t d, Created h t d ∧ Restated d r) ∨
    (r.state ∉ unproposedStates ∧ ∃ t s, .did t ⟨.save s, .ok ()⟩ ∈ h ∧
      s.state = .actionProposed ∧ (∃ d, Created h t d ∧ d.caseId = s.caseId) ∧ Restated s r)

theorem ComesFrom.mono {h h' : AgentHistory} {r : CaseRecord} (hr : ComesFrom h r)
    (hsub : h ⊆ h') : ComesFrom h' r := by
  obtain ⟨hstate, t, d, hd, hsame⟩ | ⟨hstate, t, s, hs, hproposed, ⟨d, hd, hid⟩, hsame⟩ := hr
  · exact .inl ⟨hstate, t, d, hsub hd, hsame⟩
  · exact .inr ⟨hstate, t, s, hsub hs, hproposed, ⟨d, hsub hd, hid⟩, hsame⟩

theorem ComesFrom.bare {h : AgentHistory} {r : CaseRecord} (hr : ComesFrom h r)
    {event : CaseEvent} (hevent : event ∈ bareEvents) {r' : CaseRecord}
    (hmoved : Moved event {} r r') : ComesFrom h r' := by
  have hunproposed := (bareEvents_alike event hevent _ hmoved.source).1
  obtain ⟨next, updatedAt, hnext, rfl⟩ := hmoved
  obtain rfl := target_of_applyTransition hnext
  obtain ⟨hstate, t, d, hd, hsame⟩ | ⟨hstate, t, s, hs, hproposed, hd, hsame⟩ := hr
  · refine .inl ⟨hunproposed.mp hstate, t, d, hd, ?_⟩
    rw [hsame]
    rfl
  · refine .inr ⟨mt hunproposed.mpr hstate, t, s, hs, hproposed, hd, ?_⟩
    rw [hsame]
    rfl

theorem advance_bare : ∀ event ∈ [CaseEvent.submit, .beginAnalysis, .requestApproval],
    event ∈ bareEvents := by
  decide

theorem comesFrom_of_changes {h : AgentHistory} {w : World} (hl : AgentLawful env h w) {t : Nat}
    {k : Call} {event : CaseEvent} {patch : CasePatch} {r r' : CaseRecord}
    (hs : SavedFrom env h t k event patch r r') (hr' : Consistent env r')
    (hunapproved : r'.approval = none) (hr : r.approval = none → ComesFrom h r) :
    ComesFrom (h ++ [.did t ⟨.save r', .ok ()⟩]) r' := by
  obtain ⟨h₁, h₂, rfl, -, hchanges⟩ := hs.read
  have hmoved := hs.moved
  have htarget := hmoved.target
  have hbare : event ∈ bareEvents → patch = {} → ComesFrom
      (h₁ ++ .did t ⟨.get r.caseId, .ok r⟩ :: h₂ ++ [.did t ⟨.save r', .ok ()⟩]) r' := by
    rintro hevent rfl
    have hsame : r'.approval = r.approval := by
      obtain ⟨next, updatedAt, -, rfl⟩ := hmoved
      rfl
    have hbefore := hr (hsame.symm.trans hunapproved)
    exact (hbefore.bare hevent hmoved).mono (List.subset_append_left _ _)
  have happroved : event.target ∉ approvedStates := by
    rw [← htarget]
    exact hr'.approval.mp hunapproved
  cases hchanges with
  | advance _ _ hevent =>
    exact hbare (advance_bare event hevent) rfl
  | propose hcreated hid _ =>
    refine .inr ⟨?_, t, r', List.mem_append_right _ (List.mem_singleton_self _), htarget,
      ⟨_, ?_, hid.trans hs.sameCore.caseId.symm⟩, rfl⟩
    · rw [htarget]
      decide
    · exact List.mem_append_left _ (List.mem_append_left _ (mem_own.mp hcreated))
  | reject => exact hbare (by decide) rfl
  | begin => exact absurd (by decide) happroved
  | approve _ _ => exact absurd (by decide) happroved
  | fail _ => exact absurd (by decide) happroved
  | outcome _ hevent _ =>
    refine absurd ?_ happroved
    rw [hevent]
    unfold outcomeEvent
    split <;> decide
  | confirm _ _ _ _ => exact absurd (by decide) happroved

theorem comesFrom_of_stored {h : AgentHistory} {w : World} (hl : AgentLawful env h w) {t : Nat}
    {r : CaseRecord} (hst : Stored h t r) (hunapproved : r.approval = none) : ComesFrom h r := by
  refine stored_induction (I := fun h _ r => Consistent env r → r.approval = none → ComesFrom h r)
    ?_ ?_ ?_ hl hst (consistent_of_stored hl hst) hunapproved
  · exact fun h ev t r ih hr hnone => (ih hr hnone).mono (List.subset_append_left _ _)
  · intro h w t k d _ _ hcreates _ _
    have hstate : d.state = .draft := by
      cases hcreates
      rfl
    refine .inl ⟨by rw [hstate]; decide, t, d, ?_, rfl⟩
    exact List.mem_append_right _ (List.mem_singleton_self _)
  · intro h w t k event patch r r' u hl hs hu ih hr' hnone
    exact comesFrom_of_changes hl hs hr' hnone (ih (consistent_of_stored hl hu))

/-! ## All that a record shows -/

section Shown

variable {h : AgentHistory} {w : World} {t : Nat} {deps : OrchestratorDeps} {ownerId : Str}
  {input : SubscriptionCaseInput} {r : CaseRecord}

/-- The created record is the draft of the submission. -/
theorem AtRest.draft (hl : AgentLawful env h w) (hr : AtRest h t deps ownerId input r) :
    ∃ d encryptedInput startedAt, Created h t d ∧ d.caseId = r.caseId ∧
      d = draftRecord d.caseId ownerId encryptedInput deps.source startedAt := by
  obtain ⟨d, hd, hid⟩ := hr.created
  obtain ⟨h₁, h₂, rfl⟩ := List.append_of_mem hd
  obtain ⟨k, c, w₁, w₂, -, hk, hcreates, -, -⟩ := hl.split rfl
  obtain rfl := hl.called_unique hr.called (List.mem_append_left _ hk)
  refine ⟨d, d.encryptedInput, d.createdAt, hd, hid, ?_⟩
  cases hcreates
  rfl

/-- What a record shows that has neither a proposal nor an approval. -/
theorem shown_unproposed (hl : AgentLawful env h w) (hr : AtRest h t deps ownerId input r)
    (hstate : r.state ∈ unproposedStates) :
    r.masked = { draftRecord r.caseId ownerId blankPayload deps.source r.createdAt with
      state := r.state, updatedAt := r.updatedAt } := by
  obtain ⟨u, hst⟩ := hr.stored
  obtain ⟨d, encryptedInput, startedAt, hd, hid, hdraft⟩ := hr.draft hl
  obtain ⟨-, v, d', hd', hsame⟩ | ⟨hlate, -⟩ := comesFrom_of_stored hl hst hr.unapproved
  · have hid' : d'.caseId = d.caseId := by
      rw [hid, hsame]
    obtain ⟨-, rfl⟩ := created_unique hl hd' hd hid'
    rw [hsame, hdraft]
    rfl
  · exact absurd hstate hlate

/-- The proposal of a record is the one that follows from the analysis of the submission. -/
theorem proposedFrom_of_stored (hl : AgentLawful env h w)
    (hl' : Lawful (agent env) (Proposing env) World.empty h w)
    (hr : AtRest h t deps ownerId input r) (hstate : r.state ∉ unproposedStates) :
    ∃ analysis, Drafts env deps input (own t h) analysis ∧ ProposedFrom input analysis r := by
  obtain ⟨u, hst⟩ := hr.stored
  obtain ⟨d, hd, hid⟩ := hr.created
  obtain ⟨hearly, -⟩ | ⟨-, v, s, hs, hproposed, ⟨d', hd', hid'⟩, hsame⟩ :=
    comesFrom_of_stored hl hst hr.unapproved
  · exact absurd hearly hstate
  have hcase : s.caseId = r.caseId := by
    rw [hsame]
  obtain ⟨rfl, -⟩ := created_unique hl hd' hd (hid'.trans (hcase.trans hid.symm))
  obtain ⟨h₁, h₂, rfl⟩ := List.append_of_mem hs
  obtain ⟨k, c, w₁, w₂, -, hk, hproposing, -, -⟩ := hl'.split rfl
  obtain rfl := hl'.called_unique hr.called (List.mem_append_left _ hk)
  obtain ⟨analysis, ⟨before, since, after, heq, hgives⟩, hfrom⟩ := hproposing hproposed
  refine ⟨analysis, ⟨before, since, after ++ own v (.did v ⟨.save s, .ok ()⟩ :: h₂), ?_, hgives⟩, ?_⟩
  · rw [own_append, heq, List.append_assoc]
  · rw [hsame]
    exact ⟨hfrom.proposal, hfrom.message, hfrom.execution, hfrom.degradedReason⟩

/-- What a record shows that has a proposal and no approval. -/
theorem shown_proposed (hl : AgentLawful env h w) (hr : AtRest h t deps ownerId input r)
    {analysis : AnalysisResult} (hfrom : ProposedFrom input analysis r) :
    ∃ proposalId createdAt executionId startedAt completedAt,
      r.stamps = (r.caseId, r.createdAt, r.updatedAt, some (proposalId, createdAt),
        some (executionId, startedAt, some completedAt)) ∧
      r.masked = { draftRecord r.caseId ownerId blankPayload deps.source r.createdAt with
        state := r.state
        updatedAt := r.updatedAt
        proposal := some
          { proposalId
            summary := summarize input
            exactMessage := messageText analysis.message
            estimatedRecoveryCents := estimateRecovery input
            createdAt }
        encryptedProposalMessage := some blankPayload
        execution :=
          some (evidenceOf analysis executionId r.caseId startedAt completedAt).masked
        degradedReason := analysis.degradedReason } := by
  obtain ⟨u, hst⟩ := hr.stored
  obtain ⟨d, encryptedInput, startedAt, hd, hid, hdraft⟩ := hr.draft hl
  obtain ⟨v, d', hd', hcore⟩ := created_of_stored hl hst
  obtain ⟨-, rfl⟩ := created_unique hl hd' hd (hcore.caseId.symm.trans hid.symm)
  obtain ⟨hunanswered, hunreceipted⟩ :=
    (consistent_of_stored hl hst).blank_of_unapproved hr.unapproved
  obtain ⟨proposalId, createdAt, hproposal⟩ := hfrom.proposal
  obtain ⟨message, hmessage⟩ := hfrom.message
  obtain ⟨executionId, startedAt, completedAt, hexecution⟩ := hfrom.execution
  refine ⟨proposalId, createdAt, executionId, startedAt, completedAt, ?_, ?_⟩
  · unfold CaseRecord.stamps
    rw [hproposal, hexecution]
    rfl
  · have howner : r.ownerId = ownerId := hcore.ownerId.trans (congrArg CaseRecord.ownerId hdraft)
    have hcategory : r.category = .subscriptionCancellation :=
      hcore.category.trans (congrArg CaseRecord.category hdraft)
    have hsettlement : r.settlement = none :=
      hcore.settlement.trans (congrArg CaseRecord.settlement hdraft)
    have henvironment : r.environment = deps.source :=
      hcore.environment.trans (congrArg CaseRecord.environment hdraft)
    unfold CaseRecord.masked
    rw [howner, hcategory, hproposal, hmessage, hr.unapproved, hexecution, hunanswered,
      hunreceipted, hsettlement, henvironment, hfrom.degradedReason]
    rfl

end Shown

/-! ## Two submissions -/

/-- Two records with the same ids and times that have a proposal. -/
theorem masked_iff_sameInTheOpen {h h' : AgentHistory} {w w' : World}
    (hl : AgentLawful env h w) (hl' : AgentLawful env h' w') {t t' : Nat} {deps : OrchestratorDeps}
    {ownerId : Str} {input input' : SubscriptionCaseInput} {r r' : CaseRecord}
    (hr : AtRest h t deps ownerId input r) (hr' : AtRest h' t' deps ownerId input' r')
    (hstate : r.state = r'.state) (hstamps : r.stamps = r'.stamps)
    (hestimate : estimateRecovery input = estimateRecovery input')
    {analysis analysis' : AnalysisResult} (hfrom : ProposedFrom input analysis r)
    (hfrom' : ProposedFrom input' analysis' r') :
    r.masked = r'.masked ↔
      input.desiredOutcome = input'.desiredOutcome ∧ SameInTheOpen analysis analysis' := by
  obtain ⟨proposalId, createdAt, executionId, startedAt, completedAt, hids, hshown⟩ :=
    shown_proposed hl hr hfrom
  obtain ⟨_, _, _, _, _, hids', hshown'⟩ := shown_proposed hl' hr' hfrom'
  have hsame := hids.symm.trans (hstamps.trans hids')
  simp only [Prod.mk.injEq, Option.some.injEq] at hsame
  obtain ⟨hcase, hcreated, hupdated, ⟨rfl, rfl⟩, rfl, rfl, rfl⟩ := hsame
  rw [hshown, hshown', hcase, hcreated, hupdated, hstate, hestimate]
  constructor
  · intro hmasked
    simp only [CaseRecord.mk.injEq, Option.some.injEq, ActionProposal.mk.injEq, true_and,
      and_true] at hmasked
    obtain ⟨⟨hsummary, hmessage⟩, hexecution, hdegraded⟩ := hmasked
    refine ⟨List.append_cancel_left hsummary, hmessage, ?_, ?_, ?_, hdegraded⟩
    · exact congrArg ExecutionEvidence.teeAttested hexecution
    · exact congrArg ExecutionEvidence.attestationEvidence hexecution
    · exact congrArg ExecutionEvidence.providerAddress hexecution
  · rintro ⟨houtcome, hopen⟩
    have hsummary : summarize input = summarize input' := congrArg (js "Requesting: " ++ ·) houtcome
    unfold ExecutionEvidence.masked evidenceOf
    rw [hsummary, hopen.message, hopen.teeAttested, hopen.attestation, hopen.providerAddress,
      hopen.degradedReason]

/-- Without 0G Compute an analysis gives the fallback message. -/
theorem fallback_of_drafts {deps : OrchestratorDeps} {input : SubscriptionCaseInput}
    {tr : CallTrace} {analysis : AnalysisResult} (hcompute : deps.compute = none)
    (h : Drafts env deps input tr analysis) :
    ∃ reason, analysis = buildUnattestedResult env.sha256Hex (generateFallbackMessage input)
      (analysedCommitment env.sha256Hex input) reason ∧
      reason = js "ZG_COMPUTE_PRIVATE_KEY not set — 0G Compute is unconfigured." := by
  obtain ⟨_, since, _, -, hgives⟩ := h
  rw [hcompute] at hgives
  obtain ⟨-, hanalysis⟩ := hgives
  exact ⟨_, Except.ok.inj hanalysis, rfl⟩

theorem messageText_ofStr (text : Str) : messageText (.ofStr text) = text := rfl

theorem sameInTheOpen_unattested {sha256Hex : Str → Str} {message message' : Str}
    {inputCommitment inputCommitment' reason : Str} :
    SameInTheOpen (buildUnattestedResult sha256Hex message inputCommitment reason)
      (buildUnattestedResult sha256Hex message' inputCommitment' reason) ↔ message = message' := by
  constructor
  · intro hopen
    have hmessage := hopen.message
    unfold buildUnattestedResult at hmessage
    rwa [messageText_ofStr, messageText_ofStr] at hmessage
  · rintro rfl
    exact ⟨rfl, rfl, rfl, rfl, rfl⟩

/-- The proposals of two submissions without 0G Compute. -/
theorem sameInTheOpen_unconfigured {deps : OrchestratorDeps} {input input' : SubscriptionCaseInput}
    {tr tr' : CallTrace} {analysis analysis' : AnalysisResult} (hcompute : deps.compute = none)
    (h : Drafts env deps input tr analysis) (h' : Drafts env deps input' tr' analysis') :
    SameInTheOpen analysis analysis' ↔
      generateFallbackMessage input = generateFallbackMessage input' := by
  obtain ⟨reason, rfl, hreason⟩ := fallback_of_drafts hcompute h
  obtain ⟨reason', rfl, hreason'⟩ := fallback_of_drafts hcompute h'
  rw [hreason, hreason']
  exact sameInTheOpen_unattested

/-- The records with a proposal of two submissions without 0G Compute. -/
theorem masked_iff_unconfigured {h h' : AgentHistory} {w w' : World}
    (hl : AgentLawful env h w) (hl' : AgentLawful env h' w')
    (hproposing : Lawful (agent env) (Proposing env) World.empty h w)
    (hproposing' : Lawful (agent env) (Proposing env) World.empty h' w') {t t' : Nat}
    {deps : OrchestratorDeps} {ownerId : Str} {input input' : SubscriptionCaseInput}
    {r r' : CaseRecord} (hr : AtRest h t deps ownerId input r)
    (hr' : AtRest h' t' deps ownerId input' r') (hstate : r.state = r'.state)
    (hstamps : r.stamps = r'.stamps)
    (hestimate : estimateRecovery input = estimateRecovery input')
    (hlate : r.state ∉ unproposedStates) (hcompute : deps.compute = none) :
    r.masked = r'.masked ↔ input.desiredOutcome = input'.desiredOutcome ∧
      generateFallbackMessage input = generateFallbackMessage input' := by
  obtain ⟨analysis, hdrafts, hfrom⟩ := proposedFrom_of_stored hl hproposing hr hlate
  obtain ⟨analysis', hdrafts', hfrom'⟩ := proposedFrom_of_stored hl' hproposing' hr' (hstate ▸ hlate)
  rw [masked_iff_sameInTheOpen hl hl' hr hr' hstate hstamps hestimate hfrom hfrom',
    sameInTheOpen_unconfigured hcompute hdrafts hdrafts']

/-- The sentence of the fallback message on the account. -/
def accountLine (input : SubscriptionCaseInput) : Str :=
  input.merchantName ++ (js " account ending in " ++ (input.accountIdentifierLast4 ++
    (js ". " ++ input.subscriptionDetails)))

/-- Beside the desired outcome, the fallback message gives that sentence. -/
theorem fallback_eq_iff {input input' : SubscriptionCaseInput}
    (houtcome : input.desiredOutcome = input'.desiredOutcome) :
    generateFallbackMessage input = generateFallbackMessage input' ↔
      accountLine input = accountLine input' := by
  unfold generateFallbackMessage accountLine
  rw [houtcome]
  simp only [List.append_assoc, List.append_cancel_left_eq]
  simp only [← List.append_assoc, List.append_cancel_right_eq]

/-- Names and digits of the same lengths can be told apart in it. -/
theorem accountLine_eq_iff {input input' : SubscriptionCaseInput}
    (hname : input.merchantName.length = input'.merchantName.length)
    (hdigits : input.accountIdentifierLast4.length = input'.accountIdentifierLast4.length) :
    accountLine input = accountLine input' ↔
      input.merchantName = input'.merchantName ∧
      input.accountIdentifierLast4 = input'.accountIdentifierLast4 ∧
      input.subscriptionDetails = input'.subscriptionDetails := by
  unfold accountLine
  constructor
  · intro h
    obtain ⟨hsame, h⟩ := List.append_inj h hname
    obtain ⟨hsame', h⟩ := List.append_inj (List.append_cancel_left h) hdigits
    exact ⟨hsame, hsame', List.append_cancel_left h⟩
  · rintro ⟨hsame, hsame', hdetails⟩
    rw [hsame, hsame', hdetails]

/-- The condition for records with a proposal without 0G Compute, in the fields of the inputs:
the desired outcomes are the same, and so are the sentences on the account. Where the merchants'
names and the account digits have the same lengths, these are four fields of the input. -/
theorem masked_iff_fields {h h' : AgentHistory} {w w' : World}
    (hl : AgentLawful env h w) (hl' : AgentLawful env h' w')
    (hproposing : Lawful (agent env) (Proposing env) World.empty h w)
    (hproposing' : Lawful (agent env) (Proposing env) World.empty h' w') {t t' : Nat}
    {deps : OrchestratorDeps} {ownerId : Str} {input input' : SubscriptionCaseInput}
    {r r' : CaseRecord} (hr : AtRest h t deps ownerId input r)
    (hr' : AtRest h' t' deps ownerId input' r') (hstate : r.state = r'.state)
    (hstamps : r.stamps = r'.stamps)
    (hestimate : estimateRecovery input = estimateRecovery input')
    (hlate : r.state ∉ unproposedStates) (hcompute : deps.compute = none) :
    (r.masked = r'.masked ↔ input.desiredOutcome = input'.desiredOutcome ∧
      accountLine input = accountLine input') ∧
    (input.merchantName.length = input'.merchantName.length →
      input.accountIdentifierLast4.length = input'.accountIdentifierLast4.length →
      (r.masked = r'.masked ↔ input.desiredOutcome = input'.desiredOutcome ∧
        input.merchantName = input'.merchantName ∧
        input.accountIdentifierLast4 = input'.accountIdentifierLast4 ∧
        input.subscriptionDetails = input'.subscriptionDetails)) := by
  have hmasked := masked_iff_unconfigured hl hl' hproposing hproposing' hr hr' hstate hstamps
    hestimate hlate hcompute
  have hfields := hmasked.trans (and_congr_right fallback_eq_iff)
  exact ⟨hfields, fun hname hdigits =>
    hfields.trans (and_congr_right fun _ => accountLine_eq_iff hname hdigits)⟩

/-- **Data at rest.** Two cases of one owner are submitted, each in a run with any interleaving of
calls and with failures at any step. Two records of them that are stored before an approval, in the
same state and with the same ids, times and estimated recovery, agree outside ciphertexts and
commitments if they have no proposal. If they have one, they agree exactly if the desired outcomes
are the same and the analyses leave the same in the open; without 0G Compute that is the fallback
message. -/
theorem at_rest_iff {moves moves' : List (Move Call Choice)}
    {p p' : Pool Call Effect Effect.Answer JsError World CallResult}
    (hrun : (agent env).run (Pool.init World.empty) moves = some p)
    (hrun' : (agent env).run (Pool.init World.empty) moves' = some p') {t t' : Nat}
    {deps : OrchestratorDeps} {ownerId : Str} {input input' : SubscriptionCaseInput}
    {r r' : CaseRecord} (hr : AtRest p.history t deps ownerId input r)
    (hr' : AtRest p'.history t' deps ownerId input' r') (hstate : r.state = r'.state)
    (hstamps : r.stamps = r'.stamps)
    (hestimate : estimateRecovery input = estimateRecovery input') :
    (r.state ∈ unproposedStates → r.masked = r'.masked) ∧
    (r.state ∉ unproposedStates →
      (∃ analysis analysis', Drafts env deps input (own t p.history) analysis ∧
        Drafts env deps input' (own t' p'.history) analysis' ∧
        (r.masked = r'.masked ↔
          input.desiredOutcome = input'.desiredOutcome ∧ SameInTheOpen analysis analysis')) ∧
      (deps.compute = none →
        (r.masked = r'.masked ↔ input.desiredOutcome = input'.desiredOutcome ∧
          generateFallbackMessage input = generateFallbackMessage input'))) := by
  have hl := (System.run_lawful start_obeys hrun).lawful
  have hl' := (System.run_lawful start_obeys hrun').lawful
  have hproposing := (System.run_lawful start_proposing hrun).lawful
  have hproposing' := (System.run_lawful start_proposing hrun').lawful
  refine ⟨fun hearly => ?_, fun hlate => ⟨?_, ?_⟩⟩
  · rw [shown_unproposed hl hr hearly, shown_unproposed hl' hr' (hstate ▸ hearly)]
    have hsame := hstamps
    unfold CaseRecord.stamps at hsame
    simp only [Prod.mk.injEq] at hsame
    rw [hsame.1, hsame.2.1, hsame.2.2.1, hstate]
  · obtain ⟨analysis, hdrafts, hfrom⟩ := proposedFrom_of_stored hl hproposing hr hlate
    obtain ⟨analysis', hdrafts', hfrom'⟩ :=
      proposedFrom_of_stored hl' hproposing' hr' (hstate ▸ hlate)
    exact ⟨analysis, analysis', hdrafts, hdrafts',
      masked_iff_sameInTheOpen hl hl' hr hr' hstate hstamps hestimate hfrom hfrom'⟩
  · exact masked_iff_unconfigured hl hl' hproposing hproposing' hr hr' hstate hstamps hestimate hlate

/-! ## Sample runs -/

/-- An input is submitted to the sandbox. -/
def submissionOf (input : SubscriptionCaseInput) : List (Move Call Choice) :=
  .call (.submitCase sampleDeps (js "user_1") input) :: sampleChoices.map (.step 0)

theorem atRest_of_submission {input : SubscriptionCaseInput}
    {p : Pool Call Effect Effect.Answer JsError World CallResult}
    (hrun : (agent samplePlatform).run (Pool.init World.empty) (submissionOf input) = some p)
    {u : Nat} {r : CaseRecord} (hst : Stored p.history u r) (hunapproved : r.approval = none) :
    AtRest p.history 0 sampleDeps (js "user_1") input r := by
  have hsound := System.run_lawful start_obeys hrun
  have hcalls : p.threads.map Prod.fst = [.submitCase sampleDeps (js "user_1") input] :=
    System.calls_of_run hrun
  have hlength : p.threads.length = 1 := by
    rw [← List.length_map Prod.fst, hcalls]
    rfl
  have hthread : ∃ q, p.threads[0]? = some (.submitCase sampleDeps (js "user_1") input, q) := by
    have hfirst : (p.threads.map Prod.fst)[0]? =
        some (.submitCase sampleDeps (js "user_1") input) := by
      rw [hcalls]
      rfl
    rw [List.getElem?_map] at hfirst
    obtain ⟨⟨k, q⟩, hq, rfl⟩ := Option.map_eq_some_iff.mp hfirst
    exact ⟨q, hq⟩
  obtain ⟨q, hq⟩ := hthread
  obtain ⟨v, d, hd, hcore⟩ := created_of_stored hsound.lawful hst
  have hv : v < 1 := hlength ▸ hsound.numbered _ hd
  obtain rfl : v = 0 := by omega
  exact ⟨hsound.called 0 _ q hq, ⟨d, hd, hcore.caseId.symm⟩, ⟨u, hst⟩, hunapproved⟩

/-- A stored record that awaits approval. -/
def awaitingRecord (p : Pool Call Effect Effect.Answer JsError World CallResult) :
    Option (Nat × CaseRecord) :=
  ((caseRegister (js "case_1")).writes p.history).find? fun tr =>
    tr.2.state == .awaitingApproval && tr.2.approval.isNone

/-- Both runs store a record that awaits approval, with the same ids and times. -/
def sameStamps (p p' : Pool Call Effect Effect.Answer JsError World CallResult) : Bool :=
  match awaitingRecord p, awaitingRecord p' with
  | some tr, some tr' => tr.2.stamps == tr'.2.stamps
  | _, _ => false

theorem awaitingRecord_spec {p : Pool Call Effect Effect.Answer JsError World CallResult}
    {t : Nat} {r : CaseRecord} (h : awaitingRecord p = some (t, r)) :
    Stored p.history t r ∧ r.state = .awaitingApproval ∧ r.approval = none := by
  have hr := List.find?_some h
  simp only [Bool.and_eq_true, beq_iff_eq, Option.isNone_iff_eq_none] at hr
  exact ⟨(mem_writes_iff.mp (List.mem_of_find?_eq_some h)).1, hr⟩

theorem atRest_of_sameStamps (input input' : SubscriptionCaseInput)
    (h : (((agent samplePlatform).run (Pool.init World.empty) (submissionOf input)).any fun p =>
      ((agent samplePlatform).run (Pool.init World.empty) (submissionOf input')).any
        (sameStamps p)) = true) :
    ∃ p p' r r', (agent samplePlatform).run (Pool.init World.empty) (submissionOf input) = some p ∧
      (agent samplePlatform).run (Pool.init World.empty) (submissionOf input') = some p' ∧
      AtRest p.history 0 sampleDeps (js "user_1") input r ∧
      AtRest p'.history 0 sampleDeps (js "user_1") input' r' ∧
      r.state = .awaitingApproval ∧ r'.state = .awaitingApproval ∧ r.stamps = r'.stamps := by
  obtain ⟨p, hrun, hp⟩ := (Option.any_eq_true _ _).mp h
  obtain ⟨p', hrun', hp'⟩ := (Option.any_eq_true _ _).mp hp
  unfold sameStamps at hp'
  split at hp'
  · rename_i tr tr' hr hr'
    obtain ⟨hst, hstate, hnone⟩ := awaitingRecord_spec hr
    obtain ⟨hst', hstate', hnone'⟩ := awaitingRecord_spec hr'
    exact ⟨p, p', tr.2, tr'.2, hrun, hrun', atRest_of_submission hrun hst hnone,
      atRest_of_submission hrun' hst' hnone', hstate, hstate', eq_of_beq hp'⟩
  · cases hp'

/-- The fallback message does not use the address. -/
theorem fallback_contactAddress (input : SubscriptionCaseInput) (contactAddress : Str) :
    generateFallbackMessage input = generateFallbackMessage { input with contactAddress } := rfl

/-- The estimate uses neither the merchant nor the address. -/
theorem estimateRecovery_other (input : SubscriptionCaseInput) (merchantName contactAddress : Str) :
    estimateRecovery input = estimateRecovery { input with merchantName, contactAddress } := rfl

/-- Another address of the merchant. -/
def otherAddress : SubscriptionCaseInput :=
  { sampleInput with contactAddress := js "billing@example.test" }

set_option maxRecDepth 10000 in
theorem at_rest_iff_sample :
    ∃ p p' r r',
      (agent samplePlatform).run (Pool.init World.empty) (submissionOf sampleInput) = some p ∧
      (agent samplePlatform).run (Pool.init World.empty) (submissionOf otherAddress) = some p' ∧
      AtRest p.history 0 sampleDeps (js "user_1") sampleInput r ∧
      AtRest p'.history 0 sampleDeps (js "user_1") otherAddress r' ∧
      r.state = .awaitingApproval ∧ r.masked = r'.masked := by
  obtain ⟨p, p', r, r', hrun, hrun', hr, hr', hstate, hstate', hstamps⟩ :=
    atRest_of_sameStamps sampleInput otherAddress (by decide +kernel)
  refine ⟨p, p', r, r', hrun, hrun', hr, hr', hstate, ?_⟩
  have hlate : r.state ∉ unproposedStates := by
    rw [hstate]
    decide
  have hestimate : estimateRecovery sampleInput = estimateRecovery otherAddress :=
    estimateRecovery_other sampleInput _ _
  have hboth := at_rest_iff hrun hrun' hr hr' (hstate.trans hstate'.symm) hstamps hestimate
  exact ((hboth.2 hlate).2 rfl).mpr ⟨rfl, fallback_contactAddress sampleInput _⟩

/-- The same case with another merchant. -/
def otherGym : SubscriptionCaseInput := { sampleInput with merchantName := js "Bolt Gym" }

set_option maxRecDepth 10000 in
/-- The stored proposal tells the merchant. -/
theorem record_leaks :
    ∃ p p' r r',
      (agent samplePlatform).run (Pool.init World.empty) (submissionOf sampleInput) = some p ∧
      (agent samplePlatform).run (Pool.init World.empty) (submissionOf otherGym) = some p' ∧
      AtRest p.history 0 sampleDeps (js "user_1") sampleInput r ∧
      AtRest p'.history 0 sampleDeps (js "user_1") otherGym r' ∧
      r.state = r'.state ∧ r.stamps = r'.stamps ∧
      estimateRecovery sampleInput = estimateRecovery otherGym ∧ r.masked ≠ r'.masked := by
  obtain ⟨p, p', r, r', hrun, hrun', hr, hr', hstate, hstate', hstamps⟩ :=
    atRest_of_sameStamps sampleInput otherGym (by decide +kernel)
  have hestimate : estimateRecovery sampleInput = estimateRecovery otherGym :=
    estimateRecovery_other sampleInput _ _
  refine ⟨p, p', r, r', hrun, hrun', hr, hr', hstate.trans hstate'.symm, hstamps, hestimate, ?_⟩
  intro hmasked
  have hlate : r.state ∉ unproposedStates := by
    rw [hstate]
    decide
  have hfields := (masked_iff_fields (System.run_lawful start_obeys hrun).lawful
    (System.run_lawful start_obeys hrun').lawful (System.run_lawful start_proposing hrun).lawful
    (System.run_lawful start_proposing hrun').lawful hr hr' (hstate.trans hstate'.symm) hstamps
    hestimate hlate rfl).1
  exact absurd (hfields.mp hmasked).2 (by decide +kernel)

end Clawback
