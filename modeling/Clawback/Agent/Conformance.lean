import Clawback.Agent.Rules

/-!
# The calls obey the rules

* `start_obeys`: every call asks only for what its rules allow, whatever its effects are
  answered, and ends with its postcondition.
-/

namespace Clawback

open Js Async

variable {env : Platform}

/-! ## Submitting a case -/

theorem encryptText_locally (plaintext : Json Int) :
    Only (fun e => e.isLocal = true) (fun _ => ∃ text, plaintext = .str text)
      (encryptText env plaintext) :=
  Only.bind (Only.perform rfl) fun _ _ => Only.lift fun _ h => str_of_encryptAtRest h

theorem encryptText_quietly (plaintext : Json Int) :
    Quietly (fun _ => ∃ text, plaintext = .str text) (encryptText env plaintext) :=
  Only.mono (fun _ => Effect.isQuiet_of_isLocal) (encryptText_locally plaintext)

theorem now_locally : Only (fun e => e.isLocal = true) (fun _ => True) now :=
  Only.perform (S := fun e : Effect => e.isLocal = true) rfl

theorem newId_locally (pre : Str) :
    Only (fun e => e.isLocal = true) (fun _ => True) (newId pre) :=
  Only.bind (Only.perform rfl) fun _ _ => Only.ret trivial

theorem newId_quietly (pre : Str) : Quietly (fun _ => True) (newId pre) :=
  Only.mono (fun _ => Effect.isQuiet_of_isLocal) (newId_locally pre)

theorem proposalPatch_quietly {input : SubscriptionCaseInput} {analysis : AnalysisResult}
    {proposal : ActionProposal} {startedAt : Str} (hcommits : analysis.Commits env.sha256Hex input)
    (hmessage : proposal.exactMessage = messageText analysis.message) (current : CaseRecord) :
    Quietly (fun patch => ∃ message execution,
        Proposes env current.caseId input patch proposal message execution)
      (proposalPatch env proposal analysis startedAt current) := by
  refine Only.bind (encryptText_quietly _) fun message htext => ?_
  refine Only.bind (newId_quietly _) fun executionId _ => ?_
  refine Only.bind now_quietly fun completedAt _ => ?_
  obtain ⟨text, htext⟩ := htext
  refine Only.ret ⟨message, _, ⟨_, rfl⟩, hcommits.inputCommitment, ?_, rfl⟩
  rw [hmessage, messageText, htext]
  exact htext ▸ hcommits.outputCommitment

theorem Follows.advance_bind {β : Type} {Q : β → CallTrace → Prop} {deps : OrchestratorDeps}
    {ownerId : Str} {input : SubscriptionCaseInput} {draft : CaseRecord} {event : CaseEvent}
    {f : CaseRecord → Action β} {tr : CallTrace} (hcreated : ⟨.create draft, .ok ()⟩ ∈ tr)
    (hevent : event ∈ [.submit, .beginAnalysis, .requestApproval])
    (hbelow : Below event.target.rank tr)
    (hnext : ∀ r tr', ⟨.create draft, .ok ()⟩ ∈ tr' → Below (event.target.rank + 1) tr' →
      Follows env (.submitCase deps ownerId input) Q (f r) tr') :
    Follows env (.submitCase deps ownerId input) Q
      (transition draft.caseId event (purePatch fun _ => {}) >>= f) tr := by
  refine Follows.transition_bind (purePatch_quietly _) hbelow ?_ ?_
  · rintro r _ rfl
    exact .advance hcreated rfl hevent
  · exact fun r r' changes tr' _ _ hgrows _ hbelow' =>
      hnext r' tr' (hgrows.mem _ hcreated) hbelow'

theorem submitCase_follows (deps : OrchestratorDeps) (ownerId : Str)
    (input : SubscriptionCaseInput) :
    Follows env (.submitCase deps ownerId input) (fun _ _ => True)
      (submitCase env deps ownerId input) [] := by
  rw [submitCase, newId, bind_assoc]
  refine Follows.perform_bind trivial fun uuid => ?_
  rw [pure_bind]
  refine Follows.perform_bind trivial fun startedAt => ?_
  rw [encryptText, bind_assoc]
  refine Follows.perform_bind trivial fun iv => ?_
  refine Follows.lift_bind fun encryptedInput hencrypted => ?_
  refine Follows.perform_bind ?_ fun _ => ?_
  · refine .mk ?_ (by simp) (by simp) hencrypted
    intro a ha
    simp only [List.nil_append, List.cons_append, List.mem_cons, List.not_mem_nil,
      or_false] at ha
    rcases ha with rfl | rfl | rfl <;> rfl
  generalize htrace : _ ++ [(⟨.create _, .ok _⟩ : Entry Effect Effect.Answer JsError)] = tr
  have hbelow : Below CaseState.submitted.rank tr := by
    rintro r hr
    rw [← htrace] at hr
    cases List.mem_singleton.mp hr
    exact rank_lt_of_mem .draft (.submit, .submitted) (by decide)
  have hcreated : ⟨.create (draftRecord (js "case" ++ js "_" ++ uuid) ownerId encryptedInput
      deps.source startedAt), .ok ()⟩ ∈ tr := htrace ▸ by simp
  clear htrace
  refine Follows.advance_bind hcreated (by simp) hbelow fun _ tr hcreated hbelow => ?_
  refine Follows.advance_bind hcreated (by simp) hbelow fun _ tr hcreated hbelow => ?_
  refine Follows.quiet_bind (analyze_quietly _ _) fun analysis _ hcommits hsince => ?_
  refine Follows.quiet_bind (newId_quietly _) fun proposalId _ _ hsince₁ => ?_
  refine Follows.quiet_bind now_quietly fun createdAt tr' _ hsince₂ => ?_
  have hcreated' := hsince₂.grows.mem _ (hsince₁.grows.mem _ (hsince.grows.mem _ hcreated))
  have hbelow' := hsince₂.below (hsince₁.below (hsince.below hbelow))
  refine Follows.transition_bind (proposalPatch_quietly hcommits rfl) hbelow' ?_ ?_
  · rintro r changes ⟨message, execution, hproposes⟩
    exact .propose hcreated' rfl hproposes
  · intro r r' changes tr'' _ _ hgrows _ hbelow''
    refine Follows.advance_bind (hgrows.mem _ hcreated') (by simp) hbelow'' fun _ _ _ _ => ?_
    exact Follows.perform_bind trivial fun _ => Follows.ret trivial

/-! ## Deciding on a proposal -/

theorem rejectProposal_follows (caseId ownerId : Str) :
    Follows env (.rejectProposal caseId ownerId)
      (fun _ tr => ∃ r, ⟨.save r, .ok ()⟩ ∈ tr ∧ r.state = .rejected)
      (rejectProposal caseId ownerId) [] := by
  refine Follows.getForOwner_bind fun r _ => ?_
  refine Follows.transition_bind (purePatch_quietly _) ?_ ?_ ?_
  · exact fun w hw => (List.not_mem_nil hw).elim
  · rintro r _ rfl
    exact .reject
  · exact fun r r' changes tr' _ hmoved _ hsaved _ =>
      Follows.ret ⟨r', hsaved, hmoved.target⟩

theorem proposalToApprove_eq_ok {current : CaseRecord} {proposalId : Str}
    {proposal : ActionProposal} (h : proposalToApprove current proposalId = .ok proposal) :
    current.proposal = some proposal ∧ proposal.proposalId = proposalId := by
  rw [proposalToApprove] at h
  split at h
  · rename_i found hfound
    split at h
    · rename_i hid
      cases h
      exact ⟨hfound, hid⟩
    · cases h
  · cases h

theorem storeReceipt_quietly (deps : OrchestratorDeps) (receipt : ClawbackReceipt) :
    Quietly (fun r => ∃ anchor, r = { receipt with anchor }) (storeReceipt deps receipt) := by
  rw [storeReceipt]
  split
  · refine Only.bind (Only.attempt (perform_quietly rfl)) fun r _ => ?_
    cases r with
    | ok stored => exact Only.ret ⟨_, rfl⟩
    | error _ => exact Only.ret ⟨receipt.anchor, rfl⟩
  · exact Only.ret ⟨receipt.anchor, rfl⟩

theorem anchorReceipt_quietly (deps : OrchestratorDeps) (caseId : Str)
    (receipt : ClawbackReceipt) :
    Quietly (fun r => ∃ anchor, r = { receipt with anchor })
      (anchorReceipt env deps caseId receipt) := by
  rw [anchorReceipt]
  split
  · refine Only.bind (Only.attempt (perform_quietly rfl)) fun r _ => ?_
    cases r with
    | ok anchored => exact Only.ret ⟨_, rfl⟩
    | error _ => exact Only.ret ⟨receipt.anchor, rfl⟩
  · exact Only.ret ⟨receipt.anchor, rfl⟩

theorem settle_quietly (caseId : Str) (outcome : OutcomeEvidence) :
    Quietly (fun _ => True) (settle caseId outcome) := by
  rw [settle]
  split
  · split
    · refine Only.bind (Only.lift fun _ _ => trivial) fun fee _ => ?_
      exact Only.bind (perform_quietly rfl) fun _ _ => Only.ret trivial
    · exact Only.ret trivial
  · exact Only.ret trivial

section Approve

variable {deps : OrchestratorDeps} {caseId ownerId proposalId : Str} {proposal : ActionProposal}
  {current : CaseRecord} {tr : CallTrace}

theorem Checked.mono {tr' : CallTrace}
    (h : Checked caseId ownerId proposalId proposal current tr) (hmem : ∀ a ∈ tr, a ∈ tr') :
    Checked caseId ownerId proposalId proposal current tr' :=
  ⟨hmem _ h.1, h.2⟩

theorem recordFailure_follows (error : JsError)
    (hchecked : Checked caseId ownerId proposalId proposal current tr)
    (hbelow : Below CaseState.outcomePending.rank tr) :
    Follows env (.approveAndExecute deps caseId ownerId proposalId) (fun _ _ => True)
      (recordFailure caseId error) tr := by
  refine Follows.transition_bind (purePatch_quietly _) (hbelow.mono (by decide)) ?_ ?_
  · rintro r _ rfl
    exact .fail hchecked
  · intro r r' changes tr' _ _ _ _ _
    exact Follows.perform_bind trivial fun _ => Follows.ret trivial

theorem finalize_follows {input : SubscriptionCaseInput} {outcome : OutcomeEvidence}
    {afterOutcome : CaseRecord} (hchecked : Checked caseId ownerId proposalId proposal current tr)
    (hinput : decryptInput env current = .ok input) (hsaved : ⟨.save afterOutcome, .ok ()⟩ ∈ tr)
    (hstate : afterOutcome.state = .outcomePending)
    (hbelow : Below (CaseState.outcomePending.rank + 1) tr) :
    Follows env (.approveAndExecute deps caseId ownerId proposalId) (fun _ _ => True)
      (finalize env deps caseId input outcome afterOutcome) tr := by
  refine Follows.lift_bind fun built hbuilt => ?_
  refine Follows.quiet_bind (newId_quietly _) fun receiptId _ _ hsince₁ => ?_
  refine Follows.quiet_bind now_quietly fun createdAt _ _ hsince₂ => ?_
  refine Follows.lift_bind fun _ _ => ?_
  refine Follows.quiet_bind (storeReceipt_quietly _ _) fun stored _ hstored hsince₃ => ?_
  refine Follows.quiet_bind (anchorReceipt_quietly _ _ _) fun anchored _ hanchored hsince₄ => ?_
  refine Follows.quiet_bind (settle_quietly _ _) fun _ tr' _ hsince₅ => ?_
  have hgrows : Grows tr tr' := hsince₁.grows.trans (hsince₂.grows.trans
    (hsince₃.grows.trans (hsince₄.grows.trans hsince₅.grows)))
  have hbelow' : Below CaseState.verifiedSuccess.rank tr' :=
    hsince₅.below (hsince₄.below (hsince₃.below (hsince₂.below (hsince₁.below hbelow))))
  obtain ⟨anchor, rfl⟩ := hstored
  obtain ⟨anchor', rfl⟩ := hanchored
  refine Follows.transition_bind (purePatch_quietly _) hbelow' ?_ ?_
  · rintro r _ rfl
    refine .confirm (hchecked.mono hgrows.mem) (hgrows.mem _ hsaved) hstate ?_
    exact ⟨input, built, receiptId, createdAt, anchor', hinput, hbuilt, rfl⟩
  · exact fun _ _ _ _ _ _ _ _ _ => Follows.ret trivial

theorem recordOutcome_follows {input : SubscriptionCaseInput} {outcome : OutcomeEvidence}
    (hchecked : Checked caseId ownerId proposalId proposal current tr)
    (hinput : decryptInput env current = .ok input) (hcase : outcome.caseId = caseId)
    (hbelow : Below CaseState.outcomePending.rank tr) :
    Follows env (.approveAndExecute deps caseId ownerId proposalId) (fun _ _ => True)
      (recordOutcome env deps caseId input outcome) tr := by
  refine Follows.transition_bind (purePatch_quietly _) ?_ ?_ ?_
  · apply hbelow.mono
    rw [outcomeEvent]
    split <;> decide
  · rintro r _ rfl
    exact .outcome hchecked rfl hcase
  · intro r r' changes tr' _ hmoved hgrows hsaved hbelow'
    split
    · exact Follows.ret trivial
    · rename_i hresponse
      have hevent : outcomeEvent outcome = .executionSucceeded := if_neg hresponse
      have htarget := hmoved.target
      rw [hevent] at htarget hbelow'
      exact finalize_follows (hchecked.mono hgrows.mem) hinput hsaved htarget hbelow'

/-- The attempt to send adds one action to the trace and stores nothing; its outcome is one of the
case. -/
theorem sendForOutcome_obeys {input : SubscriptionCaseInput} {message : Str}
    (hsend : Sends env (.approveAndExecute deps caseId ownerId proposalId) tr
      { caseId, input, exactMessage := message }) :
    Obeys (Allowed env (.approveAndExecute deps caseId ownerId proposalId))
      (fun r tr' => (∀ a ∈ tr, a ∈ tr') ∧ written tr' = written tr ∧
        ∀ outcome, r = .ok outcome → outcome.caseId = caseId)
      (sendForOutcome caseId input message) tr := by
  have hstep : ∀ r : Except JsError ProviderActionResult,
      written (tr ++ [⟨.sendAction { caseId, input, exactMessage := message }, r⟩]) =
        written tr := by
    intro r
    rw [written_append]
    exact List.append_nil _
  refine Obeys.bind (Obeys.perform hsend fun r => ?_)
  cases r with
  | error x => exact ⟨fun _ ha => List.mem_append_left _ ha, hstep _, fun _ h => nomatch h⟩
  | ok result =>
    refine Obeys.bind ((Only.obeys (fun _ _ _ => allowed_of_quiet) now_quietly).mono ?_)
    rintro r tr' ⟨hsince, -⟩
    have hmem : ∀ a ∈ tr, a ∈ tr' := fun a ha =>
      QuietSince.grows hsince |>.mem a (List.mem_append_left _ ha)
    have hwritten : written tr' = written tr := (QuietSince.written hsince).trans (hstep _)
    cases r with
    | error x => exact ⟨hmem, hwritten, fun _ h => nomatch h⟩
    | ok recordedAt =>
      refine ⟨hmem, hwritten, ?_⟩
      rintro outcome ⟨⟩
      rfl

end Approve

theorem approveAndExecute_follows (deps : OrchestratorDeps) (caseId ownerId proposalId : Str) :
    Follows env (.approveAndExecute deps caseId ownerId proposalId) (fun _ _ => True)
      (approveAndExecute env deps caseId ownerId proposalId) [] := by
  refine Follows.getForOwner_bind fun current howner => ?_
  refine Follows.lift_bind fun proposal hproposal => ?_
  obtain ⟨hproposal, hid⟩ := proposalToApprove_eq_ok hproposal
  refine Follows.perform_bind trivial fun approvedAt => ?_
  have hchecked : Checked caseId ownerId proposalId proposal current
      ([] ++ [⟨.get caseId, .ok current⟩] ++ [⟨.now, .ok approvedAt⟩]) :=
    ⟨by simp, howner, hproposal, hid⟩
  have happroval : approvalOf env caseId ownerId proposal approvedAt =
      { caseId, proposalId, actionCommitment := commit env.sha256Hex (toJson proposal),
        approvedAt, approvedBy := ownerId } := hid ▸ rfl
  refine Follows.transition_bind (purePatch_quietly _) ?_ ?_ ?_
  · exact fun w hw => (List.not_mem_nil hw).elim
  · rintro r _ rfl
    exact happroval ▸ .approve hchecked (by simp)
  rintro r₁ approved _ tr₁ rfl hmoved₁ hgrows₁ hsaved₁ hbelow₁
  have hstored : approved.approval = some (approvalOf env caseId ownerId proposal approvedAt) := by
    obtain ⟨next, updatedAt, -, rfl⟩ := hmoved₁
    rw [happroval]
    rfl
  refine Follows.transition_bind (purePatch_quietly _) hbelow₁ ?_ ?_
  · rintro r _ rfl
    exact .begin
  rintro r₂ executing _ tr₂ rfl hmoved₂ hgrows₂ hsaved₂ hbelow₂
  have hgrows := hgrows₁.trans hgrows₂
  have hchecked₂ := hchecked.mono hgrows.mem
  refine Follows.lift_bind fun input hinput => ?_
  refine Obeys.bind (Obeys.attempt ((sendForOutcome_obeys ?_).mono ?_))
  · refine .mk hchecked₂ (hgrows₂.mem _ hsaved₁) hstored hsaved₂ hmoved₂.target ?_
    apply hgrows.unsent
    intro a ha request heq
    simp only [List.nil_append, List.cons_append, List.mem_cons, List.not_mem_nil,
      or_false] at ha
    rcases ha with rfl | rfl <;> cases heq
  · rintro result tr₃ ⟨hmem, hwritten, hcase⟩
    have hchecked₃ := hchecked₂.mono hmem
    have hbelow₃ : Below CaseState.outcomePending.rank tr₃ := by
      rw [Below, hwritten]
      exact hbelow₂
    cases result with
    | error error => exact recordFailure_follows error hchecked₃ hbelow₃
    | ok outcome => exact recordOutcome_follows hchecked₃ hinput (hcase _ rfl) hbelow₃

/-! ## Every call -/

theorem Follows.wrap {k : Call} {α : Type} {Q : α → CallTrace → Prop} {p : Action α}
    {wrap : α → CallResult} {tr : CallTrace} (h : Follows env k Q p tr)
    (hQ : ∀ a tr', Q a tr' → Post k (.ok (wrap a)) tr')
    (herr : ∀ x tr', Post k (.error x) tr') :
    Obeys (Allowed env k) (Post k) (p >>= fun a => pure (wrap a)) tr := by
  refine Obeys.bind (Obeys.mono ?_ h)
  intro r tr' hr
  cases r with
  | ok a => exact hQ a tr' (hr a rfl)
  | error x => exact herr x tr'

theorem verifyCaseReceipt_follows {k : Call} (caseId ownerId : Str) :
    Follows env k (fun _ _ => True) (verifyCaseReceipt env caseId ownerId) [] :=
  Follows.getForOwner_bind fun _ _ => Follows.of_lift fun _ _ => trivial

theorem getCase_follows {k : Call} (caseId ownerId : Str) :
    Follows env k (fun _ _ => True) (getCase caseId ownerId) [] :=
  Follows.getForOwner_bind fun _ _ => Follows.ret trivial

/-- Every call obeys its rules. -/
theorem start_obeys (k : Call) : Obeys (Allowed env k) (Post k) (start env k) [] := by
  cases k with
  | submitCase deps ownerId input =>
    exact (submitCase_follows deps ownerId input).wrap (fun _ _ h => h) fun _ _ => trivial
  | rejectProposal caseId ownerId =>
    exact (rejectProposal_follows caseId ownerId).wrap (fun _ _ h => h) fun _ _ => trivial
  | approveAndExecute deps caseId ownerId proposalId =>
    exact (approveAndExecute_follows deps caseId ownerId proposalId).wrap (fun _ _ h => h)
      fun _ _ => trivial
  | getCase caseId ownerId =>
    exact (getCase_follows caseId ownerId).wrap (fun _ _ h => h) fun _ _ => trivial
  | verifyCaseReceipt caseId ownerId =>
    exact (verifyCaseReceipt_follows caseId ownerId).wrap (fun _ _ h => h) fun _ _ => trivial
  | reload caseId => exact Obeys.bind (Obeys.perform trivial fun r => by cases r <;> trivial)

end Clawback
