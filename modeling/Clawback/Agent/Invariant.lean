import Clawback.Agent.Records

/-!
# The record invariant

`Consistent` ties the state of a record to its optional fields. One lemma for each kind of
patch shows that a transition keeps it; two facts come from the history: an approval is of
the one proposal of the case, and a case that has a proposal never loses it.

* `proposal_kept`: once a proposal is stored, the current record has one.
* `consistent_of_stored`, `consistent_of_run`: every record that is ever stored is consistent.
* `record_invariant`: the invariant of every run, with the input and the fields that never
  change.
-/

namespace Clawback

open Js Async

/-- The states without a proposal. -/
def unproposedStates : List CaseState := [.draft, .submitted, .analyzing]

/-- The states with an approval. -/
def approvedStates : List CaseState :=
  [.approved, .executing, .outcomePending, .verifiedSuccess, .executionFailed]

/-- The states in which the counterparty has answered. -/
def answeredStates : List CaseState := [.outcomePending, .verifiedSuccess]

/-- What the state of a record says about its optional fields. -/
structure Consistent (env : Platform) (r : CaseRecord) : Prop where
  proposal : r.proposal = none ↔ r.state ∈ unproposedStates
  message : r.encryptedProposalMessage = none ↔ r.state ∈ unproposedStates
  execution : r.execution = none ↔ r.state ∈ unproposedStates
  approval : r.approval = none ↔ r.state ∉ approvedStates
  approved : ∀ approval, r.approval = some approval →
    ∃ proposal approvedAt, r.proposal = some proposal ∧
      approval = approvalOf env r.caseId r.ownerId proposal approvedAt
  answered : r.state ∈ answeredStates →
    ∃ outcome, r.outcome = some outcome ∧ outcome.outcomeType ≠ .noResponse
  failed : r.state = .executionFailed →
    ∀ outcome, r.outcome = some outcome → outcome.outcomeType = .noResponse
  unanswered : r.state ∉ answeredStates → r.state ≠ .executionFailed → r.outcome = none
  receipt : r.receipt = none ↔ r.state ≠ .verifiedSuccess
  executed : ∀ execution proposal, r.execution = some execution → r.proposal = some proposal →
    execution.outputCommitment = contentCommitment env.sha256Hex (.str proposal.exactMessage)

variable {env : Platform}

/-- Without an approval there is neither an outcome nor a receipt. -/
theorem Consistent.blank_of_unapproved {r : CaseRecord} (h : Consistent env r)
    (hnone : r.approval = none) : r.outcome = none ∧ r.receipt = none := by
  have hunapproved := h.approval.mp hnone
  have hanswered : ∀ state, state ∈ answeredStates → state ∈ approvedStates := by decide
  refine ⟨h.unanswered (fun hstate => hunapproved (hanswered _ hstate)) fun hfailed => ?_,
    h.receipt.mpr fun hsuccess => ?_⟩
  · rw [hfailed] at hunapproved
    exact hunapproved (by decide)
  · rw [hsuccess] at hunapproved
    exact hunapproved (by decide)

/-! ## One lemma for each kind of patch -/

theorem consistent_draft {k : Call} {tr : CallTrace} {d : CaseRecord}
    (h : Creates env k tr d) : Consistent env d := by
  obtain ⟨-, -, -, -⟩ := h
  constructor <;> simp [draftRecord, unproposedStates, approvedStates, answeredStates]

/-- A transition that changes no field but outcome and receipt. -/
theorem Consistent.recorded {r : CaseRecord} (h : Consistent env r) {next : CaseState}
    {outcome : Option OutcomeEvidence} {receipt : Option ClawbackReceipt} {updatedAt : Str}
    (hunproposed : r.state ∈ unproposedStates ↔ next ∈ unproposedStates)
    (hstates : r.state ∈ approvedStates ↔ next ∈ approvedStates)
    (hanswered : next ∈ answeredStates →
      ∃ o, outcome = some o ∧ o.outcomeType ≠ .noResponse)
    (hfailed : next = .executionFailed → ∀ o, outcome = some o → o.outcomeType = .noResponse)
    (hunanswered : next ∉ answeredStates → next ≠ .executionFailed → outcome = none)
    (hreceipt : receipt = none ↔ next ≠ .verifiedSuccess) :
    Consistent env { r with state := next, outcome, receipt, updatedAt } where
  proposal := h.proposal.trans hunproposed
  message := h.message.trans hunproposed
  execution := h.execution.trans hunproposed
  approval := h.approval.trans (not_congr hstates)
  approved := h.approved
  answered := hanswered
  failed := hfailed
  unanswered := hunanswered
  receipt := hreceipt
  executed := h.executed

/-- The events that come with an empty patch. -/
def bareEvents : List CaseEvent :=
  [.submit, .beginAnalysis, .requestApproval, .reject, .beginExecution]

theorem bareEvents_alike : ∀ event ∈ bareEvents, ∀ source ∈ event.sources,
    (source ∈ unproposedStates ↔ event.target ∈ unproposedStates) ∧
      (source ∈ approvedStates ↔ event.target ∈ approvedStates) ∧
      (source ∉ answeredStates ∧ source ≠ .executionFailed ∧ source ≠ .verifiedSuccess) ∧
      event.target ∉ answeredStates ∧ event.target ≠ .executionFailed ∧
      event.target ≠ .verifiedSuccess := by
  decide

/-- The moves with an empty patch do not tell on the optional fields. -/
theorem Consistent.unchanged {r : CaseRecord} (h : Consistent env r) {event : CaseEvent}
    (hevent : event ∈ bareEvents) {r' : CaseRecord}
    (hmoved : Moved event {} r r') : Consistent env r' := by
  have hsource := hmoved.source
  obtain ⟨next, updatedAt, hnext, rfl⟩ := hmoved
  obtain rfl := target_of_applyTransition hnext
  obtain ⟨hunproposed, hstates, ⟨hanswered, hfailed, hsuccess⟩, hanswered', hfailed', hsuccess'⟩ :=
    bareEvents_alike event hevent _ hsource
  refine h.recorded hunproposed hstates (fun hs => absurd hs hanswered')
    (fun hs => absurd hs hfailed') (fun _ _ => h.unanswered hanswered hfailed) ?_
  exact ⟨fun _ => hsuccess', fun _ => h.receipt.mpr hsuccess⟩

theorem Consistent.propose {r : CaseRecord} (h : Consistent env r)
    (hstate : r.state = .analyzing) {input : SubscriptionCaseInput} {patch : CasePatch}
    {proposal : ActionProposal} {message : EncryptedPayload} {execution : ExecutionEvidence}
    (hproposes : Proposes env r.caseId input patch proposal message execution) (updatedAt : Str) :
    Consistent env (r.patched patch .actionProposed updatedAt) := by
  obtain ⟨⟨degradedReason, rfl⟩, -, houtput⟩ := hproposes
  have happroval : r.approval = none := h.approval.mpr (by rw [hstate]; decide)
  have houtcome : r.outcome = none :=
    h.unanswered (by rw [hstate]; decide) (by rw [hstate]; decide)
  have hreceipt : r.receipt = none := h.receipt.mpr (by rw [hstate]; decide)
  constructor <;>
    simp [CaseRecord.patched, unproposedStates, approvedStates, answeredStates, happroval,
      houtcome, hreceipt, houtput]

theorem Consistent.approve {r : CaseRecord} (h : Consistent env r)
    (hstate : r.state = .awaitingApproval) {proposal : ActionProposal}
    (hproposal : r.proposal = some proposal) (approvedAt updatedAt : Str) :
    Consistent env (r.patched
      { approval := some (some (approvalOf env r.caseId r.ownerId proposal approvedAt)) }
      .approved updatedAt) := by
  have hun : r.state ∈ unproposedStates ↔ CaseState.approved ∈ unproposedStates := by
    rw [hstate]; decide
  have hsuccess : r.state ≠ .verifiedSuccess ↔ CaseState.approved ≠ .verifiedSuccess := by
    rw [hstate]; decide
  have houtcome : r.outcome = none :=
    h.unanswered (by rw [hstate]; decide) (by rw [hstate]; decide)
  exact
    { proposal := h.proposal.trans hun
      message := h.message.trans hun
      execution := h.execution.trans hun
      approval := by simp [CaseRecord.patched, approvedStates]
      approved := fun approval heq =>
        ⟨proposal, approvedAt, hproposal, (Option.some.inj heq).symm⟩
      answered := fun (hs : CaseState.approved ∈ answeredStates) => absurd hs (by decide)
      failed := fun (hs : CaseState.approved = .executionFailed) => absurd hs (by decide)
      unanswered := fun _ _ => houtcome
      receipt := h.receipt.trans hsuccess
      executed := h.executed }

theorem Consistent.fail {r : CaseRecord} (h : Consistent env r) (hstate : r.state = .executing)
    (message updatedAt : Str) :
    Consistent env (r.patched (failedExecutionPatch message r) .executionFailed updatedAt) := by
  have hexecution : Consistent env { r with execution := r.execution.map fun execution =>
      { execution with succeeded := false, errorMessage := some message } } :=
    { h with
      execution := Option.map_eq_none_iff.trans h.execution
      executed := by
        intro execution proposal heq hproposal
        obtain ⟨old, hold, rfl⟩ := Option.map_eq_some_iff.mp heq
        exact h.executed old proposal hold hproposal }
  have houtcome : r.outcome = none :=
    h.unanswered (by rw [hstate]; decide) (by rw [hstate]; decide)
  have hreceipt : r.receipt = none := h.receipt.mpr (by rw [hstate]; decide)
  refine hexecution.recorded ?_ ?_ (fun hs => absurd hs (by decide)) ?_
    (fun _ _ => houtcome) ⟨fun _ => by decide, fun _ => hreceipt⟩
  · dsimp only
    rw [hstate]
    decide
  · dsimp only
    rw [hstate]
    decide
  · intro _ o ho
    cases houtcome.symm.trans ho

theorem Consistent.answer {r : CaseRecord} (h : Consistent env r)
    (hstate : r.state = .executing) (outcome : OutcomeEvidence) (updatedAt : Str) :
    Consistent env (r.patched { outcome := some (some outcome) } (outcomeEvent outcome).target
      updatedAt) := by
  have hreceipt : r.receipt = none := h.receipt.mpr (by rw [hstate]; decide)
  rw [outcomeEvent]
  split
  · rename_i hresponse
    refine h.recorded (by rw [hstate]; decide) (by rw [hstate]; decide)
      (fun hs => absurd hs (by decide)) (fun _ o ho => Option.some.inj ho ▸ hresponse)
      (fun _ hs => absurd rfl hs) ⟨fun _ => by decide, fun _ => hreceipt⟩
  · rename_i hresponse
    refine h.recorded (by rw [hstate]; decide) (by rw [hstate]; decide)
      (fun _ => ⟨outcome, rfl, hresponse⟩) (fun hs => absurd hs (by decide))
      (fun hs _ => absurd (by decide) hs) ⟨fun _ => by decide, fun _ => hreceipt⟩

theorem Consistent.confirm {r : CaseRecord} (h : Consistent env r)
    (hstate : r.state = .outcomePending) (receipt : ClawbackReceipt) (updatedAt : Str) :
    Consistent env
      (r.patched { receipt := some (some receipt) } .verifiedSuccess updatedAt) :=
  h.recorded (by rw [hstate]; decide) (by rw [hstate]; decide)
    (fun _ => h.answered (by rw [hstate]; decide)) (fun hs => absurd hs (by decide))
    (fun hs _ => absurd (by decide) hs) ⟨fun hs => (nomatch hs), fun hs => absurd rfl hs⟩

/-! ## A case keeps its proposal -/

theorem late_sources : ∀ event ∈ [CaseEvent.reject, .approve, .beginExecution, .outcomeConfirmed],
    ∀ source ∈ event.sources, source ∉ unproposedStates := by
  decide

theorem advance_sources : ∀ event ∈ [CaseEvent.submit, .beginAnalysis, .requestApproval],
    CaseState.actionProposed.rank < event.target.rank →
      ∀ source ∈ event.sources, source ∉ unproposedStates := by
  decide

/-- What is saved after a proposal was stored has a proposal: the call has moved on from a
state that has one, or it has seen one before it read the record. -/
theorem proposal_of_savedFrom {h : AgentHistory} {w : World} (hl : AgentLawful env h w) {t : Nat}
    {k : Call} {event : CaseEvent} {patch : CasePatch} {r r' : CaseRecord}
    (hs : SavedFrom env h t k event patch r r') (hr : Consistent env r)
    (hkept : ∀ g w', AgentLawful env g w' → g.length < h.length → g ⊆ h →
      current r.caseId g = some r →
      (∃ u s, Stored g u s ∧ s.caseId = r.caseId ∧ s.proposal ≠ none) → r.proposal ≠ none)
    {u : Nat} {proposal : ActionProposal} (hproposed : Proposed h u r.caseId proposal) :
    r'.proposal ≠ none := by
  obtain ⟨h₁, h₂, rfl, hcur, hchanges⟩ := hs.read
  obtain ⟨-, -, w₁, -, hl₁, -, -, -, -⟩ := hl.split rfl
  have hsource := hs.moved.source
  have hbelow := hs.below
  rw [hs.moved.target] at hbelow
  have hsame : r'.proposal = r.proposal ∨ r'.proposal ≠ none := by
    obtain ⟨next, updatedAt, -, rfl⟩ := hs.moved
    cases hchanges with
    | propose _ _ hproposes =>
      obtain ⟨degradedReason, rfl⟩ := hproposes.patch_eq
      exact .inr (Option.some_ne_none _)
    | _ => exact .inl rfl
  rcases hsame with hsame | hsome
  swap
  · exact hsome
  rw [hsame]
  have hlate : r.state ∉ unproposedStates → r.proposal ≠ none := mt hr.proposal.mp
  have hchecked : ∀ {ownerId proposalId : Str} {p : ActionProposal} {current : CaseRecord},
      Checked r.caseId ownerId proposalId p current (own t h₁) → r.proposal ≠ none := by
    rintro ownerId proposalId p current ⟨hget, -, hp, -⟩
    obtain ⟨⟨v, hst⟩, hid⟩ := stored_of_get hl₁ (mem_own.mp hget)
    apply hkept h₁ w₁ hl₁ (by simp) (List.subset_append_left _ _) hcur
    exact ⟨v, current, hst, hid, by rw [hp]; exact Option.some_ne_none _⟩
  have hown : ∀ {d : CaseRecord}, ⟨.create d, .ok ()⟩ ∈ own t h₁ → d.caseId = r.caseId →
      CaseState.actionProposed.rank < event.target.rank := by
    intro d hcreated hid
    obtain ⟨⟨d', hd', hid'⟩, s, hst, hstate, -⟩ := hproposed
    obtain ⟨rfl, -⟩ := created_unique hl (List.mem_append_left _ (mem_own.mp hcreated)) hd'
      (hid.trans hid'.symm)
    exact hstate ▸ hbelow s (mem_written_own.mpr hst)
  cases hchanges with
  | advance hcreated hid hevent =>
    exact hlate (advance_sources event hevent (hown hcreated hid) _ hsource)
  | propose hcreated hid _ => exact absurd (hown hcreated hid) (by decide)
  | reject => exact hlate (late_sources .reject (by decide) _ hsource)
  | begin => exact hlate (late_sources .beginExecution (by decide) _ hsource)
  | approve h _ => exact hchecked h
  | fail h => exact hchecked h
  | outcome h _ _ => exact hchecked h
  | confirm h _ _ _ => exact hchecked h

/-- Once a proposal is stored, the current record has one. -/
theorem proposal_kept {n : Nat} : ∀ {h : AgentHistory} {w : World}, h.length = n →
    AgentLawful env h w → (∀ t r, Stored h t r → Consistent env r) → ∀ {r : CaseRecord},
      current r.caseId h = some r →
      (∃ u s, Stored h u s ∧ s.caseId = r.caseId ∧ s.proposal ≠ none) → r.proposal ≠ none := by
  induction n using Nat.strong_induction_on with
  | _ n ih =>
    rintro h w rfl hl hcons r hcur ⟨u, s, hst, hid, hs⟩
    cases hl with
    | nil => cases hcur
    | called hl hfresh =>
      rw [current, Register.current_called] at hcur
      refine ih _ (by simp) rfl hl (fun t r hr => hcons t r ?_) hcur
        ⟨u, s, hst.of_called, hid, hs⟩
      exact hr.mono (List.subset_append_left _ _)
    | @did h w' w t k e c res hl hk hallowed hexec =>
      have hcons' : ∀ t r, Stored h t r → Consistent env r :=
        fun t r hr => hcons t r (hr.mono (List.subset_append_left _ _))
      cases hwrite : (caseRegister r.caseId).write ⟨e, res⟩ with
      | none =>
        rw [current, Register.current_did_none hwrite] at hcur
        refine ih _ (by simp) rfl hl hcons' hcur ⟨u, s, ?_, hid, hs⟩
        rcases hst.of_did with hold | ⟨-, hnew | hnew⟩
        · exact hold
        · cases hnew
          rw [write_create, if_pos hid] at hwrite
          cases hwrite
        · cases hnew
          rw [write_save, if_pos hid] at hwrite
          cases hwrite
      | some v =>
        rw [current, Register.current_did hwrite] at hcur
        obtain rfl := Option.some.inj hcur
        obtain ⟨-, hnew | hnew⟩ := write_cases hwrite
        · cases hnew
          rcases hst.of_did with hold | ⟨-, hsame | hsame⟩
          · exact absurd hid (not_stored_of_creates hl hallowed hold)
          · cases hsame
            exact hs
          · cases hsame
        · cases hnew
          rcases hst.of_did with hold | ⟨-, hsame | hsame⟩
          · obtain ⟨event, patch, r₀, hsaved⟩ := savedFrom_of_saves hl hk hallowed
            obtain ⟨v, hv⟩ := hsaved.stored
            obtain ⟨proposal, hproposal⟩ := Option.ne_none_iff_exists'.mp hs
            obtain ⟨u', hproposed⟩ := proposed_of_stored hl hold hproposal
            rw [hid, hsaved.sameCore.caseId] at hproposed
            refine proposal_of_savedFrom hl hsaved (hcons' v r₀ hv) ?_ hproposed
            intro g w' hg hlt hsub hcur' hsome
            exact ih _ (by simp; omega) rfl hg (fun t r hr => hcons' t r (hr.mono hsub)) hcur'
              hsome
          · cases hsame
          · cases hsame
            exact hs

/-! ## Every record is consistent -/

theorem propose_source : ∀ source ∈ CaseEvent.proposeAction.sources, source = .analyzing := by
  decide

theorem approve_source : ∀ source ∈ CaseEvent.approve.sources, source = .awaitingApproval := by
  decide

theorem confirm_source :
    ∀ source ∈ CaseEvent.outcomeConfirmed.sources, source = .outcomePending := by
  decide

theorem end_source : ∀ event ∈ [CaseEvent.executionFailed, .executionSucceeded],
    ∀ source ∈ event.sources, source ∉ unproposedStates → source = .executing := by
  decide

theorem outcomeEvent_mem (outcome : OutcomeEvidence) :
    outcomeEvent outcome ∈ [CaseEvent.executionFailed, .executionSucceeded] := by
  rw [outcomeEvent]
  split <;> decide

/-- A record that is read after a proposal has been seen has that proposal. -/
theorem proposal_of_checked {h₁ h₂ : AgentHistory} {w : World} {t : Nat} {r : CaseRecord}
    (hl : AgentLawful env (h₁ ++ .did t ⟨.get r.caseId, .ok r⟩ :: h₂) w)
    (hcons : ∀ u s, Stored (h₁ ++ .did t ⟨.get r.caseId, .ok r⟩ :: h₂) u s → Consistent env s)
    {ownerId proposalId : Str} {p : ActionProposal} {seen : CaseRecord}
    (hchecked : Checked r.caseId ownerId proposalId p seen (own t h₁)) :
    r.proposal = some p ∧ r.ownerId = ownerId := by
  obtain ⟨hget, howner, hp, -⟩ := hchecked
  obtain ⟨-, -, w₁, -, hl₁, -, -, -, -⟩ := hl.split rfl
  have hcur := current_of_get hl rfl
  obtain ⟨⟨v, hst⟩, -⟩ := stored_of_current hcur
  obtain ⟨⟨v', hst'⟩, hid⟩ := stored_of_get hl₁ (mem_own.mp hget)
  have hkept : r.proposal ≠ none := by
    refine proposal_kept rfl hl₁ (fun u s hs => hcons u s ?_) hcur ⟨v', seen, hst', hid, ?_⟩
    · exact hs.mono (List.subset_append_left _ _)
    · rw [hp]
      exact Option.some_ne_none _
  obtain ⟨q, hq⟩ := Option.ne_none_iff_exists'.mp hkept
  obtain rfl := proposal_unique hl₁ hst hst' hid.symm hq hp
  exact ⟨hq, (sameCore_of_stored hl₁ hst' hst hid).ownerId.trans howner⟩

theorem SavedFrom.consistent {h : AgentHistory} {w : World} (hl : AgentLawful env h w) {t : Nat}
    {k : Call} {event : CaseEvent} {patch : CasePatch} {r r' : CaseRecord}
    (hs : SavedFrom env h t k event patch r r')
    (hcons : ∀ t r, Stored h t r → Consistent env r) : Consistent env r' := by
  obtain ⟨v, hv⟩ := hs.stored
  have hr := hcons v r hv
  have hsource := hs.moved.source
  have hmoved := hs.moved
  obtain ⟨h₁, h₂, rfl, -, hchanges⟩ := hs.read
  have hseen : r.proposal ≠ none → r.state ∉ unproposedStates := mt hr.proposal.mpr
  cases hchanges with
  | advance _ _ hevent =>
    exact hr.unchanged (List.mem_append_left [.reject, .beginExecution] hevent) hmoved
  | reject => exact hr.unchanged (by decide) hmoved
  | begin => exact hr.unchanged (by decide) hmoved
  | propose _ _ hproposes =>
    obtain ⟨next, updatedAt, hnext, rfl⟩ := hmoved
    obtain rfl := target_of_applyTransition hnext
    exact hr.propose (propose_source _ hsource) hproposes updatedAt
  | approve hchecked _ =>
    obtain ⟨next, updatedAt, hnext, rfl⟩ := hmoved
    obtain rfl := target_of_applyTransition hnext
    obtain ⟨hproposal, rfl⟩ := proposal_of_checked hl hcons hchecked
    exact hr.approve (approve_source _ hsource) hproposal _ updatedAt
  | fail hchecked =>
    obtain ⟨next, updatedAt, hnext, rfl⟩ := hmoved
    obtain rfl := target_of_applyTransition hnext
    obtain ⟨hproposal, -⟩ := proposal_of_checked hl hcons hchecked
    refine hr.fail (end_source _ (by simp) _ hsource (hseen ?_)) _ updatedAt
    rw [hproposal]
    exact Option.some_ne_none _
  | outcome hchecked hevent _ =>
    obtain ⟨next, updatedAt, hnext, rfl⟩ := hmoved
    obtain rfl := target_of_applyTransition hnext
    obtain ⟨hproposal, -⟩ := proposal_of_checked hl hcons hchecked
    subst hevent
    refine hr.answer (end_source _ (outcomeEvent_mem _) _ hsource (hseen ?_)) _ updatedAt
    rw [hproposal]
    exact Option.some_ne_none _
  | confirm _ _ _ _ =>
    obtain ⟨next, updatedAt, hnext, rfl⟩ := hmoved
    obtain rfl := target_of_applyTransition hnext
    exact hr.confirm (confirm_source _ hsource) _ updatedAt

/-- Every record that is ever stored is consistent. -/
theorem consistent_of_stored {h : AgentHistory} {w : World} (hl : AgentLawful env h w) {t : Nat}
    {r : CaseRecord} (hst : Stored h t r) : Consistent env r := by
  induction hl generalizing t r with
  | nil => rcases hst with hst | hst <;> cases hst
  | called _ _ ih => exact ih hst.of_called
  | did hl hk hallowed _ ih =>
    rcases hst.of_did with hold | ⟨rfl, hnew | hnew⟩
    · exact ih hold
    · cases hnew
      exact consistent_draft hallowed
    · cases hnew
      obtain ⟨event, patch, r₀, hs⟩ := savedFrom_of_saves hl hk hallowed
      exact hs.consistent hl fun t r hst => ih hst

/-- After every run the records in the store are consistent, each under its own key. -/
theorem consistent_of_run {moves : List (Move Call Choice)}
    {p : Pool Call Effect Effect.Answer JsError World CallResult}
    (hrun : (agent env).run (Pool.init World.empty) moves = some p) {c : Str} {r : CaseRecord}
    (hr : p.world.store c = some r) : Consistent env r ∧ r.caseId = c := by
  have hl := (System.run_lawful start_obeys hrun).lawful
  rw [store_eq_current hl] at hr
  obtain ⟨⟨t, hst⟩, hid⟩ := stored_of_current hr
  exact ⟨consistent_of_stored hl hst, hid⟩

/-! ## The input of a case -/

/-- The call in thread `t` has submitted `input`, and has created `d` with its encryption. -/
structure Submitted (env : Platform) (h : AgentHistory) (t : Nat) (input : SubscriptionCaseInput)
    (d : CaseRecord) : Prop where
  called : ∃ deps, .called t (.submitCase deps d.ownerId input) ∈ h
  created : Created h t d
  encrypted : ∃ iv, iv.length = 12 ∧ encryptAtRest env.gcm
    (.str (Json.stringify (toJson input : Json Int))) env.encryptionKey iv = .ok d.encryptedInput

theorem Submitted.mono {h h' : AgentHistory} {t : Nat} {input : SubscriptionCaseInput}
    {d : CaseRecord} (hd : Submitted env h t input d) (hsub : h ⊆ h') :
    Submitted env h' t input d :=
  ⟨hd.called.imp fun _ hk => hsub hk, hsub hd.created, hd.encrypted⟩

theorem submitted_of_creates {h : AgentHistory} {w : World} (hl : AgentLawful env h w) {t : Nat}
    {k : Call} (hk : .called t k ∈ h) {d : CaseRecord} (hcreates : Creates env k (own t h) d) :
    ∃ input, Submitted env (h ++ [.did t ⟨.create d, .ok ()⟩]) t input d := by
  obtain ⟨-, -, hiv, hencrypted⟩ := hcreates
  refine ⟨_, ⟨_, List.mem_append_left _ hk⟩, List.mem_append_right _ (List.mem_singleton_self _),
    _, ?_, hencrypted⟩
  obtain ⟨h₁, h₂, heq⟩ := List.append_of_mem (mem_own.mp hiv)
  obtain ⟨_, _, _, _, -, -, -, hexec, -⟩ := hl.split heq
  exact answered_bytes (answered_of_exec hexec)

/-- The evidence of the execution commits to the input. -/
def CommitsTo (env : Platform) (input : SubscriptionCaseInput) (r : CaseRecord) : Prop :=
  ∀ execution, r.execution = some execution →
    execution.inputCommitment = analysedCommitment env.sha256Hex input

theorem commitsTo_of_changes {k : Call} {c : Str} {before : CallTrace} {event : CaseEvent}
    {patch : CasePatch} {r r' : CaseRecord} {input : SubscriptionCaseInput}
    (hchanges : Changes env k c before r event patch) (hmoved : Moved event patch r r')
    (hr : CommitsTo env input r) : CommitsTo env input r' ∨
      ∃ deps ownerId input', k = .submitCase deps ownerId input' ∧ CommitsTo env input' r' := by
  obtain ⟨next, updatedAt, -, rfl⟩ := hmoved
  cases hchanges with
  | @propose deps ownerId input' _ _ _ _ _ _ _ execution _ _ hproposes =>
    refine .inr ⟨deps, ownerId, input', rfl, ?_⟩
    obtain ⟨⟨degradedReason, rfl⟩, hinput, -⟩ := hproposes
    intro execution' heq
    cases heq
    exact hinput
  | fail _ =>
    refine .inl ?_
    intro execution heq
    obtain ⟨old, hold, rfl⟩ := Option.map_eq_some_iff.mp heq
    exact hr old hold
  | _ => exact .inl hr

/-- Every record goes back to a submitted input, and its evidence commits to that input. -/
theorem submitted_of_stored {h : AgentHistory} {w : World} (hl : AgentLawful env h w) {t : Nat}
    {r : CaseRecord} (hst : Stored h t r) :
    ∃ u input d, Submitted env h u input d ∧ SameCore d r ∧ CommitsTo env input r := by
  refine stored_induction (I := fun h _ r =>
    ∃ u input d, Submitted env h u input d ∧ SameCore d r ∧ CommitsTo env input r) ?_ ?_ ?_ hl hst
  · rintro h ev t r ⟨u, input, d, hd, hcore, hcommits⟩
    exact ⟨u, input, d, hd.mono (List.subset_append_left _ _), hcore, hcommits⟩
  · intro h w t k d hl hk hcreates
    obtain ⟨input, hd⟩ := submitted_of_creates hl hk hcreates
    refine ⟨t, input, d, hd, .refl d, ?_⟩
    cases hcreates
    intro execution heq
    cases heq
  · rintro h w t k event patch r r' v hl hs - ⟨u, input, d, hd, hcore, hcommits⟩
    have hcore' := hcore.trans hs.sameCore
    obtain ⟨h₁, h₂, rfl, -, hchanges⟩ := hs.read
    refine ⟨u, input, d, hd.mono (List.subset_append_left _ _), hcore', ?_⟩
    rcases commitsTo_of_changes hchanges hs.moved hcommits with hold | ⟨deps, ownerId, input', rfl, hnew⟩
    · exact hold
    · obtain ⟨d', hd', hid⟩ := created_of_changes hchanges
      obtain ⟨rfl, -⟩ := created_unique hl hd.created (List.mem_append_left _ hd')
        (hcore.caseId.symm.trans hid.symm)
      obtain ⟨deps', hcalled⟩ := hd.called
      cases hl.called_unique hcalled hs.called
      exact hnew

/-- The encrypted input of a record is the input that was submitted. -/
theorem decryptInput_of_submitted (hgcm : env.gcm.Lawful) {h : AgentHistory} {t : Nat}
    {input : SubscriptionCaseInput} {d r : CaseRecord} (hd : Submitted env h t input d)
    (hcore : SameCore d r) : decryptInput env r = .ok input := by
  obtain ⟨iv, hiv, hencrypted⟩ := hd.encrypted
  have hdecrypt := decryptAtRest_of_encryptAtRest hgcm (Json.wellFormed_stringify _) hiv hencrypted
  rw [← hcore.encryptedInput] at hdecrypt
  refine bind_eq_ok.mpr ⟨_, hdecrypt, ?_⟩
  rw [parseInput, ofText_stringify]

/-! ## Every run -/

/-- **Record invariant.** In every interleaving of calls, with failures at any step, every
record that is ever stored has the optional fields that its state requires; its evidence
commits to the proposed message and to the decrypted input; and it agrees with the record
that `submitCase` has created on what never changes. -/
theorem record_invariant {env : Platform} (hgcm : env.gcm.Lawful) {moves : List (Move Call Choice)}
    {p : Pool Call Effect Effect.Answer JsError World CallResult}
    (hrun : (agent env).run (Pool.init World.empty) moves = some p) {t : Nat} {r : CaseRecord}
    (hst : Stored p.history t r) :
    Consistent env r ∧
      (∀ execution, r.execution = some execution → ∃ input, decryptInput env r = .ok input ∧
        execution.inputCommitment = analysedCommitment env.sha256Hex input) ∧
      ∃ u deps input d, .called u (.submitCase deps d.ownerId input) ∈ p.history ∧
        Created p.history u d ∧ SameCore d r := by
  have hl := (System.run_lawful start_obeys hrun).lawful
  obtain ⟨u, input, d, hd, hcore, hcommits⟩ := submitted_of_stored hl hst
  obtain ⟨deps, hcalled⟩ := hd.called
  refine ⟨consistent_of_stored hl hst, ?_, u, deps, input, d, hcalled, hd.created, hcore⟩
  intro execution heq
  exact ⟨input, decryptInput_of_submitted hgcm hd hcore, hcommits execution heq⟩

theorem record_invariant_sample :
    ∃ p t r, (agent samplePlatform).run (Pool.init World.empty) sampleMoves = some p ∧
      Stored p.history t r ∧ r.receipt ≠ none ∧ Consistent samplePlatform r := by
  obtain ⟨p, hrun, -, -, t, r, hst, hreceipt⟩ := sampleMoves_run
  have hrun := System.run_of_runInTurn hrun
  exact ⟨p, t, r, hrun, hst, hreceipt, (record_invariant sampleGcm_lawful hrun hst).1⟩

end Clawback
