import Clawback.Agent.Orchestrator

/-!
# What each call may do

`Allowed env k tr e`: after the trace `tr`, the call `k` may ask for `e`. The rules are
about the three effects that matter: creating a record, saving one, and sending an action.

* `Changes`: the sites in the source at which a record is saved, one constructor for each
  kind of patch.
* `start_obeys`: every call obeys the rules, whatever its effects are answered.
-/

namespace Clawback

open Js Async

/-! ## Traces -/

/-- The call has not sent an action. -/
def Unsent (tr : CallTrace) : Prop := ∀ a ∈ tr, ∀ request, a.effect ≠ .sendAction request

/-- All records the call has stored are in states below `n`. -/
def Below (n : Nat) (tr : CallTrace) : Prop := ∀ r ∈ written tr, r.state.rank < n

/-! ## The rules -/

/-- The owner's call has read a record with the proposal that it is to approve. -/
def Checked (caseId ownerId proposalId : Str) (proposal : ActionProposal) (current : CaseRecord)
    (tr : CallTrace) : Prop :=
  ⟨.get caseId, .ok current⟩ ∈ tr ∧ current.ownerId = ownerId ∧
    current.proposal = some proposal ∧ proposal.proposalId = proposalId

/-- The approval of a proposal. -/
def approvalOf (env : Platform) (caseId ownerId : Str) (proposal : ActionProposal)
    (approvedAt : Str) : ApprovalRecord where
  caseId
  proposalId := proposal.proposalId
  actionCommitment := commit env.sha256Hex (toJson proposal)
  approvedAt
  approvedBy := ownerId

/-- The patch of `PROPOSE_ACTION`: a proposal and the evidence of its analysis. -/
structure Proposes (env : Platform) (caseId : Str) (input : SubscriptionCaseInput)
    (patch : CasePatch) (proposal : ActionProposal) (message : EncryptedPayload)
    (execution : ExecutionEvidence) : Prop where
  patch_eq : ∃ degradedReason, patch = { proposal := some (some proposal)
                                         encryptedProposalMessage := some (some message)
                                         execution := some (some execution)
                                         degradedReason := some degradedReason }
  inputCommitment : execution.inputCommitment = analysedCommitment env.sha256Hex input
  outputCommitment :
    execution.outputCommitment = contentCommitment env.sha256Hex (.str proposal.exactMessage)
  caseId_eq : execution.caseId = caseId

/-- The receipt of the record after the outcome, anchored or not. -/
def Receipted (env : Platform) (deps : OrchestratorDeps) (caseId : Str)
    (current afterOutcome : CaseRecord) (receipt : ClawbackReceipt) : Prop :=
  ∃ input built receiptId createdAt anchor, decryptInput env current = .ok input ∧
    receiptInput deps caseId input afterOutcome = .ok built ∧
    receipt = { buildReceipt env.sha256Hex receiptId createdAt built with anchor }

/-- What a call may change: after `before` it has read a record `r` of the case, and saves it
with `patch` after `event`. -/
inductive Changes (env : Platform) :
    Call → Str → CallTrace → CaseRecord → CaseEvent → CasePatch → Prop
  | advance {deps ownerId input caseId draft before r event} :
    ⟨.create draft, .ok ()⟩ ∈ before → draft.caseId = caseId →
    event ∈ [.submit, .beginAnalysis, .requestApproval] →
    Changes env (.submitCase deps ownerId input) caseId before r event {}
  | propose {deps ownerId input caseId draft before r patch proposal message execution} :
    ⟨.create draft, .ok ()⟩ ∈ before → draft.caseId = caseId →
    Proposes env r.caseId input patch proposal message execution →
    Changes env (.submitCase deps ownerId input) caseId before r .proposeAction patch
  | reject {caseId ownerId before r} :
    Changes env (.rejectProposal caseId ownerId) caseId before r .reject {}
  | approve {deps caseId ownerId proposalId before r proposal current approvedAt} :
    Checked caseId ownerId proposalId proposal current before →
    ⟨.now, .ok approvedAt⟩ ∈ before →
    Changes env (.approveAndExecute deps caseId ownerId proposalId) caseId before r .approve
      { approval := some (some (approvalOf env caseId ownerId proposal approvedAt)) }
  | begin {deps caseId ownerId proposalId before r} :
    Changes env (.approveAndExecute deps caseId ownerId proposalId) caseId before r
      .beginExecution {}
  | fail {deps caseId ownerId proposalId before r proposal current message} :
    Checked caseId ownerId proposalId proposal current before →
    Changes env (.approveAndExecute deps caseId ownerId proposalId) caseId before r
      .executionFailed (failedExecutionPatch message r)
  | outcome {deps caseId ownerId proposalId before r proposal current event outcome} :
    Checked caseId ownerId proposalId proposal current before → event = outcomeEvent outcome →
    outcome.caseId = caseId →
    Changes env (.approveAndExecute deps caseId ownerId proposalId) caseId before r event
      { outcome := some (some outcome) }
  | confirm {deps caseId ownerId proposalId before r proposal current afterOutcome receipt} :
    Checked caseId ownerId proposalId proposal current before →
    ⟨.save afterOutcome, .ok ()⟩ ∈ before → afterOutcome.state = .outcomePending →
    Receipted env deps caseId current afterOutcome receipt →
    Changes env (.approveAndExecute deps caseId ownerId proposalId) caseId before r
      .outcomeConfirmed { receipt := some (some receipt) }

/-- A call saves what it has just read, after a transition, and its own records go up in
rank. -/
inductive Saves (env : Platform) (k : Call) (tr : CallTrace) (r' : CaseRecord) : Prop
  | mk {caseId : Str} {before : CallTrace} {r : CaseRecord} {event : CaseEvent}
    {patch : CasePatch} (reading : Reading caseId before r tr)
    (changes : Changes env k caseId before r event patch) (moved : Moved event patch r r')
    (below : Below r'.state.rank tr)

/-- A call that submits a case creates one record, with a fresh id and the encrypted
input. -/
inductive Creates (env : Platform) : Call → CallTrace → CaseRecord → Prop
  | mk {deps ownerId input tr uuid iv startedAt encryptedInput} :
    (∀ a ∈ tr, a.effect.isQuiet = true) → ⟨.randomUUID, .ok uuid⟩ ∈ tr →
    ⟨.randomBytes 12, .ok iv⟩ ∈ tr →
    encryptAtRest env.gcm (.str (Json.stringify (toJson input : Json Int))) env.encryptionKey
      iv = .ok encryptedInput →
    Creates env (.submitCase deps ownerId input) tr
      (draftRecord (js "case" ++ js "_" ++ uuid) ownerId encryptedInput deps.source startedAt)

/-- A call that approves a proposal sends its message, once, after it has stored the
approval. -/
inductive Sends (env : Platform) : Call → CallTrace → ProviderActionRequest → Prop
  | mk {deps caseId ownerId proposalId tr proposal current approvedAt approved executing input} :
    Checked caseId ownerId proposalId proposal current tr → ⟨.save approved, .ok ()⟩ ∈ tr →
    approved.approval = some (approvalOf env caseId ownerId proposal approvedAt) →
    ⟨.save executing, .ok ()⟩ ∈ tr → executing.state = .executing → Unsent tr →
    Sends env (.approveAndExecute deps caseId ownerId proposalId) tr
      { caseId, input, exactMessage := proposal.exactMessage }

def Allowed (env : Platform) (k : Call) (tr : CallTrace) : Effect → Prop
  | .create r => Creates env k tr r
  | .save r => Saves env k tr r
  | .sendAction request => Sends env k tr request
  | _ => True

/-- What a call has done when it ends. -/
def Post : Call → Except JsError CallResult → CallTrace → Prop
  | .rejectProposal _ _, .ok _, tr => ∃ r, ⟨.save r, .ok ()⟩ ∈ tr ∧ r.state = .rejected
  | _, _, _ => True

/-! ## Traces that grow -/

/-- Since `tr` the call has done quiet things only. -/
def QuietSince (tr tr' : CallTrace) : Prop :=
  ∃ since, tr' = tr ++ since ∧ ∀ a ∈ since, a.effect.isQuiet = true

/-- Since `tr` the call has not sent an action. -/
structure Grows (tr tr' : CallTrace) : Prop where
  mem : ∀ a ∈ tr, a ∈ tr'
  unsent : Unsent tr → Unsent tr'

theorem Grows.trans {tr tr' tr'' : CallTrace} (h : Grows tr tr') (h' : Grows tr' tr'') :
    Grows tr tr'' :=
  ⟨fun a ha => h'.mem a (h.mem a ha), fun hu => h'.unsent (h.unsent hu)⟩

@[simp] theorem unsent_append {tr since : CallTrace} :
    Unsent (tr ++ since) ↔ Unsent tr ∧ Unsent since := List.forall_mem_append

theorem unsent_singleton {a : Entry Effect Effect.Answer JsError}
    (h : ∀ request, a.effect ≠ .sendAction request) : Unsent [a] := by
  intro b hb
  rw [List.mem_singleton.mp hb]
  exact h

theorem Grows.append {tr since : CallTrace} (h : Unsent since) : Grows tr (tr ++ since) :=
  ⟨fun _ ha => List.mem_append_left _ ha, fun hu => unsent_append.mpr ⟨hu, h⟩⟩

theorem unsent_of_quiet {tr : CallTrace} (h : ∀ a ∈ tr, a.effect.isQuiet = true) :
    Unsent tr := by
  intro a ha request heq
  have hquiet := h a ha
  rw [heq] at hquiet
  cases hquiet

theorem QuietSince.grows {tr tr' : CallTrace} (h : QuietSince tr tr') : Grows tr tr' := by
  obtain ⟨since, rfl, hsince⟩ := h
  exact Grows.append (unsent_of_quiet hsince)

theorem QuietSince.written {tr tr' : CallTrace} (h : QuietSince tr tr') :
    written tr' = written tr := by
  obtain ⟨since, rfl, hsince⟩ := h
  rw [written_append, written_eq_nil_of_quiet hsince, List.append_nil]

theorem QuietSince.below {tr tr' : CallTrace} {n : Nat} (h : QuietSince tr tr')
    (hn : Below n tr) : Below n tr' := by
  rw [Below, h.written]
  exact hn

theorem Reading.grows {caseId : Str} {before tr : CallTrace} {r : CaseRecord}
    (h : Reading caseId before r tr) : Grows before tr := by
  obtain ⟨since, rfl, hsince⟩ := h
  rw [← List.singleton_append]
  refine Grows.append (unsent_append.mpr
    ⟨unsent_singleton fun request => ?_, unsent_of_quiet hsince⟩)
  intro heq
  cases heq

theorem Below.mono {m n : Nat} {tr : CallTrace} (h : Below m tr) (hmn : m ≤ n) : Below n tr :=
  fun r hr => Nat.lt_of_lt_of_le (h r hr) hmn

theorem Moved.target {event : CaseEvent} {patch : CasePatch} {r r' : CaseRecord}
    (h : Moved event patch r r') : r'.state = event.target := by
  obtain ⟨next, updatedAt, hnext, rfl⟩ := h
  exact target_of_applyTransition hnext

theorem Moved.source {event : CaseEvent} {patch : CasePatch} {r r' : CaseRecord}
    (h : Moved event patch r r') : r.state ∈ event.sources := by
  obtain ⟨next, updatedAt, hnext, -⟩ := h
  exact source_of_applyTransition hnext

/-! ## One rule for each kind of step -/

variable {env : Platform} {k : Call} {α β : Type}

/-- The program obeys the rules of the call, and what it returns satisfies `Q`. -/
def Follows (env : Platform) (k : Call) (Q : α → CallTrace → Prop) (p : Action α)
    (tr : CallTrace) : Prop :=
  Obeys (Allowed env k) (fun r tr' => ∀ a, r = .ok a → Q a tr') p tr

theorem allowed_of_quiet {tr : CallTrace} {e : Effect} (h : e.isQuiet = true) :
    Allowed env k tr e := by
  cases e <;> trivial

namespace Follows

variable {Q : β → CallTrace → Prop} {tr : CallTrace}

theorem ret {b : β} (h : Q b tr) : Follows env k Q (pure b) tr :=
  fun _ hb => Except.ok.inj hb ▸ h

theorem of_lift {r : Except JsError β} (h : ∀ b, r = .ok b → Q b tr) :
    Follows env k Q (Prog.lift r) tr := Obeys.lift h

theorem lift_bind {r : Except JsError α} {f : α → Action β}
    (hnext : ∀ a, r = .ok a → Follows env k Q (f a) tr) :
    Follows env k Q (Prog.lift r >>= f) tr :=
  Obeys.lift_bind hnext fun _ _ h => nomatch h

theorem quiet_bind {S : α → Prop} {p : Action α} {f : α → Action β} (hp : Quietly S p)
    (hnext : ∀ a tr', S a → QuietSince tr tr' → Follows env k Q (f a) tr') :
    Follows env k Q (p >>= f) tr := by
  refine hp.obeys_bind (fun _ _ => allowed_of_quiet) ?_ fun _ _ _ h => nomatch h
  intro a since hS hsince
  exact hnext a _ hS ⟨since, rfl, hsince⟩

theorem perform_bind {e : Effect} {f : e.Answer → Action β} (he : Allowed env k tr e)
    (hnext : ∀ a, Follows env k Q (f a) (tr ++ [⟨e, .ok a⟩])) :
    Follows env k Q (Prog.perform e >>= f) tr := by
  refine Obeys.bind (Obeys.perform he fun r => ?_)
  cases r with
  | ok a => exact hnext a
  | error x => exact fun _ h => nomatch h

/-- A transition at one of the sites of the call. -/
theorem transition_bind {caseId : Str} {event : CaseEvent}
    {patch : CaseRecord → Action CasePatch} {S : CaseRecord → CasePatch → Prop}
    {f : CaseRecord → Action β} (hpatch : ∀ r, Quietly (S r) (patch r))
    (hbelow : Below event.target.rank tr)
    (hchanges : ∀ r changes, S r changes → Changes env k caseId tr r event changes)
    (hnext : ∀ r r' changes tr', S r changes → Moved event changes r r' → Grows tr tr' →
      ⟨.save r', .ok ()⟩ ∈ tr' → Below (event.target.rank + 1) tr' →
      Follows env k Q (f r') tr') :
    Follows env k Q (transition caseId event patch >>= f) tr := by
  refine Obeys.bind (obeys_transition (S := S) (fun _ _ _ _ => allowed_of_quiet) trivial hpatch
    ?_ ?_ ?_)
  · intro r r' changes tr' hreading hS hmoved
    refine .mk hreading (hchanges r changes hS) hmoved ?_
    rw [Below, hreading.written, hmoved.target]
    exact hbelow
  · intro r r' changes tr' hreading hS hmoved
    refine hnext r r' changes _ hS hmoved ?_ (by simp) ?_
    · refine hreading.grows.trans (Grows.append (unsent_singleton fun request heq => ?_))
      cases heq
    · intro w hw
      rw [written_append, hreading.written] at hw
      rcases List.mem_append.mp hw with hw | hw
      · exact Nat.lt_succ_of_lt (hbelow w hw)
      · rw [List.mem_singleton.mp hw, hmoved.target]
        exact Nat.lt_succ_self _
  · exact fun x tr' _ _ h => nomatch h

theorem getForOwner_bind {caseId ownerId : Str} {f : CaseRecord → Action β}
    (hnext : ∀ r, r.ownerId = ownerId →
      Follows env k Q (f r) (tr ++ [⟨.get caseId, .ok r⟩])) :
    Follows env k Q (getForOwner caseId ownerId >>= f) tr :=
  Obeys.bind (obeys_getForOwner trivial hnext fun _ _ _ h => nomatch h)

end Follows

theorem purePatch_quietly (f : CaseRecord → CasePatch) (r : CaseRecord) :
    Quietly (fun changes => changes = f r) (purePatch f r) := Only.ret rfl

end Clawback
