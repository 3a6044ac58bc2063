import Clawback.Agent.AtRest
import Clawback.Agent.Execution

/-!
# What the provider's answer decides

An approval records the provider's answer as the outcome, derives the receipt's status and the fee
from it, and copies the source of the provider into the receipt. The rules here say where each of
these comes from, in whatever way calls interleave and whatever fails.

* `Reports`: the sites at which a record is saved, with what the patch owes to the answer.
* `start_reporting`: every call obeys the rules.
* `reported_induction`: so what holds of the drafts and is kept at every site holds of every record
  that is ever stored.
* `outcome_of_stored`, `receipt_of_stored`, `fee_of_assessed`: the answers behind outcomes,
  receipts and fees.
-/

namespace Clawback

open Js Async

variable {env : Platform}

/-! ## The rules -/

/-- The provider has answered the call, about this case. -/
def Replied (tr : CallTrace) (caseId : Str) (result : ProviderActionResult) : Prop :=
  ∃ request, ⟨.sendAction request, .ok result⟩ ∈ tr ∧ request.caseId = caseId

/-- The counterparty has done what it was asked. -/
def ProviderActionResult.Granted (result : ProviderActionResult) : Prop :=
  result.outcomeType = .cancelled ∨ result.outcomeType = .refundIssued

/-- The receipt is labelled with the source of the provider, and is successful if the answer was
a cancellation or a refund. -/
structure ReceiptOf (deps : OrchestratorDeps) (result : ProviderActionResult)
    (v : ClawbackReceipt) : Prop where
  environment : v.environment = deps.source
  status : v.status = .successful ↔ result.Granted

/-- What a call puts into a record `r` of the case that it has read. -/
inductive Reports : Call → Str → CallTrace → CaseRecord → CaseEvent → CasePatch → Prop
  | keep {k caseId tr r event} : event ∈ bareEvents → Reports k caseId tr r event {}
  | propose {k caseId tr r degradedReason} {proposal : ActionProposal} {message : EncryptedPayload}
    {execution : ExecutionEvidence} : execution.succeeded = true →
    Reports k caseId tr r .proposeAction
      { proposal := some (some proposal)
        encryptedProposalMessage := some (some message)
        execution := some (some execution)
        degradedReason := some degradedReason }
  | approve {k caseId tr r} {approval : ApprovalRecord} :
    Reports k caseId tr r .approve { approval := some (some approval) }
  | fail {k caseId tr r} {message : Str} :
    Reports k caseId tr r .executionFailed (failedExecutionPatch message r)
  | answer {k caseId tr r result recordedAt event} : Replied tr caseId result →
    event = outcomeEvent (outcomeOf caseId result recordedAt) →
    Reports k caseId tr r event { outcome := some (some (outcomeOf caseId result recordedAt)) }
  | confirm {deps caseId ownerId proposalId tr r result v} : Replied tr caseId result →
    result.outcomeType ≠ .noResponse → ReceiptOf deps result v →
    Reports (.approveAndExecute deps caseId ownerId proposalId) caseId tr r .outcomeConfirmed
      { receipt := some (some v) }

/-- An approval assesses the fee on a claim that the answer confirms. -/
def Charges (tr : CallTrace) (caseId : Str) (fee : FeeCalculation) : Prop :=
  ∃ result, Replied tr caseId result ∧ result.outcomeType ≠ .noResponse ∧
    verifyClaimedSavings result = some result.claimedSavingsCents ∧
    0 < result.claimedSavingsCents ∧
    computeFee (some result.claimedSavingsCents) defaultFeeBps = .ok fee

def Reporting : Call → CallTrace → Effect → Prop
  | _, _, .create d => ∃ caseId ownerId encryptedInput environment startedAt,
    d = draftRecord caseId ownerId encryptedInput environment startedAt
  | k, tr, .save r' => ∃ caseId r event patch, ⟨.get caseId, .ok r⟩ ∈ tr ∧
    Reports k caseId tr r event patch ∧ Moved event patch r r'
  | .approveAndExecute _ caseId _ _, tr, .assessFee c fee => c = caseId ∧ Charges tr caseId fee
  | .approveAndExecute deps caseId _ _, tr, .uploadJson v =>
    ∃ result, Replied tr caseId result ∧ ReceiptOf deps result v
  | _, _, _ => True

theorem Replied.mono {tr tr' : CallTrace} {caseId : Str} {result : ProviderActionResult}
    (h : Replied tr caseId result) (hsub : tr ⊆ tr') : Replied tr' caseId result := by
  obtain ⟨request, hmem, hid⟩ := h
  exact ⟨request, hsub hmem, hid⟩

theorem Reports.mono {k : Call} {caseId : Str} {tr tr' : CallTrace} {r : CaseRecord}
    {event : CaseEvent} {patch : CasePatch} (h : Reports k caseId tr r event patch)
    (hsub : tr ⊆ tr') : Reports k caseId tr' r event patch := by
  cases h with
  | keep hevent => exact .keep hevent
  | propose hsucceeded => exact .propose hsucceeded
  | approve => exact .approve
  | fail => exact .fail
  | answer hanswered hevent => exact .answer (hanswered.mono hsub) hevent
  | confirm hanswered hresponse hv => exact .confirm (hanswered.mono hsub) hresponse hv

/-! ## The calls obey the rules -/

section Rules

variable {k : Call} {tr : CallTrace} {α β : Type} {caseId : Str}

/-- The calls without restrictions on the ledger and the storage. -/
def Call.isApproval : Call → Bool
  | approveAndExecute _ _ _ _ => true
  | _ => false

theorem reporting_of_quiet (hk : k.isApproval = false) {e : Effect} (h : e.isQuiet = true) :
    Reporting k tr e := by
  cases k <;> cases e <;> trivial

/-- A program that obeys the rules of a call, whatever it returns. -/
abbrev Reported (k : Call) (p : Action α) (tr : CallTrace) : Prop :=
  Obeys (Reporting k) (fun _ _ => True) p tr

theorem reported_quiet_bind (hk : k.isApproval = false) {S : α → Prop} {p : Action α}
    {f : α → Action β} (hp : Quietly S p) (hnext : ∀ a since, S a → Reported k (f a) (tr ++ since)) :
    Reported k (p >>= f) tr :=
  hp.obeys_bind (fun _ _ => reporting_of_quiet hk) (fun a since hS _ => hnext a since hS)
    fun _ _ => trivial

/-- An effect that is allowed to every call, and what comes after it. -/
theorem reported_perform_bind {e : Effect} {f : e.Answer → Action β} (he : Reporting k tr e)
    (hnext : ∀ a, Reported k (f a) (tr ++ [⟨e, .ok a⟩])) :
    Reported k (Prog.perform e >>= f) tr := by
  refine Obeys.bind (Obeys.perform he fun r => ?_)
  cases r with
  | ok a => exact hnext a
  | error x => exact trivial

theorem reporting_now : Reporting k tr .now := by
  cases k <;> trivial

theorem reporting_randomUUID : Reporting k tr .randomUUID := by
  cases k <;> trivial

theorem reporting_get : Reporting k tr (.get caseId) := by
  cases k <;> trivial

theorem reported_lift_bind {r : Except JsError α} {f : α → Action β}
    (hnext : ∀ a, r = .ok a → Reported k (f a) tr) : Reported k (Prog.lift r >>= f) tr :=
  Obeys.lift_bind hnext fun _ => trivial

theorem reported_newId_bind {pre : Str} {f : Str → Action β}
    (hnext : ∀ id since, Reported k (f id) (tr ++ since)) : Reported k (newId pre >>= f) tr := by
  rw [newId, bind_assoc]
  exact reported_perform_bind reporting_randomUUID fun uuid => hnext _ _

theorem reported_getForOwner_bind {ownerId : Str} {f : CaseRecord → Action β}
    (hnext : ∀ r, Reported k (f r) (tr ++ [⟨.get caseId, .ok r⟩])) :
    Reported k (getForOwner caseId ownerId >>= f) tr :=
  Obeys.bind (obeys_getForOwner reporting_get (fun r _ => hnext r) fun _ _ => trivial)

/-- A transition at one of the sites. -/
theorem reported_transition_bind {event : CaseEvent} {patch : CaseRecord → CasePatch}
    {f : CaseRecord → Action β}
    (hreports : ∀ r, Reports k caseId tr r event (patch r))
    (hnext : ∀ r r' since, Moved event (patch r) r r' → Reported k (f r') (tr ++ since)) :
    Reported k (transition caseId event (purePatch patch) >>= f) tr := by
  refine Obeys.bind (obeys_transition_of (T := fun e => e = .now)
    (S := fun r changes => changes = patch r) (fun _ h => h ▸ rfl) rfl ?_ reporting_get
    (fun _ => Only.ret rfl) ?_ ?_ fun _ _ _ => trivial)
  · rintro r tr' _ _ rfl
    exact reporting_now
  · rintro r r' _ _ ⟨since, rfl, -⟩ rfl hmoved
    exact ⟨caseId, r, event, patch r, by simp,
      (hreports r).mono (List.subset_append_left _ _), hmoved⟩
  · rintro r r' _ _ ⟨since, rfl, -⟩ rfl hmoved
    rw [List.append_assoc]
    exact hnext r r' _ hmoved

theorem reported_get_bind {f : CaseRecord → β} :
    Reported k (Prog.perform (Effect.get caseId) >>= fun r => pure (f r)) tr :=
  reported_perform_bind reporting_get fun _ => trivial

theorem submitCase_reported (deps : OrchestratorDeps) (ownerId : Str)
    (input : SubscriptionCaseInput) :
    Reported (.submitCase deps ownerId input) (submitCase env deps ownerId input) [] := by
  have hkeep : ∀ {event : CaseEvent} {caseId : Str} {tr : CallTrace}, event ∈ bareEvents →
      ∀ r, Reports (.submitCase deps ownerId input) caseId tr r event {} :=
    fun hevent _ => .keep hevent
  unfold submitCase
  refine reported_quiet_bind rfl (newId_quietly _) fun caseId _ _ => ?_
  refine reported_quiet_bind rfl now_quietly fun startedAt _ _ => ?_
  refine reported_quiet_bind rfl (encryptText_quietly _) fun encryptedInput _ _ => ?_
  refine reported_perform_bind ⟨_, _, _, _, _, rfl⟩ fun _ => ?_
  refine reported_transition_bind (hkeep (by decide)) fun _ _ _ _ => ?_
  refine reported_transition_bind (hkeep (by decide)) fun _ _ _ _ => ?_
  refine reported_quiet_bind rfl (analyze_quietly _ _) fun analysis _ _ => ?_
  refine reported_quiet_bind rfl (newId_quietly _) fun proposalId _ _ => ?_
  refine reported_quiet_bind rfl now_quietly fun createdAt _ _ => ?_
  refine Obeys.bind (obeys_transition (fun _ _ _ _ => reporting_of_quiet rfl) reporting_get
    (fun r => Only.mono (fun _ => Effect.isQuiet_of_isLocal)
      (proposalPatch_eq _ analysis startedAt r)) ?_ ?_ fun _ _ _ => trivial)
  · rintro r r' _ _ ⟨since, rfl, -⟩ ⟨message, executionId, completedAt, rfl, -⟩ hmoved
    exact ⟨caseId, r, _, _, by simp, .propose rfl, hmoved⟩
  · intro r r' changes tr' _ _ _
    exact reported_transition_bind (hkeep (by decide)) fun _ _ _ _ => reported_get_bind

theorem rejectProposal_reported (caseId ownerId : Str) :
    Reported (.rejectProposal caseId ownerId) (rejectProposal caseId ownerId) [] := by
  refine reported_getForOwner_bind fun _ => ?_
  exact reported_transition_bind (fun _ => .keep (by decide)) fun _ _ _ _ => trivial

section Approve

variable {deps : OrchestratorDeps} {ownerId proposalId : Str} {result : ProviderActionResult}
  {v : ClawbackReceipt}

/-- Anchors do not change what a receipt says. -/
theorem ReceiptOf.anchored (h : ReceiptOf deps result v) (anchor : ReceiptAnchor) :
    ReceiptOf deps result { v with anchor } := ⟨h.environment, h.status⟩

/-- A receipt is sent where there is a client for it; only its anchors change. -/
theorem sendReceipt_reported {client : Bool} {e : Effect}
    {f : Except JsError e.Answer → Action ClawbackReceipt}
    (he : Reporting (.approveAndExecute deps caseId ownerId proposalId) tr e)
    (hv : ReceiptOf deps result v) (herr : ∀ x, f (.error x) = pure v)
    (hok : ∀ a, ∃ anchor, f (.ok a) = pure { v with anchor }) :
    Obeys (Reporting (.approveAndExecute deps caseId ownerId proposalId))
      (fun r tr' => ∀ v', r = .ok v' → ReceiptOf deps result v' ∧ tr ⊆ tr')
      (if client = true then (Prog.perform e).attempt >>= f else pure v) tr := by
  by_cases hclient : client = true
  · rw [if_pos hclient]
    refine Obeys.bind (Obeys.attempt (Obeys.perform he fun r => ?_))
    cases r with
    | error x =>
      show Obeys _ _ (f (.error x)) _
      rw [herr x]
      rintro _ ⟨⟩
      exact ⟨hv, List.subset_append_left _ _⟩
    | ok a =>
      obtain ⟨anchor, hsent⟩ := hok a
      show Obeys _ _ (f (.ok a)) _
      rw [hsent]
      rintro _ ⟨⟩
      exact ⟨hv.anchored anchor, List.subset_append_left _ _⟩
  · rw [if_neg hclient]
    rintro _ ⟨⟩
    exact ⟨hv, List.Subset.refl _⟩

theorem storeReceipt_reported (hanswered : Replied tr caseId result)
    (hv : ReceiptOf deps result v) :
    Obeys (Reporting (.approveAndExecute deps caseId ownerId proposalId))
      (fun r tr' => ∀ v', r = .ok v' → ReceiptOf deps result v' ∧ tr ⊆ tr')
      (storeReceipt deps v) tr := by
  unfold storeReceipt
  exact sendReceipt_reported (e := .uploadJson v) ⟨result, hanswered, hv⟩ hv (fun _ => rfl)
    fun _ => ⟨_, rfl⟩

theorem anchorReceipt_reported (hv : ReceiptOf deps result v) :
    Obeys (Reporting (.approveAndExecute deps caseId ownerId proposalId))
      (fun r tr' => ∀ v', r = .ok v' → ReceiptOf deps result v' ∧ tr ⊆ tr')
      (anchorReceipt env deps caseId v) tr := by
  unfold anchorReceipt
  exact sendReceipt_reported (e := .anchorReceipt _ _ _) trivial hv (fun _ => rfl)
    fun _ => ⟨_, rfl⟩

/-- The fee is assessed on what the answer confirms. -/
theorem settle_reported (hanswered : Replied tr caseId result)
    (hresponse : result.outcomeType ≠ .noResponse) {recordedAt : Str} :
    Obeys (Reporting (.approveAndExecute deps caseId ownerId proposalId))
      (fun _ tr' => tr ⊆ tr') (settle caseId (outcomeOf caseId result recordedAt)) tr := by
  unfold settle
  split
  · rename_i savings hsavings
    by_cases hpos : 0 < savings
    · rw [if_pos hpos]
      have hclaimed := (verifyClaimedSavings_pos hsavings hpos).1
      subst hclaimed
      refine Obeys.lift_bind (fun fee hfee => ?_) fun _ => List.Subset.refl _
      refine Obeys.bind (Obeys.perform ⟨rfl, result, hanswered, hresponse, hsavings, hpos, hfee⟩
        fun r => ?_)
      cases r <;> exact List.subset_append_left _ _
    · rw [if_neg hpos]
      exact List.Subset.refl _
  · exact List.Subset.refl _

theorem deriveStatus_eq_successful_iff (input : BuildReceiptInput) :
    deriveStatus input = .successful ↔
      input.outcome.outcomeType = .cancelled ∨ input.outcome.outcomeType = .refundIssued := by
  unfold deriveStatus
  cases input.outcome.outcomeType <;> simp

/-- The receipt that is built from a record with the outcome of the answer. -/
theorem receiptOf_buildReceipt {input : SubscriptionCaseInput} {afterOutcome : CaseRecord}
    {recordedAt : Str} {built : BuildReceiptInput}
    (houtcome : afterOutcome.outcome = some (outcomeOf caseId result recordedAt))
    (hbuilt : receiptInput deps caseId input afterOutcome = .ok built)
    (receiptId createdAt : Str) :
    ReceiptOf deps result (buildReceipt env.sha256Hex receiptId createdAt built) := by
  obtain ⟨proposal, -, h⟩ := bind_eq_ok.mp hbuilt
  obtain ⟨approval, -, h⟩ := bind_eq_ok.mp h
  obtain ⟨execution, -, h⟩ := bind_eq_ok.mp h
  obtain ⟨outcome, hsome, h⟩ := bind_eq_ok.mp h
  rw [houtcome] at hsome
  cases hsome
  cases h
  exact ⟨rfl, deriveStatus_eq_successful_iff _⟩

theorem finalize_reported {input : SubscriptionCaseInput} {afterOutcome : CaseRecord}
    {recordedAt : Str} (hanswered : Replied tr caseId result)
    (hresponse : result.outcomeType ≠ .noResponse)
    (houtcome : afterOutcome.outcome = some (outcomeOf caseId result recordedAt)) :
    Reported (.approveAndExecute deps caseId ownerId proposalId)
      (finalize env deps caseId input (outcomeOf caseId result recordedAt) afterOutcome) tr := by
  refine reported_lift_bind fun built hbuilt => ?_
  refine reported_newId_bind fun receiptId since => ?_
  refine reported_perform_bind reporting_now fun createdAt => ?_
  refine reported_lift_bind fun _ _ => ?_
  generalize htr : tr ++ since ++ [⟨.now, .ok createdAt⟩] = tr₀
  have hanswered₀ : Replied tr₀ caseId result := by
    rw [← htr, List.append_assoc]
    exact hanswered.mono (List.subset_append_left _ _)
  have hv : ReceiptOf deps result (buildReceipt env.sha256Hex receiptId createdAt built) :=
    receiptOf_buildReceipt houtcome hbuilt receiptId createdAt
  refine Obeys.bind_of (storeReceipt_reported hanswered₀ hv) ?_ fun _ _ => trivial
  rintro stored tr₁ ⟨hstored, hsub₁⟩
  refine Obeys.bind_of (anchorReceipt_reported hstored) ?_ fun _ _ => trivial
  rintro anchored tr₂ ⟨hanchored, hsub₂⟩
  have hanswered₂ := (hanswered₀.mono hsub₁).mono hsub₂
  refine Obeys.bind ((settle_reported hanswered₂ hresponse).mono ?_)
  rintro r tr₃ hsub₃
  cases r with
  | error x => exact trivial
  | ok _ =>
    refine reported_transition_bind (fun _ => ?_) fun _ _ _ _ => trivial
    exact .confirm (hanswered₂.mono hsub₃) hresponse hanchored

theorem recordOutcome_reported {input : SubscriptionCaseInput} {recordedAt : Str}
    (hanswered : Replied tr caseId result) :
    Reported (.approveAndExecute deps caseId ownerId proposalId)
      (recordOutcome env deps caseId input (outcomeOf caseId result recordedAt)) tr := by
  refine reported_transition_bind (fun _ => .answer hanswered rfl) fun r r' since hmoved => ?_
  have houtcome : r'.outcome = some (outcomeOf caseId result recordedAt) := by
    obtain ⟨next, updatedAt, -, rfl⟩ := hmoved
    rfl
  by_cases hresponse : result.outcomeType = .noResponse
  · rw [if_pos (show (outcomeOf caseId result recordedAt).outcomeType = _ from hresponse)]
    exact trivial
  · rw [if_neg (show ¬ (outcomeOf caseId result recordedAt).outcomeType = _ from hresponse)]
    exact finalize_reported (hanswered.mono (List.subset_append_left _ _)) hresponse houtcome

theorem sendForOutcome_reported {input : SubscriptionCaseInput} {message : Str} :
    Obeys (Reporting (.approveAndExecute deps caseId ownerId proposalId))
      (fun r tr' => ∀ outcome, r = .ok outcome → ∃ result recordedAt,
        Replied tr' caseId result ∧ outcome = outcomeOf caseId result recordedAt)
      (sendForOutcome caseId input message) tr := by
  refine Obeys.bind (Obeys.perform trivial fun result => ?_)
  cases result with
  | error x => exact fun _ h => nomatch h
  | ok result =>
    refine Obeys.bind (Obeys.perform trivial fun recordedAt => ?_)
    cases recordedAt with
    | error x => exact fun _ h => nomatch h
    | ok recordedAt =>
      rintro _ ⟨⟩
      exact ⟨result, recordedAt, ⟨{ caseId, input, exactMessage := message }, by simp, rfl⟩, rfl⟩

theorem approveAndExecute_reported (deps : OrchestratorDeps) (caseId ownerId proposalId : Str) :
    Reported (.approveAndExecute deps caseId ownerId proposalId)
      (approveAndExecute env deps caseId ownerId proposalId) [] := by
  refine reported_getForOwner_bind fun current => ?_
  refine reported_lift_bind fun proposal _ => ?_
  refine reported_perform_bind reporting_now fun approvedAt => ?_
  refine reported_transition_bind (fun _ => .approve) fun _ _ _ _ => ?_
  refine reported_transition_bind (fun _ => .keep (by decide)) fun _ _ _ _ => ?_
  refine reported_lift_bind fun input _ => ?_
  refine Obeys.bind (Obeys.attempt (sendForOutcome_reported.mono fun r tr' hr => ?_))
  cases r with
  | error error =>
    exact reported_transition_bind (fun _ => .fail) fun _ _ _ _ => reported_get_bind
  | ok outcome =>
    obtain ⟨result, recordedAt, hanswered, rfl⟩ := hr outcome rfl
    exact recordOutcome_reported hanswered

end Approve

/-- Every call obeys the rules. -/
theorem start_reporting (k : Call) : Reported k (start env k) [] := by
  cases k with
  | submitCase deps ownerId input => exact Obeys.wrap (submitCase_reported deps ownerId input)
  | rejectProposal caseId ownerId => exact Obeys.wrap (rejectProposal_reported caseId ownerId)
  | approveAndExecute deps caseId ownerId proposalId =>
    exact Obeys.wrap (approveAndExecute_reported deps caseId ownerId proposalId)
  | getCase caseId ownerId =>
    exact Obeys.wrap (reported_getForOwner_bind fun _ => trivial)
  | verifyCaseReceipt caseId ownerId =>
    exact Obeys.wrap (reported_getForOwner_bind fun _ => Obeys.lift trivial)
  | reload caseId => exact Obeys.bind (Obeys.perform trivial fun r => by cases r <;> trivial)

end Rules

/-! ## What is stored -/

section Histories

variable {h : AgentHistory} {w : World}

/-- The histories in which every call obeys the rules. -/
abbrev ReportLawful (env : Platform) : AgentHistory → World → Prop :=
  Lawful (agent env) Reporting World.empty

/-- The provider has answered call `t`, about this case. -/
def RepliedTo (h : AgentHistory) (t : Nat) (caseId : Str) (result : ProviderActionResult) : Prop :=
  ∃ request, .did t ⟨.sendAction request, .ok result⟩ ∈ h ∧ request.caseId = caseId

theorem replied_own {t : Nat} {caseId : Str} {result : ProviderActionResult} :
    Replied (own t h) caseId result ↔ RepliedTo h t caseId result := by
  simp only [Replied, RepliedTo, mem_own]

/-- The answers of the provider. -/
def replies (h : AgentHistory) : List ProviderActionResult :=
  h.filterMap fun
    | .did _ ⟨.sendAction _, .ok result⟩ => some result
    | _ => none

theorem RepliedTo.mem_replies {t : Nat} {caseId : Str} {result : ProviderActionResult}
    (hreplied : RepliedTo h t caseId result) : result ∈ replies h := by
  obtain ⟨request, hmem, -⟩ := hreplied
  exact List.mem_filterMap.mpr ⟨_, hmem, rfl⟩

/-- Call `k` of thread `t` has put `r'` in the place of `r`, at one of the sites. -/
structure ReportedFrom (h : AgentHistory) (t : Nat) (k : Call) (event : CaseEvent)
    (patch : CasePatch) (r r' : CaseRecord) : Prop where
  called : .called t k ∈ h
  stored : ∃ u, Stored h u r
  reports : Reports k r.caseId (own t h) r event patch
  moved : Moved event patch r r'

theorem own_subset {h h' : AgentHistory} (hsub : h ⊆ h') (t : Nat) : own t h ⊆ own t h' :=
  fun _ ha => mem_own.mpr (hsub (mem_own.mp ha))

theorem ReportedFrom.mono {h' : AgentHistory} {t : Nat} {k : Call} {event : CaseEvent}
    {patch : CasePatch} {r r' : CaseRecord} (hr : ReportedFrom h t k event patch r r')
    (hsub : h ⊆ h') : ReportedFrom h' t k event patch r r' := by
  obtain ⟨u, hst⟩ := hr.stored
  exact ⟨hsub hr.called, ⟨u, hst.mono hsub⟩, hr.reports.mono (own_subset hsub t), hr.moved⟩

theorem reportedFrom_of_reporting (hl : ReportLawful env h w) {t : Nat} {k : Call}
    (hk : .called t k ∈ h) {r' : CaseRecord} (hreporting : Reporting k (own t h) (.save r')) :
    ∃ event patch r, ReportedFrom h t k event patch r r' := by
  obtain ⟨caseId, r, event, patch, hget, hreports, hmoved⟩ := hreporting
  obtain ⟨h₁, h₂, hsplit⟩ := List.append_of_mem (mem_own.mp hget)
  obtain ⟨⟨u, hst⟩, rfl⟩ := stored_of_current (register_of_get rfl hl hsplit)
  have hbefore : h₁ ⊆ h := hsplit ▸ List.subset_append_left _ _
  exact ⟨event, patch, r, hk, ⟨u, hst.mono hbefore⟩, hreports, hmoved⟩

/-- Every record that is saved is put in the place of another one at one of the sites. -/
theorem reportedFrom_of_save (hl : ReportLawful env h w) {t : Nat} {r' : CaseRecord}
    (hsaved : .did t ⟨.save r', .ok ()⟩ ∈ h) :
    ∃ k event patch r, ReportedFrom h t k event patch r r' := by
  obtain ⟨h₁, h₂, rfl⟩ := List.append_of_mem hsaved
  obtain ⟨k, c, w₁, w₂, hl₁, hk, hreporting, -, -⟩ := hl.split rfl
  obtain ⟨event, patch, r, hr⟩ := reportedFrom_of_reporting hl₁ hk hreporting
  exact ⟨k, event, patch, r, hr.mono (List.subset_append_left _ _)⟩

/-- What holds of the drafts, and is kept at every site, holds of every record that is ever
stored. -/
theorem reported_induction {I : CaseRecord → Prop} (hl : ReportLawful env h w)
    (hcreate : ∀ caseId ownerId encryptedInput environment startedAt,
      I (draftRecord caseId ownerId encryptedInput environment startedAt))
    (hsave : ∀ t k event patch r r', ReportedFrom h t k event patch r r' → I r → I r')
    {t : Nat} {r : CaseRecord} (hst : Stored h t r) : I r := by
  have hprefixes : ∀ {h₁ : AgentHistory} {w₁ : World}, ReportLawful env h₁ w₁ → h₁ ⊆ h →
      ∀ {t r}, Stored h₁ t r → I r := by
    intro h₁ w₁ hl₁
    induction hl₁ with
    | nil => exact fun _ _ _ hst => by rcases hst with hst | hst <;> cases hst
    | called _ _ ih =>
      exact fun hsub _ _ hst => ih (fun _ hev => hsub (List.mem_append_left _ hev)) hst.of_called
    | did hl₁ hk hreporting _ ih =>
      intro hsub t r hst
      have hbefore := fun ev hev => hsub (List.mem_append_left _ (a := ev) hev)
      rcases hst.of_did with hold | ⟨rfl, hnew | hnew⟩
      · exact ih hbefore hold
      · cases hnew
        obtain ⟨caseId, ownerId, encryptedInput, environment, startedAt, rfl⟩ := hreporting
        exact hcreate _ _ _ _ _
      · cases hnew
        obtain ⟨event, patch, r₀, hr⟩ := reportedFrom_of_reporting hl₁ hk hreporting
        obtain ⟨u, hu⟩ := hr.stored
        exact hsave _ _ _ _ _ _ (hr.mono hbefore) (ih hbefore hu)
  exact hprefixes hl (List.Subset.refl h) hst

theorem ReportedFrom.kept {t : Nat} {k : Call} {event : CaseEvent} {patch : CasePatch}
    {r r' : CaseRecord} (hr : ReportedFrom h t k event patch r r') :
    r'.caseId = r.caseId ∧ r'.environment = r.environment := by
  obtain ⟨next, updatedAt, -, heq⟩ := hr.moved
  rw [heq]
  cases hr.reports <;> exact ⟨rfl, rfl⟩

/-- Every outcome is the provider's answer, about the same case. -/
theorem outcome_of_stored (hl : ReportLawful env h w) {t : Nat} {r : CaseRecord}
    (hst : Stored h t r) {outcome : OutcomeEvidence} (ho : r.outcome = some outcome) :
    ∃ u result recordedAt, RepliedTo h u r.caseId result ∧
      outcome = outcomeOf r.caseId result recordedAt := by
  refine reported_induction (I := fun r => ∀ outcome, r.outcome = some outcome →
    ∃ u result recordedAt, RepliedTo h u r.caseId result ∧
      outcome = outcomeOf r.caseId result recordedAt) hl ?_ ?_ hst outcome ho
  · intro caseId ownerId encryptedInput environment startedAt outcome ho
    cases ho
  · intro u k event patch r r' hr ih outcome ho
    rw [hr.kept.1]
    obtain ⟨next, updatedAt, -, heq⟩ := hr.moved
    rw [heq] at ho
    cases hr.reports with
    | answer hreplied _ =>
      cases ho
      exact ⟨u, _, _, replied_own.mp hreplied, rfl⟩
    | _ => exact ih outcome ho

/-- Every receipt is one that an approval of the case has built after an answer. -/
theorem receipt_of_stored (hl : ReportLawful env h w) {t : Nat} {r : CaseRecord}
    (hst : Stored h t r) {v : ClawbackReceipt} (hv : r.receipt = some v) :
    ∃ u deps ownerId proposalId result,
      .called u (.approveAndExecute deps r.caseId ownerId proposalId) ∈ h ∧
      RepliedTo h u r.caseId result ∧ result.outcomeType ≠ .noResponse ∧
      ReceiptOf deps result v := by
  refine reported_induction (I := fun r => ∀ v, r.receipt = some v →
    ∃ u deps ownerId proposalId result,
      .called u (.approveAndExecute deps r.caseId ownerId proposalId) ∈ h ∧
      RepliedTo h u r.caseId result ∧ result.outcomeType ≠ .noResponse ∧
      ReceiptOf deps result v) hl ?_ ?_ hst v hv
  · intro caseId ownerId encryptedInput environment startedAt v hv
    cases hv
  · intro u k event patch r r' hr ih v hv
    have hcalled := hr.called
    rw [hr.kept.1]
    obtain ⟨next, updatedAt, -, heq⟩ := hr.moved
    rw [heq] at hv
    cases hr.reports with
    | confirm hreplied hresponse hreceipt =>
      cases hv
      exact ⟨u, _, _, _, _, hcalled, replied_own.mp hreplied, hresponse, hreceipt⟩
    | _ => exact ih v hv

/-- An approval assesses fees of its own case, on a claim that the answer confirms. -/
theorem fee_of_assessed (hl : ReportLawful env h w) {t : Nat} {deps : OrchestratorDeps}
    {caseId ownerId proposalId : Str}
    (hk : .called t (.approveAndExecute deps caseId ownerId proposalId) ∈ h) {c : Str}
    {fee : FeeCalculation} {settled : Except JsError SettlementRecord}
    (hfee : .did t ⟨.assessFee c fee, settled⟩ ∈ h) : c = caseId ∧ ∃ result,
      RepliedTo h t caseId result ∧ result.outcomeType ≠ .noResponse ∧
      verifyClaimedSavings result = some result.claimedSavingsCents ∧
      0 < result.claimedSavingsCents ∧
      computeFee (some result.claimedSavingsCents) defaultFeeBps = .ok fee := by
  obtain ⟨h₁, h₂, rfl⟩ := List.append_of_mem hfee
  obtain ⟨k, ch, w₁, w₂, hl₁, hk', hcharges, -, -⟩ := hl.split rfl
  obtain rfl := hl.called_unique hk (List.mem_append_left _ hk')
  obtain ⟨hc, result, hreplied, hdue⟩ := hcharges
  have hsub : own t h₁ ⊆ own t (h₁ ++ .did t ⟨.assessFee c fee, settled⟩ :: h₂) :=
    own_subset (List.subset_append_left _ _) t
  exact ⟨hc, result, replied_own.mp (hreplied.mono hsub), hdue⟩

end Histories

end Clawback
