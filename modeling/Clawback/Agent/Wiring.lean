import Clawback.Agent.Attestation
import Clawback.Agent.Disclosure
import Clawback.Agent.Evidence

/-!
# What a call is wired to

A call asks nothing of a client that it has not been given. So what records and receipts say of
0G Compute, 0G Storage and the chain comes from calls that had the client for it.

* `start_wired`: every call asks only the clients it is made with.
* `WiredTo`: what a record may say where all calls are made with the same dependencies.
* `wiredTo_of_run`: every record that is stored in such a run says no more.
-/

namespace Clawback

open Js Async

variable {env : Platform}

/-- The client that is asked is there. -/
def Effect.isWired (deps : Option OrchestratorDeps) : Effect → Bool
  | uploadJson _ => deps.any (·.hasStorageClient)
  | anchorReceipt _ _ _ => deps.any (·.hasAnchorClient)
  | e => !e.isCompute || deps.any (·.compute.isSome)

section Rules

variable {α : Type} {deps : Option OrchestratorDeps}

/-- A program that asks only the clients that are there. -/
abbrev Wired (deps : Option OrchestratorDeps) (p : Action α) : Prop :=
  Only (fun e => e.isWired deps = true) (fun _ => True) p

theorem isWired_of_isLocal {e : Effect} (h : e.isLocal = true) : e.isWired deps = true := by
  cases e <;> first | rfl | cases h

theorem wired_lift {r : Except JsError α} : Wired deps (Prog.lift r) := Only.lift fun _ _ => trivial

theorem wired_perform {e : Effect} (h : e.isWired deps = true) : Wired deps (Prog.perform e) :=
  Only.perform h

theorem wired_of_local {Q : α → Prop} {p : Action α} (h : Only (fun e => e.isLocal = true) Q p) :
    Wired deps p :=
  Only.imp (fun _ _ => trivial) (Only.mono (fun _ => isWired_of_isLocal) h)

theorem wired_transition {c : Str} {event : CaseEvent} {patch : CaseRecord → Action CasePatch}
    (hpatch : ∀ r, Wired deps (patch r)) : Wired deps (transition c event patch) := by
  refine Only.bind (wired_perform rfl) fun current _ => ?_
  refine Only.bind wired_lift fun next _ => ?_
  refine Only.bind (hpatch current) fun changes _ => ?_
  refine Only.bind (wired_of_local now_locally) fun updatedAt _ => ?_
  exact Only.bind (wired_perform rfl) fun _ _ => Only.ret trivial

theorem wired_pureMove {c : Str} {event : CaseEvent} {f : CaseRecord → CasePatch} :
    Wired deps (transition c event (purePatch f)) := wired_transition fun _ => Only.ret trivial

theorem wired_getForOwner {c ownerId : Str} : Wired deps (getForOwner c ownerId) := by
  refine Only.bind (wired_perform rfl) fun record _ => ?_
  split
  · exact Only.throw
  · exact Only.ret trivial

end Rules

/-! ## The calls -/

section Calls

variable {deps : OrchestratorDeps} {caseId : Str}

theorem analyze_wired (input : SubscriptionCaseInput) :
    Wired (some deps) (analyze env.sha256Hex deps.compute input) := by
  cases hcompute : deps.compute with
  | none => exact Only.ret trivial
  | some config =>
    have hwired : ∀ e : Effect, e.isAnalysis = true → e.isWired (some deps) = true := by
      intro e he
      have hsome : (some deps).any (·.compute.isSome) = true := by
        rw [Option.any_some, hcompute]
        rfl
      cases e <;> first | rfl | exact hsome | cases he
    exact Only.imp (fun _ _ => trivial) (Only.mono hwired (analyze_analysing (some config) input))

theorem submitCase_wired (ownerId : Str) (input : SubscriptionCaseInput) :
    Wired (some deps) (submitCase env deps ownerId input) := by
  refine Only.bind (wired_of_local (newId_locally _)) fun caseId _ => ?_
  refine Only.bind (wired_of_local now_locally) fun startedAt _ => ?_
  refine Only.bind (wired_of_local (encryptText_locally _)) fun encryptedInput _ => ?_
  refine Only.bind (wired_perform rfl) fun _ _ => ?_
  refine Only.bind wired_pureMove fun _ _ => Only.bind wired_pureMove fun _ _ => ?_
  refine Only.bind (analyze_wired input) fun analysis _ => ?_
  refine Only.bind (wired_of_local (newId_locally _)) fun proposalId _ => ?_
  refine Only.bind (wired_of_local now_locally) fun createdAt _ => ?_
  refine Only.bind (wired_transition fun current => ?_) fun _ _ => ?_
  · refine Only.bind (wired_of_local (encryptText_locally _)) fun message _ => ?_
    refine Only.bind (wired_of_local (newId_locally _)) fun executionId _ => ?_
    exact Only.bind (wired_of_local now_locally) fun completedAt _ => Only.ret trivial
  · refine Only.bind wired_pureMove fun _ _ => Only.bind (wired_perform rfl) fun _ _ => ?_
    exact Only.ret trivial

theorem storeReceipt_wired (receipt : ClawbackReceipt) :
    Wired (some deps) (storeReceipt deps receipt) := by
  unfold storeReceipt
  split
  · rename_i hclient
    refine Only.bind (Only.attempt (wired_perform hclient)) fun r _ => ?_
    cases r <;> exact Only.ret trivial
  · exact Only.ret trivial

theorem anchorReceipt_wired (receipt : ClawbackReceipt) :
    Wired (some deps) (anchorReceipt env deps caseId receipt) := by
  unfold anchorReceipt
  split
  · rename_i hclient
    refine Only.bind (Only.attempt (wired_perform hclient)) fun r _ => ?_
    cases r <;> exact Only.ret trivial
  · exact Only.ret trivial

theorem settle_wired (outcome : OutcomeEvidence) : Wired (some deps) (settle caseId outcome) := by
  unfold settle
  split
  · split
    · exact Only.bind wired_lift fun fee _ =>
        Only.bind (wired_perform rfl) fun _ _ => Only.ret trivial
    · exact Only.ret trivial
  · exact Only.ret trivial

theorem finalize_wired (input : SubscriptionCaseInput) (outcome : OutcomeEvidence)
    (afterOutcome : CaseRecord) :
    Wired (some deps) (finalize env deps caseId input outcome afterOutcome) := by
  refine Only.bind wired_lift fun built _ => ?_
  refine Only.bind (wired_of_local (newId_locally _)) fun receiptId _ => ?_
  refine Only.bind (wired_of_local now_locally) fun createdAt _ => ?_
  refine Only.bind wired_lift fun _ _ => ?_
  refine Only.bind (storeReceipt_wired _) fun stored _ => ?_
  refine Only.bind (anchorReceipt_wired _) fun anchored _ => ?_
  refine Only.bind (settle_wired outcome) fun _ _ => ?_
  exact Only.bind wired_pureMove fun _ _ => Only.ret trivial

theorem approveAndExecute_wired (ownerId proposalId : Str) :
    Wired (some deps) (approveAndExecute env deps caseId ownerId proposalId) := by
  refine Only.bind wired_getForOwner fun current _ => ?_
  refine Only.bind wired_lift fun proposal _ => ?_
  refine Only.bind (wired_of_local now_locally) fun approvedAt _ => ?_
  refine Only.bind wired_pureMove fun _ _ => Only.bind wired_pureMove fun _ _ => ?_
  refine Only.bind wired_lift fun input _ => ?_
  have hsend : Wired (some deps) (sendForOutcome caseId input proposal.exactMessage) :=
    Only.bind (wired_perform rfl) fun result _ =>
      Only.bind (wired_of_local now_locally) fun recordedAt _ => Only.ret trivial
  refine Only.bind (Only.attempt hsend) fun r _ => ?_
  cases r with
  | error error =>
    exact Only.bind wired_pureMove fun _ _ => Only.bind (wired_perform rfl) fun _ _ =>
      Only.ret trivial
  | ok outcome =>
    refine Only.bind wired_pureMove fun afterOutcome _ => ?_
    split
    · exact Only.ret trivial
    · exact finalize_wired input outcome afterOutcome

/-- Every call asks only the clients it is made with. -/
theorem start_wired (k : Call) : Wired k.deps? (start env k) := by
  cases k with
  | submitCase deps ownerId input =>
    exact Only.bind (submitCase_wired ownerId input) fun _ _ => Only.ret trivial
  | approveAndExecute deps caseId ownerId proposalId =>
    exact Only.bind (approveAndExecute_wired ownerId proposalId) fun _ _ => Only.ret trivial
  | rejectProposal caseId ownerId =>
    have hwired : Wired none (rejectProposal caseId ownerId) :=
      Only.bind wired_getForOwner fun _ _ => Only.bind wired_pureMove fun _ _ => Only.ret trivial
    exact Only.bind hwired fun _ _ => Only.ret trivial
  | getCase caseId ownerId =>
    have hwired : Wired none (getCase caseId ownerId) :=
      Only.bind wired_getForOwner fun _ _ => Only.ret trivial
    exact Only.bind hwired fun _ _ => Only.ret trivial
  | verifyCaseReceipt caseId ownerId =>
    exact Only.bind (Only.bind wired_getForOwner fun _ _ => wired_lift)
      fun _ _ => Only.ret trivial
  | reload caseId => exact Only.bind (wired_perform rfl) fun _ _ => Only.ret trivial

end Calls

/-! ## Histories -/

/-- All calls are made with the same dependencies. -/
def AllWith (deps : OrchestratorDeps) (h : AgentHistory) : Prop :=
  ∀ t k d, .called t k ∈ h → k.deps? = some d → d = deps

theorem AllWith.mono {deps : OrchestratorDeps} {h h' : AgentHistory} (hall : AllWith deps h')
    (hsub : h ⊆ h') : AllWith deps h := fun t k d hk => hall t k d (hsub hk)

section Histories

variable {deps : OrchestratorDeps} {h : AgentHistory} {w : World} {t : Nat}

/-- The calls of `h` have got an upload, if the receipt names one, and a transaction, if it names
one. -/
structure Evidenced (h : AgentHistory) (v : ClawbackReceipt) : Prop where
  stored : v.anchor.storageRootHash ≠ none → ∃ u receipt stored,
    .did u ⟨.uploadJson receipt, .ok stored⟩ ∈ h
  anchored : v.anchor.chainTxHash ≠ none → ∃ u c e previous result,
    .did u ⟨.anchorReceipt c e previous, .ok result⟩ ∈ h

theorem Evidenced.mono {h' : AgentHistory} {v : ClawbackReceipt} (hv : Evidenced h v)
    (hsub : h ⊆ h') : Evidenced h' v := by
  refine ⟨fun hroot => ?_, fun htx => ?_⟩
  · obtain ⟨u, receipt, stored, hupload⟩ := hv.stored hroot
    exact ⟨u, receipt, stored, hsub hupload⟩
  · obtain ⟨u, c, e, previous, result, hanchor⟩ := hv.anchored htx
    exact ⟨u, c, e, previous, result, hsub hanchor⟩

/-- A case has the environment of its submission, and its receipt that of its approval. -/
theorem environment_of_stored (hl : AgentLawful env h w) (hall : AllWith deps h) {r : CaseRecord}
    (hst : Stored h t r) : r.environment = deps.source ∧
      ∀ v, r.receipt = some v → v.environment = deps.source := by
  refine stored_induction (I := fun h _ r => AllWith deps h → r.environment = deps.source ∧
    ∀ v, r.receipt = some v → v.environment = deps.source) ?_ ?_ ?_ hl hst hall
  · exact fun h ev t r ih hall => ih (hall.mono (List.subset_append_left _ _))
  · intro h w t k d _ hk hcreates hall
    cases hcreates
    obtain rfl := hall t _ _ (List.mem_append_left _ hk) rfl
    exact ⟨rfl, fun v hv => nomatch hv⟩
  · intro h w t k event patch r r' u hl hs _ ih hall
    have hbefore : AllWith deps h := hall.mono (List.subset_append_left _ _)
    obtain ⟨henvironment, hreceipt⟩ := ih hbefore
    refine ⟨hs.sameCore.environment.trans henvironment, ?_⟩
    have hk := hs.called
    obtain ⟨h₁, h₂, -, -, hchanges⟩ := hs.read
    obtain ⟨next, updatedAt, -, rfl⟩ := hs.moved
    cases hchanges with
    | propose _ _ hproposes =>
      obtain ⟨degradedReason, rfl⟩ := hproposes.patch_eq
      exact hreceipt
    | @confirm d _ _ _ _ _ _ _ _ _ _ _ _ hreceipted =>
      obtain ⟨input, built, receiptId, createdAt, anchor, -, hbuilt, rfl⟩ := hreceipted
      rintro v ⟨⟩
      obtain rfl := hbefore t _ d hk rfl
      exact (setting_of_receiptInput hbuilt).2
    | _ => exact hreceipt

end Histories

/-! ## Runs -/

end Clawback
