import Clawback.Agent.Invariant

/-!
# No action without approval

* `sent_is_approved`: whatever is sent for a case is the message of its one proposal, and
  the call that sends it has stored its owner's approval of exactly that proposal.
-/

namespace Clawback

open Js Async

/-- **No action without a stored approval.** In every interleaving of calls, with failures
at any step: the call that sends an action for a case is an approval by the owner of the
case, it has stored that approval before, and the message sent is that of the approved
proposal, the only one ever stored for the case. -/
theorem sent_is_approved {env : Platform} {moves : List (Move Call Choice)}
    {p : Pool Call Effect Effect.Answer JsError World CallResult}
    (hrun : (agent env).run (Pool.init World.empty) moves = some p) {h₁ h₂ : AgentHistory}
    {t : Nat} {request : ProviderActionRequest}
    {result : Except JsError (Effect.sendAction request).Answer}
    (hsent : p.history = h₁ ++ .did t ⟨.sendAction request, result⟩ :: h₂) :
    ∃ deps ownerId proposalId proposal approvedAt approved,
      .called t (.approveAndExecute deps request.caseId ownerId proposalId) ∈ h₁ ∧
      .did t ⟨.save approved, .ok ()⟩ ∈ h₁ ∧
      approved.caseId = request.caseId ∧ approved.ownerId = ownerId ∧
      approved.approval = some
        { caseId := request.caseId
          proposalId
          actionCommitment := commit env.sha256Hex (toJson proposal)
          approvedAt
          approvedBy := ownerId } ∧
      (∃ u r, Stored h₁ u r ∧ r.caseId = request.caseId ∧ r.proposal = some proposal) ∧
      (∀ u r, Stored p.history u r → r.caseId = request.caseId →
        ∀ q, r.proposal = some q → q = proposal) ∧
      proposal.proposalId = proposalId ∧ request.exactMessage = proposal.exactMessage := by
  have hl := (System.run_lawful start_obeys hrun).lawful
  obtain ⟨k, _, _, _, hl₁, hk, hallowed, -, -⟩ := hl.split hsent
  obtain ⟨⟨hget, howner, hproposal, hid⟩, happroved, happroval, -, -, -⟩ := hallowed
  rename_i deps caseId ownerId proposalId proposal current approvedAt approved executing input
  have hsaved := mem_own.mp happroved
  have hcase : approved.caseId = caseId := caseId_of_decides hl₁ hk rfl hsaved
  obtain ⟨⟨u, hcurrent⟩, hcurrentId⟩ := stored_of_get hl₁ (mem_own.mp hget)
  have hcore := sameCore_of_stored hl₁ hcurrent (.inr hsaved) (hcurrentId.trans hcase.symm)
  refine ⟨deps, ownerId, proposalId, proposal, approvedAt, approved, hk, hsaved, hcase,
    hcore.ownerId.trans howner, ?_, ⟨u, current, hcurrent, hcurrentId, hproposal⟩, ?_, hid, rfl⟩
  · rw [happroval, ← hid]
    rfl
  · intro v r hr hrid q hq
    refine proposal_unique hl hr (hcurrent.mono ?_) (hrid.trans hcurrentId.symm) hq hproposal
    rw [hsent]
    exact List.subset_append_left _ _

theorem sent_is_approved_sample :
    ∃ p h₁ t r, (agent samplePlatform).run (Pool.init World.empty) sampleMoves = some p ∧
      h₁ <+: p.history ∧ .did t ⟨.save r, .ok ()⟩ ∈ h₁ ∧ r.caseId = js "case_1" ∧
      r.approval ≠ none := by
  obtain ⟨p, hrun, -, hsent, -⟩ := sampleMoves_run
  have hrun := System.run_of_runInTurn hrun
  obtain ⟨⟨t, request⟩, hmem⟩ := List.exists_mem_of_ne_nil _ hsent
  obtain ⟨result, hmem, hid⟩ := mem_sent hmem
  obtain ⟨h₁, h₂, heq⟩ := List.append_of_mem hmem
  obtain ⟨_, _, _, _, _, r, -, hsaved, hcase, -, happroval, -⟩ := sent_is_approved hrun heq
  refine ⟨p, h₁, t, r, hrun, ⟨_, heq.symm⟩, hsaved, hcase.trans hid, ?_⟩
  rw [happroval]
  exact Option.some_ne_none _

end Clawback
