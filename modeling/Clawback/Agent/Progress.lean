import Clawback.Agent.Settlement

/-!
# No case is left halfway

The store does not fail. Then a case is left between `AWAITING_APPROVAL` and the terminal states
only by a call that meets one of three failures that no branch of the source catches: the content
of the analysis is not a text, the stored input cannot be read, or the ledger fails.

* `rests_of_runCalls`: without them, every case rests after every call.
* `case_left_halfway`: a failure of the ledger leaves a case in `OUTCOME_PENDING`.
-/

namespace Clawback

open Js Async

variable {env : Platform}

/-- A case that awaits approval, or has come to its end. -/
def Rests (state : CaseState) : Prop := state = .awaitingApproval ∨ isTerminal state = true

/-- A call meets no failure that the source does not catch, given that the store does not fail. -/
structure Smooth (env : Platform) (e : AgentEnded) : Prop where
  /-- A content that is not a text has not been accepted. -/
  readable : ¬Unreadable e.asked
  /-- The input of a case that is to be approved can be read. -/
  decrypted : ∀ deps c ownerId proposalId r proposal,
    e.call = .approveAndExecute deps c ownerId proposalId → e.before.store c = some r →
    r.state = .awaitingApproval → r.ownerId = ownerId → r.proposal = some proposal →
    proposal.proposalId = proposalId → ∃ input, decryptInput env r = .ok input
  /-- The ledger does not fail. -/
  settled : ∀ a ∈ e.asked, feeFails a = false

section

variable {deps : OrchestratorDeps} {c ownerId proposalId : Str} {w w' : World} {l : Log}

theorem Cut.absurd {since : Log} (h : Cut w c since) (hl : ∀ a ∈ l ++ since, storeFails a = false) :
    False := by
  obtain ⟨a, ha, hfails, -⟩ := h.fails
  rw [hl a (List.mem_append_right _ ha)] at hfails
  cases hfails

/-- A submission that fails nowhere comes to `AWAITING_APPROVAL`. -/
theorem Submits.rests {input : SubscriptionCaseInput} {result : Except JsError CaseSummary}
    (h : Submits env deps ownerId input w result l w')
    (hstore : ∀ a ∈ l, storeFails a = false) (hreadable : ¬Unreadable l) :
    w'.store = w.store ∨ ∃ r, w'.store r.caseId = some r ∧ r.state = .awaitingApproval ∧
      ∀ c, c ≠ r.caseId → w'.store c = w.store c := by
  cases h with
  | unstored _ => exact .inl rfl
  | @cut _ l since _ _ _ _ _ _ _ _ hreason =>
    rcases hreason with ⟨a, ha, hfails⟩ | hunreadable
    · rw [hstore a (List.mem_append_right _ ha)] at hfails
      cases hfails
    · refine absurd ?_ hreadable
      have hall := hunreadable.append l []
        fun b hb => (List.not_mem_nil hb).elim
      rwa [List.append_nil] at hall
  | @awaiting _ _ _ _ r hsubmitting hstate _ =>
    exact .inr ⟨r, hsubmitting.found, hstate, hsubmitting.only.others⟩

/-- An approval that fails nowhere comes to a terminal state. -/
theorem Executes.rests {result : Except JsError CaseSummary}
    (h : Executes env deps c ownerId proposalId w result l w')
    (hstore : ∀ a ∈ l, storeFails a = false)
    (hinput : ∀ x, Begins c ownerId proposalId w x → ∃ input, decryptInput env x.record = .ok input)
    (hfee : ∀ a ∈ l, feeFails a = false) :
    w' = w ∨ ∃ r, w'.store c = some r ∧ isTerminal r.state = true := by
  cases h with
  | refused _ => exact .inl rfl
  | unbegun _ hcut | unfailed _ _ hcut | unrecorded _ _ hcut => exact (hcut.absurd hstore).elim
  | undecrypted hx hfailed =>
    obtain ⟨input, hok⟩ := hinput _ hx
    rw [hfailed] at hok
    cases hok
  | @failed x _ error updatedAt _ _ hx _ _ =>
    exact .inr ⟨x.failed env error.text updatedAt, if_pos hx.caseId.symm, rfl⟩
  | @unanswered x _ _ _ updatedAt outcome r hx _ _ hunanswered hr =>
    refine .inr ⟨r, if_pos ?_, ?_⟩
    · rw [hr]
      exact hx.caseId.symm
    · have hstate : r.state = (outcomeEvent outcome).target := by rw [hr]; rfl
      rw [hstate, outcomeEvent, if_pos hunanswered]
      rfl
  | finalizing hx _ _ hanswered hr hfinalizes =>
    obtain ⟨r', hconcluded⟩ := hx.concluded hanswered hr hfinalizes
    refine .inr ⟨r', hconcluded.stored, ?_⟩
    rcases hconcluded.confirmed with ⟨hstate, -⟩ | ⟨-, ⟨a, ha, hfails, -⟩ | ⟨-, a, ha, hfails⟩⟩
    · rw [hstate]
      rfl
    · rw [hstore a (List.mem_append_right _ ha)] at hfails
      cases hfails
    · rw [hfee a (List.mem_append_right _ ha)] at hfails
      cases hfails

end

/-- A smooth call leaves every case at rest. -/
theorem rests_of_callEnds {e : AgentEnded} (hends : CallEnds env e.before e.call e.asked e.after)
    (hstore : ∀ a ∈ e.asked, storeFails a = false) (hsmooth : Smooth env e)
    (hrests : ∀ c r, e.before.store c = some r → Rests r.state) {c : Str} {r : CaseRecord}
    (hr : e.after.store c = some r) : Rests r.state := by
  obtain ⟨k, w, l, result, w'⟩ := e
  dsimp only at hends hstore hrests hr
  have hother : ∀ c' : Str, (∀ c, c ≠ c' → w'.store c = w.store c) →
      (∃ r', w'.store c' = some r' ∧ Rests r'.state) → Rests r.state := by
    rintro c' hothers ⟨r', hfound, hstate⟩
    by_cases hc : c = c'
    · rw [hc, hfound] at hr
      cases hr
      exact hstate
    · rw [hothers c hc] at hr
      exact hrests c r hr
  have hsame : w'.store = w.store → Rests r.state := by
    intro hstore
    rw [hstore] at hr
    exact hrests c r hr
  cases hends with
  | quiet _ hstore _ _ => exact hsame hstore
  | submits hsubmits =>
    rcases hsubmits.rests hstore hsmooth.readable with hstore | ⟨r', hfound, hstate, hothers⟩
    · exact hsame hstore
    · exact hother _ hothers ⟨r', hfound, .inl hstate⟩
  | @rejects c' _ record l updatedAt hfound hid _ _ =>
    refine hother record.caseId (fun c hc => store_put_of_ne hc)
      ⟨record.patched {} .rejected updatedAt, if_pos rfl, .inr rfl⟩
  | @executes deps c' ownerId proposalId _ _ _ hexecutes =>
    have hinput : ∀ x, Begins c' ownerId proposalId w x →
        ∃ input, decryptInput env x.record = .ok input :=
      fun x hx => hsmooth.decrypted deps c' ownerId proposalId x.record x.proposal rfl hx.found
        hx.state hx.ownerId hx.proposal hx.proposalId
    rcases hexecutes.rests hstore hinput hsmooth.settled with rfl | ⟨r', hfound, hterminal⟩
    · exact hsame rfl
    · refine hother c' (fun c hc => ?_) ⟨r', hfound, .inr hterminal⟩
      rcases hexecutes.only with ⟨-, rfl⟩ | ⟨_, record, _, hid, hstore, _⟩
      · rfl
      · rw [hstore, store_put_of_ne (hid ▸ hc)]

/-- **No case is wedged.** In every sequence of calls in which the store does not fail and every
call is smooth, every case awaits approval or is in a terminal state after each call. -/
theorem rests_of_runCalls {script : List (Call × List Choice)} {l : List AgentEnded}
    (h : (agent env).runCalls World.empty script = some l)
    (hstore : ∀ e ∈ l, ∀ a ∈ e.asked, storeFails a = false) (hsmooth : ∀ e ∈ l, Smooth env e) :
    ∀ c r, (finalWorld World.empty l).store c = some r →
      r.state = .awaitingApproval ∨ isTerminal r.state = true := by
  refine runCalls_sound_invariant (I := fun l w => (∀ e ∈ l, ∀ a ∈ e.asked, storeFails a = false) →
    (∀ e ∈ l, Smooth env e) → ∀ c r, w.store c = some r → Rests r.state) ?_ ?_ h hstore hsmooth
  · intro _ _ c r hr
    cases hr
  · intro l e hrests hw hends _ hstore hsmooth c r hr
    have hlast : e ∈ l ++ [e] := List.mem_append_right _ (List.mem_singleton_self e)
    refine rests_of_callEnds hends (hstore e hlast) (hsmooth e hlast) ?_ hr
    exact hrests (fun e' he' => hstore e' (List.mem_append_left _ he'))
      fun e' he' => hsmooth e' (List.mem_append_left _ he')

/-- No content is read, the ledger does not fail, and an input to be approved can be read. -/
def plainlySmooth (env : Platform) (e : AgentEnded) : Bool :=
  e.asked.all (fun a => !feeFails a && match a.entry.effect with
    | .responseJson => false
    | _ => true) &&
  match e.call with
  | .approveAndExecute _ c _ _ => (e.before.store c).all fun r => (decryptInput env r).isOk
  | _ => true

theorem smooth_of_plainlySmooth {e : AgentEnded} (h : plainlySmooth env e = true) :
    Smooth env e := by
  obtain ⟨hasked, hcall⟩ := (Bool.and_eq_true _ _).mp h
  have hall := fun a ha => (Bool.and_eq_true _ _).mp (List.all_eq_true.mp hasked a ha)
  refine ⟨?_, ?_, fun a ha => (Bool.not_eq_true' _).mp (hall a ha).1⟩
  · rintro ⟨before, a, after, data, heq, ha, -⟩
    have hno := (hall a (heq ▸ List.mem_append_right _ List.mem_cons_self)).2
    rw [ha] at hno
    cases hno
  · intro deps c ownerId proposalId r proposal heq hfound _ _ _ _
    rw [heq] at hcall
    simp only [hfound, Option.all_some] at hcall
    cases hinput : decryptInput env r with
    | error x =>
      rw [hinput] at hcall
      cases hcall
    | ok input => exact ⟨input, rfl⟩

set_option maxRecDepth 10000 in
theorem rests_of_runCalls_sample :
    ∃ l r, (agent samplePlatform).runCalls World.empty sampleScript = some l ∧
      (finalWorld World.empty l).store (js "case_1") = some r ∧
      (r.state = .awaitingApproval ∨ isTerminal r.state = true) := by
  have hany : (((agent samplePlatform).runCalls World.empty sampleScript).any fun l =>
      ((finalWorld World.empty l).store (js "case_1")).isSome &&
        l.all fun e => plainlySmooth samplePlatform e && e.asked.all fun a => !storeFails a) =
      true := by decide +kernel
  obtain ⟨l, hrun, hl⟩ := (Option.any_eq_true _ _).mp hany
  obtain ⟨hfound, hcalls⟩ := (Bool.and_eq_true _ _).mp hl
  obtain ⟨r, hr⟩ := Option.isSome_iff_exists.mp hfound
  have hcall := fun e he => (Bool.and_eq_true _ _).mp (List.all_eq_true.mp hcalls e he)
  refine ⟨l, r, hrun, hr, rests_of_runCalls hrun (fun e he a ha => ?_) (fun e he => ?_) _ r hr⟩
  · exact (Bool.not_eq_true' _).mp (List.all_eq_true.mp (hcall e he).2 a ha)
  · exact smooth_of_plainlySmooth (hcall e he).1

/-- The ledger fails in the sample approval. -/
def unsettledScript : List (Call × List Choice) :=
  [submitSample, approveSampleWith [.fail (.ofMessage (js "ledger is down"))]]

set_option maxRecDepth 10000 in
/-- The store does not fail; the ledger does, and the case stays in `OUTCOME_PENDING`. -/
theorem case_left_halfway :
    ∃ l r, (agent samplePlatform).runCalls World.empty unsettledScript = some l ∧
      (∀ e ∈ l, ∀ a ∈ e.asked, storeFails a = false) ∧
      (finalWorld World.empty l).store (js "case_1") = some r ∧
      ¬(r.state = .awaitingApproval ∨ isTerminal r.state = true) := by
  have hany : (((agent samplePlatform).runCalls World.empty unsettledScript).any fun l =>
      ((finalWorld World.empty l).store (js "case_1")).any (fun r => r.state == .outcomePending) &&
        (l.flatMap Ended.asked).all fun a => !storeFails a) = true := by decide +kernel
  obtain ⟨l, hrun, hl⟩ := (Option.any_eq_true _ _).mp hany
  obtain ⟨hpending, hfine⟩ := (Bool.and_eq_true _ _).mp hl
  obtain ⟨r, hfound, hstate⟩ := (Option.any_eq_true _ _).mp hpending
  refine ⟨l, r, hrun, fun e he a ha => ?_, hfound, ?_⟩
  · have hfine := List.all_eq_true.mp hfine a (List.mem_flatMap.mpr ⟨e, he, ha⟩)
    exact (Bool.not_eq_true' _).mp hfine
  · rw [eq_of_beq hstate]
    decide

end Clawback
