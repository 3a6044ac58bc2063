import Clawback.Agent.Atomic
import Clawback.Receipts.Soundness

/-!
# Finalized cases

When the calls take turns no update is lost, so the record that is finalized is the one its
receipt was built from. From then on nothing writes it any more.

* `verifyRecord_of_stored`: a record with a receipt verifies.
* `unwritten_after`: the record of a finalized case stays as it is.
* `finalized_verifies`: every finalized case verifies, forever.
-/

namespace Clawback

open Js Async

variable {env : Platform}

/-! ## Receipts -/

/-- The time of an approval is not empty. -/
theorem approvedAt_nonempty {h : AgentHistory} {w : World} (hl : AgentLawful env h w) {t : Nat}
    {r : CaseRecord} (hst : Stored h t r) {approval : ApprovalRecord}
    (happroval : r.approval = some approval) : approval.approvedAt ≠ [] := by
  refine stored_induction (I := fun _ _ r => ∀ approval, r.approval = some approval →
    approval.approvedAt ≠ []) ?_ ?_ ?_ hl hst approval happroval
  · exact fun _ _ _ _ h => h
  · intro h w t k d _ _ hcreates approval hd
    cases hcreates
    cases hd
  · intro h w t k event patch r r' u hl hs _ ih approval hr'
    obtain ⟨h₁, h₂, heq, -, hchanges⟩ := hs.read
    obtain ⟨next, updatedAt, -, rfl⟩ := hs.moved
    cases hchanges with
    | approve _ htime =>
      cases hr'
      have hmem := mem_own.mp htime
      rw [heq] at hl
      exact time_nonempty hl (List.mem_append_left _ hmem)
    | propose _ _ hproposes =>
      obtain ⟨degradedReason, rfl⟩ := hproposes.patch_eq
      exact ih approval hr'
    | _ => exact ih approval hr'

theorem nonNull_eq_ok {α : Type} {key : Str} {o : Option α} {a : α}
    (h : nonNull key o = .ok a) : o = some a := by
  cases o with
  | none => cases h
  | some b => rw [Except.ok.inj h]

/-- What a receipt is built from, and what it is verified against. -/
theorem artifacts_of_receiptInput {deps : OrchestratorDeps} {c : Str}
    {input : SubscriptionCaseInput} {r : CaseRecord} {built : BuildReceiptInput}
    (h : receiptInput deps c input r = .ok built) :
    r.proposal = some built.proposal ∧ r.approval = some built.approval ∧
      r.execution = some built.execution ∧ r.outcome = some built.outcome ∧
      built.input = input := by
  obtain ⟨proposal, hproposal, h⟩ := bind_eq_ok.mp h
  obtain ⟨approval, happroval, h⟩ := bind_eq_ok.mp h
  obtain ⟨execution, hexecution, h⟩ := bind_eq_ok.mp h
  obtain ⟨outcome, houtcome, h⟩ := bind_eq_ok.mp h
  cases h
  exact ⟨nonNull_eq_ok hproposal, nonNull_eq_ok happroval, nonNull_eq_ok hexecution,
    nonNull_eq_ok houtcome, rfl⟩

/-- The case and the environment of a receipt. -/
theorem setting_of_receiptInput {deps : OrchestratorDeps} {c : Str}
    {input : SubscriptionCaseInput} {r : CaseRecord} {built : BuildReceiptInput}
    (h : receiptInput deps c input r = .ok built) :
    built.caseId = c ∧ built.environment = deps.source := by
  obtain ⟨proposal, -, h⟩ := bind_eq_ok.mp h
  obtain ⟨approval, -, h⟩ := bind_eq_ok.mp h
  obtain ⟨execution, -, h⟩ := bind_eq_ok.mp h
  obtain ⟨outcome, -, h⟩ := bind_eq_ok.mp h
  cases h
  exact ⟨rfl, rfl⟩

/-- What `verifyRecord` reports is the verification of the record's own receipt against its own
artifacts. -/
theorem verifyRecord_eq_ok {caseId : Str} {r : CaseRecord} {report : VerificationReport}
    (h : verifyRecord env caseId r = .ok report) :
    ∃ receipt artifacts, r.receipt = some receipt ∧ r.proposal = some artifacts.proposal ∧
      r.approval = some artifacts.approval ∧ r.execution = some artifacts.execution ∧
      r.outcome = some artifacts.outcome ∧
      report = verifyReceipt env.sha256Hex receipt artifacts := by
  rw [verifyRecord] at h
  split at h
  · rename_i receipt proposal approval execution outcome hreceipt hproposal happroval hexecution
      houtcome
    obtain ⟨input, -, h⟩ := bind_eq_ok.mp h
    cases h
    exact ⟨receipt, ⟨input, proposal, approval, execution, outcome⟩, hreceipt, hproposal,
      happroval, hexecution, houtcome, rfl⟩
  · cases h

theorem confirmed_event (event : CaseEvent) (h : event.target = .verifiedSuccess) :
    event = .outcomeConfirmed := by
  cases event <;> first | rfl | cases h

/-- With atomic updates, a record with a receipt is the one the receipt was built from. -/
theorem receipted_of_stored {h : AgentHistory} {w : World} (hl : AgentLawful env h w) {t : Nat}
    {r : CaseRecord} (hatomic : AtomicUpdates r.caseId h) (hst : Stored h t r)
    {receipt : ClawbackReceipt} (hreceipt : r.receipt = some receipt) :
    ∃ deps current, SameCore current r ∧ Receipted env deps r.caseId current r receipt := by
  have hstate : r.state = .verifiedSuccess := by
    by_contra hother
    rw [(consistent_of_stored hl hst).receipt.mpr hother] at hreceipt
    cases hreceipt
  rcases hst with hcreated | hsaved
  · obtain ⟨h₁, h₂, rfl⟩ := List.append_of_mem hcreated
    obtain ⟨k, _, _, _, -, -, hallowed, -, -⟩ := hl.split rfl
    cases hallowed
    cases hstate
  · obtain ⟨h₁, h₂, rfl⟩ := List.append_of_mem hsaved
    obtain ⟨k, _, _, _, hl₁, hk, hallowed, -, -⟩ := hl.split rfl
    obtain ⟨event, patch, r₀, hs⟩ := savedFrom_of_saves hl₁ hk hallowed
    obtain rfl := confirmed_event event (hs.moved.target.symm.trans hstate)
    obtain ⟨u, hst₀⟩ := hs.stored
    have hid := hs.sameCore.caseId
    have hstate₀ := confirm_source _ hs.moved.source
    obtain ⟨g₁, g₂, heq, -, hchanges⟩ := hs.read
    obtain ⟨next, updatedAt, -, rfl⟩ := hs.moved
    cases hchanges with
    | advance _ _ hevent => exact absurd hevent (by decide)
    | @outcome _ _ _ _ _ _ _ _ _ outcome _ hevent _ =>
      exact absurd (outcomeEvent_mem outcome) (hevent ▸ by decide)
    | @confirm deps _ _ _ _ _ _ current afterOutcome _ hchecked hafter hafterState hreceipted =>
      cases hreceipt
      have hown : own t g₁ ⊆ own t h₁ := by
        rw [heq, own_append]
        exact List.subset_append_left _ _
      have hafter' := mem_own.mp (hown hafter)
      have hafterId := caseId_of_decides hl₁ hk rfl hafter'
      obtain ⟨⟨v, hcurrent⟩, hcurrentId⟩ := stored_of_get hl₁ (mem_own.mp (hown hchecked.1))
      -- in `OUTCOME_PENDING` there is one record of the case
      obtain ⟨-, rfl⟩ := stored_once hl₁ hatomic.of_append hst₀ (.inr hafter') rfl hafterId
        (by rw [hstate₀, hafterState]; exact not_later_self _)
        (by rw [hstate₀, hafterState]; exact not_later_self _)
      exact ⟨deps, current, (sameCore_of_stored hl₁ hcurrent hst₀ hcurrentId).trans hs.sameCore,
        hreceipted⟩

/-- A record with a receipt verifies. -/
theorem verifyRecord_of_stored {h : AgentHistory} {w : World} (hl : AgentLawful env h w) {t : Nat}
    {r : CaseRecord} (hatomic : AtomicUpdates r.caseId h) (hst : Stored h t r)
    (hreceipt : r.receipt ≠ none) :
    ∃ report, verifyRecord env r.caseId r = .ok report ∧
      report.allCryptographicChecksPassed = true := by
  obtain ⟨receipt, hreceipt⟩ := Option.ne_none_iff_exists'.mp hreceipt
  obtain ⟨deps, current, hcore, input, built, receiptId, createdAt, anchor, hinput, hbuilt, heq⟩ :=
    receipted_of_stored hl hatomic hst hreceipt
  obtain ⟨hproposal, happroval, hexecution, houtcome, rfl⟩ := artifacts_of_receiptInput hbuilt
  have hdecrypted : decryptInput env r = .ok built.input := by
    rw [← hinput, decryptInput, decryptInput, hcore.encryptedInput]
  refine ⟨verifyReceipt env.sha256Hex receipt built.artifacts, ?_, passed_iff.mpr ⟨?_, ?_, ?_⟩⟩
  · rw [verifyRecord, hreceipt, hproposal, happroval, hexecution, houtcome]
    exact bind_eq_ok.mpr ⟨built.input, hdecrypted, rfl⟩
  · rw [heq]
    exact buildReceipt_commitments env.sha256Hex receiptId createdAt built
  · exact approvedAt_nonempty hl hst happroval
  · obtain ⟨proposal, approvedAt, -, happroved⟩ :=
      (consistent_of_stored hl hst).approved built.approval happroval
    have hcommitted : built.approval.actionCommitment = commit env.sha256Hex (toJson proposal) := by
      rw [happroved, approvalOf]
    change built.approval.actionCommitment ≠ []
    rw [hcommitted]
    exact commit_ne_nil _ _

/-! ## Nothing is written any more -/

/-- With atomic updates, a record in a terminal state is the current one. -/
theorem current_of_terminal {h : AgentHistory} {w : World} (hl : AgentLawful env h w) {t : Nat}
    {r : CaseRecord} (hatomic : AtomicUpdates r.caseId h) (hst : Stored h t r)
    (hterminal : isTerminal r.state = true) : current r.caseId h = some r := by
  have hmem : (t, r) ∈ (caseRegister r.caseId).writes h := mem_writes_iff.mpr ⟨hst, rfl⟩
  have hpair := later_of_atomic hl hatomic
  rw [current, Register.current]
  rcases List.eq_nil_or_concat' ((caseRegister r.caseId).writes h) with hnil | ⟨before, last, heq⟩
  · rw [hnil] at hmem
    cases hmem
  · rw [heq, Register.latest_concat]
    rw [heq] at hmem hpair
    rcases List.mem_append.mp hmem with hold | hlast
    · have hlater := (List.pairwise_append.mp hpair).2.2 _ hold last (List.mem_singleton_self _)
      exact absurd hlater (not_later_of_terminal hterminal)
    · rw [← List.mem_singleton.mp hlast]

/-- After `p`, in which the case has been finalized with the record `r`, nothing has written
its record. -/
structure Unwritten (env : Platform) (r : CaseRecord)
    (p q : Pool Call Effect Effect.Answer JsError World CallResult) (since : AgentHistory) :
    Prop where
  after : System.After p q since
  sound : System.Sound (agent env) (Allowed env) Post World.empty q
  unwritten : (caseRegister r.caseId).writes since = []

theorem Unwritten.current {r : CaseRecord}
    {p q : Pool Call Effect Effect.Answer JsError World CallResult} {since : AgentHistory}
    (h : Unwritten env r p q since) (hcur : current r.caseId p.history = some r) :
    current r.caseId q.history = some r := by
  rw [Clawback.current, Register.current, h.after.history, Register.writes_append, h.unwritten,
    List.append_nil]
  exact hcur

/-- A later call does not write the record of a case in a terminal state. -/
theorem Unwritten.not_writes {r : CaseRecord}
    {p q : Pool Call Effect Effect.Answer JsError World CallResult} {since : AgentHistory}
    (h : Unwritten env r p q since)
    (hp : System.Sound (agent env) (Allowed env) Post World.empty p)
    (hcur : Clawback.current r.caseId p.history = some r) (hterminal : isTerminal r.state = true)
    {t : Nat} (ht : p.threads.length ≤ t) {w : World}
    {a : Entry Effect Effect.Answer JsError} (hl : AgentLawful env (q.history ++ [.did t a]) w) :
    (caseRegister r.caseId).write a = none := by
  cases hwrite : (caseRegister r.caseId).write a with
  | none => rfl
  | some r' =>
    exfalso
    obtain ⟨hid, rfl | rfl⟩ := write_cases hwrite
    · obtain ⟨k, _, _, _, hl₁, -, hallowed, -, -⟩ := hl.split rfl
      obtain ⟨⟨u, hst⟩, -⟩ := stored_of_current (h.current hcur)
      exact not_stored_of_creates hl₁ hallowed hst hid.symm
    · obtain ⟨k, _, _, _, hl₁, hk, hallowed, -, -⟩ := hl.split rfl
      obtain ⟨event, patch, r₀, hs⟩ := savedFrom_of_saves hl₁ hk hallowed
      obtain ⟨h₁, h₂, heq, hread, -⟩ := hs.read
      obtain ⟨next, updatedAt, hnext, rfl⟩ := hs.moved
      have hid₀ : r₀.caseId = r.caseId := hs.sameCore.caseId.symm.trans hid
      rw [hid₀] at heq hread
      -- the call is a later one, so it has read the record after `p`
      have hsince : ∃ since₁ since₂, since = since₁ ++ since₂ ∧ h₁ = p.history ++ since₁ := by
        rw [h.after.history] at heq
        rcases List.append_eq_append_iff.mp heq with ⟨m, hm, hrest⟩ | ⟨m, hm, hrest⟩
        · exact ⟨m, _, hrest, hm⟩
        · cases m with
          | nil => exact ⟨[], since, rfl, by rw [hm, List.append_nil, List.append_nil]⟩
          | cons ev m =>
            obtain ⟨rfl, -⟩ := List.cons.inj hrest
            have hlt := hp.numbered (.did t ⟨.get r.caseId, .ok r₀⟩) (by rw [hm]; simp)
            exact absurd ht (Nat.not_le_of_lt hlt)
      obtain ⟨since₁, since₂, rfl, rfl⟩ := hsince
      have hunwritten := h.unwritten
      rw [Register.writes_append, List.append_eq_nil_iff] at hunwritten
      rw [Clawback.current, Register.current, Register.writes_append, hunwritten.1,
        List.append_nil] at hread
      obtain rfl := Option.some.inj (hcur.symm.trans hread)
      exact applyTransition_terminal hterminal hnext

/-- The record of a finalized case stays as it is, whatever later calls do. -/
theorem unwritten_after {r : CaseRecord}
    {p : Pool Call Effect Effect.Answer JsError World CallResult}
    (hp : System.Sound (agent env) (Allowed env) Post World.empty p) (hidle : p.idle = true)
    (hcur : current r.caseId p.history = some r) (hterminal : isTerminal r.state = true)
    {moves : List (Move Call Choice)}
    {q : Pool Call Effect Effect.Answer JsError World CallResult}
    (hrun : (agent env).run p moves = some q) : ∃ since, Unwritten env r p q since := by
  refine System.run_induction (I := fun q => ∃ since, Unwritten env r p q since) ?_
    ⟨[], System.after_refl p, hp, rfl⟩ hrun
  rintro q m q' ⟨since, hq⟩ happly
  obtain ⟨ev, hafter, hhistory⟩ := hq.after.apply hidle happly
  have hsound := System.sound_apply start_obeys hq.sound happly
  refine ⟨since ++ [ev], hafter, hsound, ?_⟩
  rw [Register.writes_append, hq.unwritten, List.nil_append]
  cases ev with
  | called t k => rfl
  | did t a =>
    have hl := hsound.lawful
    rw [hhistory] at hl
    exact Register.writes_did_none
      (hq.not_writes hp hcur hterminal (hafter.later t a (by simp)) hl)

/-! ## Every finalized case -/

/-- A call to verify the current record of a case. -/
theorem run_verifyCaseReceipt {q : Pool Call Effect Effect.Answer JsError World CallResult}
    {r : CaseRecord} {report : VerificationReport} (hstore : q.world.store r.caseId = some r)
    (hreport : verifyRecord env r.caseId r = .ok report) :
    ∃ q', (agent env).run q
        [.call (.verifyCaseReceipt r.caseId r.ownerId), .step q.threads.length .ok] = some q' ∧
      q'.result? q.threads.length = some (.ok (.report report)) := by
  have hstart : ∃ next, (agent env).start (.verifyCaseReceipt r.caseId r.ownerId) =
      .await (.get r.caseId) next ∧ next (.ok r) = .pure (.report report) := by
    refine ⟨_, rfl, ?_⟩
    change Prog.bind (Prog.bind (if r.ownerId ≠ r.ownerId then _ else _) _) _ = _
    rw [if_neg (not_not.mpr rfl)]
    change Prog.bind (Prog.lift (verifyRecord env r.caseId r)) _ = _
    rw [hreport]
    rfl
  obtain ⟨next, hawait, hnext⟩ := hstart
  have hexec : (agent env).exec (.get r.caseId) .ok q.world = some (.ok r, q.world) := by
    simp only [agent, exec, succeed, hstore]
  refine ⟨_, System.run_call_step hawait hexec, ?_⟩
  rw [Pool.result?, List.getElem?_append_right (Nat.le_refl _), Nat.sub_self, hnext]
  rfl

/-- **Every finalized case verifies, forever.** When calls have run one after another and a
record with a receipt has been stored, then after any further interleaving of calls, the
record being serialised and read back among them, its owner's call to verify it reports that
all cryptographic checks have passed. -/
theorem finalized_verifies {env : Platform} {moves moves' : List (Move Call Choice)}
    {p q : Pool Call Effect Effect.Answer JsError World CallResult}
    (hrun : (agent env).runInTurn (Pool.init World.empty) moves = some p) (hidle : p.idle = true)
    {t : Nat} {r : CaseRecord} (hst : Stored p.history t r) (hreceipt : r.receipt ≠ none)
    (hlater : (agent env).run p moves' = some q) :
    ∃ q' report, (agent env).run q
        [.call (.verifyCaseReceipt r.caseId r.ownerId), .step q.threads.length .ok] = some q' ∧
      q'.result? q.threads.length = some (.ok (.report report)) ∧
      report.allCryptographicChecksPassed = true := by
  have hsound := System.run_lawful start_obeys (System.run_of_runInTurn hrun)
  have hl := hsound.lawful
  have hatomic := atomicUpdates_of_inTurn hl (System.runInTurn_inTurn hrun) r.caseId
  have hterminal : isTerminal r.state = true := by
    have hstate := not_imp_comm.mp (consistent_of_stored hl hst).receipt.mpr hreceipt
    rw [hstate]
    rfl
  have hcur := current_of_terminal hl hatomic hst hterminal
  obtain ⟨since, hq⟩ := unwritten_after hsound hidle hcur hterminal hlater
  obtain ⟨report, hreport, hpassed⟩ := verifyRecord_of_stored hl hatomic hst hreceipt
  have hstore := (store_eq_current hq.sound.lawful r.caseId).trans (hq.current hcur)
  obtain ⟨q', hcall, hresult⟩ := run_verifyCaseReceipt hstore hreport
  exact ⟨q', report, hcall, hresult, hpassed⟩

/-- The sample case verifies after its record has been serialised and read back. -/
theorem finalized_verifies_sample :
    ∃ (p q q' : Pool Call Effect Effect.Answer JsError World CallResult) (r : CaseRecord)
        (report : VerificationReport),
      (agent samplePlatform).runInTurn (Pool.init World.empty) sampleMoves = some p ∧
      (agent samplePlatform).run p
        [.call (.reload r.caseId), .step p.threads.length .ok] = some q ∧
      (agent samplePlatform).run q
        [.call (.verifyCaseReceipt r.caseId r.ownerId), .step q.threads.length .ok] = some q' ∧
      q'.result? q.threads.length = some (.ok (.report report)) ∧
      report.allCryptographicChecksPassed = true := by
  obtain ⟨p, hrun, hidle, -, t, r, hst, hreceipt⟩ := sampleMoves_run
  obtain ⟨q, hreload⟩ : ∃ q, (agent samplePlatform).run p
      [.call (.reload r.caseId), .step p.threads.length .ok] = some q :=
    ⟨_, System.run_call_step rfl rfl⟩
  obtain ⟨q', report, hverify⟩ := finalized_verifies hrun hidle hst hreceipt hreload
  exact ⟨p, q, q', r, report, hrun, hreload, hverify⟩

end Clawback
