import Clawback.Agent.Network
import Clawback.Agent.Runs

/-!
# The evidence that receipts cite

A receipt names the root hash of its upload and the transaction that has anchored it. Both stand
in the call that has stored the receipt, in whatever way calls and third parties interleave.

* `Citing`: a record is saved with the receipt it was read with, or with one whose evidence the
  call itself has got.
* `allBacked_of_lawful`: so every receipt that is ever stored is backed by the network.
* `receipts_backed`: and it stays so, whatever happens later.
-/

namespace Clawback

open Js Async

variable {env : Platform}

/-! ## What a call cites -/

/-- The call has got the evidence that a receipt of the case cites. -/
structure Cites (env : Platform) (tr : CallTrace) (caseId : Str) (v : ClawbackReceipt) : Prop where
  stored : ∀ root, v.anchor.storageRootHash = some root → ∃ receipt stored anchor,
    ⟨.uploadJson receipt, .ok stored⟩ ∈ tr ∧ stored.rootHash = root ∧ v = { receipt with anchor }
  anchored : ∀ txHash, v.anchor.chainTxHash = some txHash → ∃ result,
    ⟨.anchorReceipt (commit env.sha256Hex (.str caseId)) v.commitments.receiptCommitment none,
      .ok result⟩ ∈ tr ∧ result.txHash = txHash

/-- The rule for receipts. -/
def Citing (env : Platform) (tr : CallTrace) : Effect → Prop
  | .create r => r.receipt = none
  | .save r' => ∃ c r, ⟨.get c, .ok r⟩ ∈ tr ∧ r'.caseId = r.caseId ∧
    (r'.receipt = r.receipt ∨ ∃ v, r'.receipt = some v ∧ Cites env tr c v)
  | _ => True

section Rules

variable {tr : CallTrace} {α β : Type} {caseId : Str} {receipt : ClawbackReceipt}

theorem Cites.mono {tr' : CallTrace} (h : Cites env tr caseId receipt) (hmem : ∀ a ∈ tr, a ∈ tr') :
    Cites env tr' caseId receipt := by
  refine ⟨fun root hroot => ?_, fun txHash htx => ?_⟩
  · obtain ⟨uploaded, stored, anchor, hupload, hsame⟩ := h.stored root hroot
    exact ⟨uploaded, stored, anchor, hmem _ hupload, hsame⟩
  · obtain ⟨result, hanchor, hsame⟩ := h.anchored txHash htx
    exact ⟨result, hmem _ hanchor, hsame⟩

theorem cites_buildReceipt {receiptId createdAt : Str} {built : BuildReceiptInput}
    (h : built.anchor = none) :
    Cites env tr caseId (buildReceipt env.sha256Hex receiptId createdAt built) := by
  have hstorage : (buildReceipt env.sha256Hex receiptId createdAt built).anchor.storageRootHash =
      none := congrArg (fun anchor : Option ReceiptAnchor => anchor.bind (·.storageRootHash)) h
  have hchain : (buildReceipt env.sha256Hex receiptId createdAt built).anchor.chainTxHash = none :=
    congrArg (fun anchor : Option ReceiptAnchor => anchor.bind (·.chainTxHash)) h
  refine ⟨fun root hroot => ?_, fun txHash htx => ?_⟩
  · rw [hstorage] at hroot
    cases hroot
  · rw [hchain] at htx
    cases htx

theorem citing_of_quiet {tr : CallTrace} {e : Effect} (h : e.isQuiet = true) : Citing env tr e := by
  cases e <;> trivial

/-- A program that obeys the rule for receipts, whatever it returns. -/
abbrev Cited (env : Platform) (p : Action α) (tr : CallTrace) : Prop :=
  Obeys (Citing env) (fun _ _ => True) p tr

theorem cited_quiet_bind {S : α → Prop} {p : Action α} {f : α → Action β} (hp : Quietly S p)
    (hnext : ∀ a since, S a → Cited env (f a) (tr ++ since)) : Cited env (p >>= f) tr :=
  hp.obeys_bind (fun _ _ => citing_of_quiet) (fun a since hS _ => hnext a since hS)
    fun _ _ => trivial

theorem cited_lift_bind {r : Except JsError α} {f : α → Action β}
    (hnext : ∀ a, r = .ok a → Cited env (f a) tr) : Cited env (Prog.lift r >>= f) tr :=
  Obeys.lift_bind hnext fun _ => trivial

theorem cited_getForOwner_bind {ownerId : Str} {f : CaseRecord → Action β}
    (hnext : ∀ r, Cited env (f r) (tr ++ [⟨.get caseId, .ok r⟩])) :
    Cited env (getForOwner caseId ownerId >>= f) tr :=
  Obeys.bind (obeys_getForOwner trivial (fun r _ => hnext r) fun _ _ => trivial)

/-- A transition whose patch keeps the receipt, or sets one that the call can cite. -/
theorem cited_transition_bind {event : CaseEvent} {patch : CaseRecord → Action CasePatch}
    {f : CaseRecord → Action β}
    (hpatch : ∀ r, Quietly (fun changes => changes.caseId = none ∧
      (changes.receipt = none ∨ ∃ v, changes.receipt = some (some v) ∧ Cites env tr caseId v))
      (patch r))
    (hnext : ∀ r' since, Cited env (f r') (tr ++ since)) :
    Cited env (transition caseId event patch >>= f) tr := by
  refine Obeys.bind (obeys_transition (fun _ _ _ _ => citing_of_quiet) trivial hpatch ?_ ?_
    fun _ _ _ => trivial)
  · rintro r _ changes _ ⟨since, rfl, -⟩ ⟨hid, hreceipt⟩ ⟨next, updatedAt, -, rfl⟩
    refine ⟨caseId, r, by simp, ?_, ?_⟩
    · unfold CaseRecord.patched
      rw [hid]
      rfl
    · rcases hreceipt with hnone | ⟨v, hsome, hcites⟩
      · refine .inl ?_
        unfold CaseRecord.patched
        rw [hnone]
        rfl
      · refine .inr ⟨v, ?_, hcites.mono fun a ha => List.mem_append_left _ ha⟩
        unfold CaseRecord.patched
        rw [hsome]
        rfl
  · rintro r r' changes _ ⟨since, rfl, -⟩ _ _
    rw [List.append_assoc]
    exact hnext r' _

/-- A transition whose patch keeps the receipt. -/
theorem cited_pure_bind {event : CaseEvent} {g : CaseRecord → CasePatch} {f : CaseRecord → Action β}
    (hg : ∀ r, (g r).caseId = none ∧ (g r).receipt = none)
    (hnext : ∀ r' since, Cited env (f r') (tr ++ since)) :
    Cited env (transition caseId event (purePatch g) >>= f) tr :=
  cited_transition_bind (fun r => Only.ret ⟨(hg r).1, .inl (hg r).2⟩) hnext

theorem cited_get {f : CaseRecord → β} :
    Cited env (Prog.perform (Effect.get caseId) >>= fun r => pure (f r)) tr := by
  refine Obeys.bind (Obeys.perform trivial fun r => ?_)
  cases r <;> exact trivial

/-! ## The calls -/

theorem submitCase_cited (deps : OrchestratorDeps) (ownerId : Str)
    (input : SubscriptionCaseInput) : Cited env (submitCase env deps ownerId input) [] := by
  unfold submitCase
  refine cited_quiet_bind (newId_quietly _) fun caseId _ _ => ?_
  refine cited_quiet_bind now_quietly fun startedAt _ _ => ?_
  refine cited_quiet_bind (encryptText_quietly _) fun encryptedInput _ _ => ?_
  refine Obeys.bind (Obeys.perform rfl fun created => ?_)
  cases created with
  | error x => exact trivial
  | ok _ =>
    refine cited_pure_bind (fun _ => ⟨rfl, rfl⟩) fun _ _ => ?_
    refine cited_pure_bind (fun _ => ⟨rfl, rfl⟩) fun _ _ => ?_
    refine cited_quiet_bind (analyze_quietly _ _) fun analysis _ _ => ?_
    refine cited_quiet_bind (newId_quietly _) fun proposalId _ _ => ?_
    refine cited_quiet_bind now_quietly fun createdAt _ _ => ?_
    refine cited_transition_bind (fun r => ?_) fun _ _ => ?_
    · refine Only.bind (encryptText_quietly _) fun message _ => ?_
      refine Only.bind (newId_quietly _) fun executionId _ => ?_
      exact Only.bind now_quietly fun completedAt _ => Only.ret ⟨rfl, .inl rfl⟩
    · exact cited_pure_bind (fun _ => ⟨rfl, rfl⟩) fun _ _ => cited_get

theorem rejectProposal_cited (caseId ownerId : Str) :
    Cited env (rejectProposal caseId ownerId) [] := by
  refine cited_getForOwner_bind fun _ => ?_
  exact cited_pure_bind (fun _ => ⟨rfl, rfl⟩) fun _ _ => trivial

/-- The upload that a receipt cites is the one of the call. -/
theorem storeReceipt_cites (deps : OrchestratorDeps) (h : Cites env tr caseId receipt) :
    Obeys (Citing env) (fun r tr' => ∀ v, r = .ok v → Cites env tr' caseId v)
      (storeReceipt deps receipt) tr := by
  unfold storeReceipt
  by_cases hclient : deps.hasStorageClient = true
  · rw [if_pos hclient]
    refine Obeys.bind (Obeys.attempt (Obeys.perform trivial fun r => ?_))
    have hbefore := h.mono fun a ha => List.mem_append_left
      [(⟨.uploadJson receipt, r⟩ : Entry Effect Effect.Answer JsError)] ha
    cases r with
    | error x =>
      rintro v ⟨⟩
      exact hbefore
    | ok stored =>
      rintro v ⟨⟩
      refine ⟨?_, hbefore.anchored⟩
      rintro root ⟨⟩
      exact ⟨receipt, stored, _, List.mem_append_right _ (List.mem_singleton_self _), rfl, rfl⟩
  · rw [if_neg hclient]
    rintro v ⟨⟩
    exact h

/-- The transaction that a receipt cites is the one of the call. -/
theorem anchorReceipt_cites (deps : OrchestratorDeps) (h : Cites env tr caseId receipt) :
    Obeys (Citing env) (fun r tr' => ∀ v, r = .ok v → Cites env tr' caseId v)
      (anchorReceipt env deps caseId receipt) tr := by
  unfold anchorReceipt
  by_cases hclient : deps.hasAnchorClient = true
  · rw [if_pos hclient]
    refine Obeys.bind (Obeys.attempt (Obeys.perform trivial fun r => ?_))
    have hbefore := h.mono fun a ha => List.mem_append_left
      [(⟨.anchorReceipt (commit env.sha256Hex (.str caseId)) receipt.commitments.receiptCommitment
        none, r⟩ : Entry Effect Effect.Answer JsError)] ha
    cases r with
    | error x =>
      rintro v ⟨⟩
      exact hbefore
    | ok result =>
      rintro v ⟨⟩
      refine ⟨fun root hroot => ?_, ?_⟩
      · obtain ⟨uploaded, stored, anchor, hupload, hsame, hreceipt⟩ := hbefore.stored root hroot
        refine ⟨uploaded, stored, { receipt.anchor with chainTxHash := some result.txHash }, hupload,
          hsame, ?_⟩
        rw [hreceipt]
      · rintro txHash ⟨⟩
        exact ⟨result, List.mem_append_right _ (List.mem_singleton_self _), rfl⟩
  · rw [if_neg hclient]
    rintro v ⟨⟩
    exact h

theorem anchor_of_receiptInput {deps : OrchestratorDeps} {input : SubscriptionCaseInput}
    {r : CaseRecord} {built : BuildReceiptInput} (h : receiptInput deps caseId input r = .ok built) :
    built.anchor = none := by
  obtain ⟨proposal, -, h⟩ := bind_eq_ok.mp h
  obtain ⟨approval, -, h⟩ := bind_eq_ok.mp h
  obtain ⟨execution, -, h⟩ := bind_eq_ok.mp h
  obtain ⟨outcome, -, h⟩ := bind_eq_ok.mp h
  cases h
  rfl

theorem sendForOutcome_cited {input : SubscriptionCaseInput} {message : Str} :
    Cited env (sendForOutcome caseId input message) tr := by
  refine Obeys.bind (Obeys.perform trivial fun result => ?_)
  cases result with
  | error x => exact trivial
  | ok result => exact cited_quiet_bind now_quietly fun _ _ _ => trivial

theorem finalize_cited {deps : OrchestratorDeps} {input : SubscriptionCaseInput}
    {outcome : OutcomeEvidence} {afterOutcome : CaseRecord} :
    Cited env (finalize env deps caseId input outcome afterOutcome) tr := by
  refine cited_lift_bind fun built hbuilt => ?_
  refine cited_quiet_bind (newId_quietly _) fun receiptId _ _ => ?_
  refine cited_quiet_bind now_quietly fun createdAt _ _ => ?_
  refine cited_lift_bind fun _ _ => ?_
  have hcites : ∀ tr : CallTrace,
      Cites env tr caseId (buildReceipt env.sha256Hex receiptId createdAt built) :=
    fun _ => cites_buildReceipt (anchor_of_receiptInput hbuilt)
  refine Obeys.bind_of (storeReceipt_cites deps (hcites _)) (fun stored _ hstored => ?_)
    fun _ _ => trivial
  refine Obeys.bind_of (anchorReceipt_cites deps hstored) (fun anchored _ hanchored => ?_)
    fun _ _ => trivial
  refine cited_quiet_bind (settle_quietly _ _) fun _ _ _ => ?_
  refine cited_transition_bind (fun r => Only.ret ⟨rfl, .inr ⟨anchored, rfl, ?_⟩⟩) fun _ _ => trivial
  exact hanchored.mono fun a ha => List.mem_append_left _ ha

theorem approveAndExecute_cited (deps : OrchestratorDeps) (caseId ownerId proposalId : Str) :
    Cited env (approveAndExecute env deps caseId ownerId proposalId) [] := by
  refine cited_getForOwner_bind fun current => ?_
  refine cited_lift_bind fun proposal _ => ?_
  refine cited_quiet_bind now_quietly fun approvedAt _ _ => ?_
  refine cited_pure_bind (fun _ => ⟨rfl, rfl⟩) fun _ _ => ?_
  refine cited_pure_bind (fun _ => ⟨rfl, rfl⟩) fun _ _ => ?_
  refine cited_lift_bind fun input _ => ?_
  refine Obeys.bind (Obeys.attempt (sendForOutcome_cited.mono fun result _ _ => ?_))
  cases result with
  | error error => exact cited_pure_bind (fun _ => ⟨rfl, rfl⟩) fun _ _ => cited_get
  | ok outcome =>
    refine cited_pure_bind (fun _ => ⟨rfl, rfl⟩) fun afterOutcome _ => ?_
    by_cases hresponse : outcome.outcomeType = .noResponse
    · rw [if_pos hresponse]
      exact trivial
    · rw [if_neg hresponse]
      exact finalize_cited

/-- Every call obeys the rule for receipts. -/
theorem start_cited (k : Call) : Cited env (start env k) [] := by
  cases k with
  | submitCase deps ownerId input => exact Obeys.wrap (submitCase_cited deps ownerId input)
  | rejectProposal caseId ownerId => exact Obeys.wrap (rejectProposal_cited caseId ownerId)
  | approveAndExecute deps caseId ownerId proposalId =>
    exact Obeys.wrap (approveAndExecute_cited deps caseId ownerId proposalId)
  | getCase caseId ownerId => exact Obeys.wrap (cited_getForOwner_bind fun _ => trivial)
  | verifyCaseReceipt caseId ownerId =>
    exact Obeys.wrap (cited_getForOwner_bind fun _ => Obeys.lift trivial)
  | reload caseId => exact Obeys.bind (Obeys.perform trivial fun r => by cases r <;> trivial)

end Rules

/-! ## What the network has -/

/-- The network has what the receipt of the case cites. -/
structure Backed (env : Platform) (n : Network) (caseId : Str) (v : ClawbackReceipt) : Prop where
  anchored : v.anchor.chainTxHash ≠ none →
    n.Anchored (commit env.sha256Hex (.str caseId)) v.commitments.receiptCommitment
  stored : ∀ root, v.anchor.storageRootHash = some root →
    ∃ (receipt : ClawbackReceipt) (anchor : ReceiptAnchor),
      n.storage root = some (Json.stringify (toJson receipt : Json Int)) ∧
        v = { receipt with anchor }

/-- The network has what the record cites. -/
def BackedRecord (env : Platform) (n : Network) (r : CaseRecord) : Prop :=
  ∀ v, r.receipt = some v → Backed env n r.caseId v

/-- The network has what the effect has published, or what the record cites that it has read or
written. -/
def BackedEntry (env : Platform) (n : Network) : Entry Effect Effect.Answer JsError → Prop
  | ⟨.uploadJson receipt, .ok stored⟩ =>
    n.storage stored.rootHash = some (Json.stringify (toJson receipt : Json Int))
  | ⟨.anchorReceipt caseId receiptCommitment _, .ok _⟩ => n.Anchored caseId receiptCommitment
  | ⟨.get c, .ok r⟩ => r.caseId = c ∧ BackedRecord env n r
  | ⟨.create r, .ok _⟩ => BackedRecord env n r
  | ⟨.save r, .ok _⟩ => BackedRecord env n r
  | _ => True

section Network

variable {n n' : Network}

theorem Backed.mono {caseId : Str} {v : ClawbackReceipt} (h : Backed env n caseId v)
    (hkeeps : n.Keeps n') : Backed env n' caseId v := by
  refine ⟨fun htx => (h.anchored htx).mono hkeeps, fun root hroot => ?_⟩
  obtain ⟨receipt, anchor, hstored, hsame⟩ := h.stored root hroot
  exact ⟨receipt, anchor, hkeeps.storage _ _ hstored, hsame⟩

theorem BackedRecord.mono {r : CaseRecord} (h : BackedRecord env n r) (hkeeps : n.Keeps n') :
    BackedRecord env n' r := fun v hv => (h v hv).mono hkeeps

theorem BackedEntry.mono {a : Entry Effect Effect.Answer JsError} (h : BackedEntry env n a)
    (hkeeps : n.Keeps n') : BackedEntry env n' a := by
  obtain ⟨e, r⟩ := a
  cases r with
  | error x => cases e <;> trivial
  | ok answer =>
    cases e with
    | uploadJson receipt => exact hkeeps.storage _ _ h
    | anchorReceipt caseId receiptCommitment previous => exact Network.Anchored.mono h hkeeps
    | get c => exact ⟨h.1, h.2.mono hkeeps⟩
    | create r => exact BackedRecord.mono h hkeeps
    | save r => exact BackedRecord.mono h hkeeps
    | _ => trivial

/-- What a call cites is backed, when what it has done is. -/
theorem Cites.backed {tr : CallTrace} {caseId : Str} {v : ClawbackReceipt}
    (h : Cites env tr caseId v) (htr : ∀ a ∈ tr, BackedEntry env n a) : Backed env n caseId v := by
  refine ⟨fun htx => ?_, fun root hroot => ?_⟩
  · obtain ⟨txHash, htx⟩ := Option.ne_none_iff_exists'.mp htx
    obtain ⟨result, hanchor, -⟩ := h.anchored txHash htx
    exact htr _ hanchor
  · obtain ⟨receipt, stored, anchor, hupload, rfl, hsame⟩ := h.stored root hroot
    exact ⟨receipt, anchor, htr _ hupload, hsame⟩

end Network

/-- The network has everything that the calls and the records cite. -/
structure AllBacked (env : Platform) (h : AgentHistory) (w : World × Network) : Prop where
  entries : ∀ t a, .did t a ∈ h → BackedEntry env w.2 a
  records : ∀ c r, w.1.store c = some r → r.caseId = c ∧ BackedRecord env w.2 r

/-- What an effect has published is backed, and so is a record that it reads or writes. -/
theorem backedEntry_of_exec {h : AgentHistory} {t : Nat} {e : Effect} {c : NetworkChoice}
    {w w' : World × Network} {r : Except JsError e.Answer} (hall : AllBacked env h w)
    (hciting : Citing env (own t h) e) (hexec : execOnNetwork e c w = some (r, w')) :
    BackedEntry env w'.2 ⟨e, r⟩ := by
  obtain ⟨n, hn, hanswer, hpublish⟩ := execOnNetwork_spec hexec
  have hkeeps := execOnNetwork_keeps hexec
  cases r with
  | error x => cases e <;> trivial
  | ok answer =>
    cases e with
    | uploadJson receipt => exact (Network.upload_spec hpublish).2
    | anchorReceipt caseId receiptCommitment previous =>
      obtain ⟨call, hcall, hanchor⟩ := Option.bind_eq_some_iff.mp hpublish
      exact Network.anchored_of_anchor hcall hanchor
    | get c =>
      obtain ⟨hid, hbacked⟩ := hall.records c answer (answered_get (answered_of_exec hanswer))
      exact ⟨hid, hbacked.mono hkeeps⟩
    | create d =>
      have hnone : d.receipt = none := hciting
      intro v hv
      rw [hnone] at hv
      cases hv
    | save r' =>
      obtain ⟨c, r, hget, hid, hreceipt⟩ := hciting
      obtain ⟨hcase, hbacked⟩ := hall.entries t _ (mem_own.mp hget)
      intro v hv
      rw [hid]
      rcases hreceipt with hsame | ⟨v', hv', hcites⟩
      · exact (hbacked v (hsame.symm.trans hv)).mono hkeeps
      · obtain rfl := Option.some.inj (hv'.symm.trans hv)
        rw [hcase]
        exact (hcites.backed fun a ha => hall.entries t a (mem_own.mp ha)).mono hkeeps
    | _ => trivial

/-- Everything that is cited in a run is backed. -/
theorem allBacked_of_lawful {n₀ : Network} {h : AgentHistory} {w : World × Network}
    (hl : Lawful (onNetwork env) (fun _ => Citing env) (World.empty, n₀) h w) :
    AllBacked env h w := by
  induction hl with
  | nil => exact ⟨fun _ _ hmem => (List.not_mem_nil hmem).elim, fun _ _ hr => nomatch hr⟩
  | called hl _ ih =>
    refine ⟨fun t a hmem => ih.entries t a ?_, ih.records⟩
    rcases List.mem_append.mp hmem with hold | hnew
    · exact hold
    · cases List.mem_singleton.mp hnew
  | @did h w w' t k e c r hl _ hciting hexec ih =>
    have hkeeps : w.2.Keeps w'.2 := execOnNetwork_keeps hexec
    have hentry : BackedEntry env w'.2 ⟨e, r⟩ := backedEntry_of_exec ih hciting hexec
    refine ⟨fun u a hmem => ?_, fun c' r' hr' => ?_⟩
    · rcases List.mem_append.mp hmem with hold | hnew
      · exact (ih.entries u a hold).mono hkeeps
      · cases List.mem_singleton.mp hnew
        exact hentry
    · obtain ⟨n, -, hanswer, -⟩ := execOnNetwork_spec hexec
      rw [answered_store (answered_of_exec hanswer)] at hr'
      cases hwrite : (caseRegister c').write ⟨e, r⟩ with
      | none =>
        rw [hwrite, Option.none_or] at hr'
        obtain ⟨hid, hbacked⟩ := ih.records c' r' hr'
        exact ⟨hid, hbacked.mono hkeeps⟩
      | some written =>
        rw [hwrite, Option.some_or] at hr'
        obtain rfl := Option.some.inj hr'
        obtain ⟨hid, heq | heq⟩ := write_cases hwrite
        · rw [heq] at hentry
          exact ⟨hid, hentry⟩
        · rw [heq] at hentry
          exact ⟨hid, hentry⟩

/-- **Cited evidence.** In every interleaving of calls with each other and with what third parties
do, and whatever third parties do later: if a receipt that has been stored on a case names a
transaction, then the contract has anchored its commitment for the case; and if it names a root
hash, then the artifact stored there is the receipt, but for its anchor. -/
theorem receipts_backed {n₀ n : Network} {moves : List (Move Call NetworkChoice)}
    {p : Pool Call Effect Effect.Answer JsError (World × Network) CallResult}
    (hrun : (onNetwork env).run (Pool.init (World.empty, n₀)) moves = some p)
    {deeds : List Foreign} (hlater : p.world.2.applyAll deeds = some n) {t : Nat} {r : CaseRecord}
    (hst : Stored p.history t r) {v : ClawbackReceipt} (hv : r.receipt = some v) :
    (v.anchor.chainTxHash ≠ none → ∃ c e, bytes32 (commit env.sha256Hex (.str r.caseId)) = some c ∧
      bytes32 v.commitments.receiptCommitment = some e ∧
      (CaseAnchor.getAnchor n.anchors c).receiptCommitment = e) ∧
    ∀ root, v.anchor.storageRootHash = some root → ∃ (artifact : ClawbackReceipt) (content : Str)
      (anchor : ReceiptAnchor), n.storage root = some content ∧
        Codec.ofText (N := Int) content = some artifact ∧ v = { artifact with anchor } := by
  have hl := (System.run_lawful start_cited hrun).lawful
  have hall := allBacked_of_lawful hl
  have hrecord : BackedRecord env p.world.2 r := by
    rcases hst with hcreated | hsaved
    · exact hall.entries t _ hcreated
    · exact hall.entries t _ hsaved
  have hbacked := (hrecord v hv).mono (Network.keeps_of_applyAll hlater)
  refine ⟨fun htx => ?_, fun root hroot => ?_⟩
  · obtain ⟨c, e, hc, he, -, hcommitment⟩ := hbacked.anchored htx
    exact ⟨c, e, hc, he, hcommitment⟩
  · obtain ⟨receipt, anchor, hstored, hsame⟩ := hbacked.stored root hroot
    exact ⟨receipt, _, anchor, hstored, ofText_stringify receipt, hsame⟩

/-! ## A sample run -/

/-- The sandbox, with a storage client and an anchor client. -/
def publishingDeps : OrchestratorDeps :=
  { sampleDeps with hasStorageClient := true, hasAnchorClient := true }

/-- Somebody anchors another case. -/
def otherAnchor (receiptCommitment : Bytes32) : Foreign :=
  .anchor ⟨7, receiptCommitment, 0, 2, 1767225600⟩

/-- What is decided at an effect, after what third parties have done. -/
def sampleNetworkChoice (foreign : List Foreign) (choice : Choice) : NetworkChoice :=
  ⟨foreign, 1, 1767225600, choice⟩

/-- The sample case is submitted and approved, and its receipt is uploaded and anchored. -/
def publishingMoves : List (Move Call NetworkChoice) :=
  .call (.submitCase publishingDeps (js "user_1") sampleInput) ::
    sampleChoices.map (fun c => .step 0 (sampleNetworkChoice [] c)) ++
  .call (.approveAndExecute publishingDeps (js "case_1") (js "user_1") (js "proposal_2")) ::
    (sampleAnswers ++ [Choice.stored ⟨js "0x01", js "0x02"⟩]).map
      (fun c => .step 1 (sampleNetworkChoice [] c)) ++
    .step 1 (sampleNetworkChoice [otherAnchor 5] (.anchored ⟨js "0x03", some 5⟩)) ::
    [sampleTime, .ok, sampleTime, .ok].map (fun c => .step 1 (sampleNetworkChoice [] c))

/-- The receipt names an upload and a transaction. -/
def CaseRecord.isPublished (r : CaseRecord) : Bool :=
  r.receipt.any fun v => v.anchor.chainTxHash.isSome && v.anchor.storageRootHash.isSome

set_option maxRecDepth 10000 in
theorem receipts_backed_sample :
    ∃ p n t r v c e, (onNetwork samplePlatform).run
        (Pool.init (World.empty, ⟨CaseAnchor.deployed, fun _ => none⟩)) publishingMoves = some p ∧
      p.world.2.applyAll [otherAnchor 6] = some n ∧ Stored p.history t r ∧ r.receipt = some v ∧
      v.anchor.storageRootHash ≠ none ∧
      bytes32 (commit Sha256.hex (.str r.caseId)) = some c ∧
      bytes32 v.commitments.receiptCommitment = some e ∧
      (CaseAnchor.getAnchor n.anchors c).receiptCommitment = e := by
  have hany : (((onNetwork samplePlatform).run
      (Pool.init (World.empty, ⟨CaseAnchor.deployed, fun _ => none⟩)) publishingMoves).any fun p =>
        (p.world.2.applyAll [otherAnchor 6]).isSome &&
          ((caseRegister (js "case_1")).writes p.history).any fun tr => tr.2.isPublished) = true := by
    decide +kernel
  obtain ⟨p, hrun, hp⟩ := (Option.any_eq_true _ _).mp hany
  obtain ⟨hsome, hwrites⟩ := (Bool.and_eq_true _ _).mp hp
  obtain ⟨n, hn⟩ := Option.isSome_iff_exists.mp hsome
  obtain ⟨⟨t, r⟩, hmem, hpublished⟩ := List.any_eq_true.mp hwrites
  obtain ⟨v, hv, hcited⟩ := (Option.any_eq_true _ _).mp hpublished
  obtain ⟨htx, hroot⟩ := (Bool.and_eq_true _ _).mp hcited
  have hst := (mem_writes_iff.mp hmem).1
  obtain ⟨c, e, hc, he, hanchored⟩ :=
    (receipts_backed hrun hn hst hv).1 (Option.isSome_iff_ne_none.mp htx)
  exact ⟨p, n, t, r, v, c, e, hrun, hn, hst, hv, Option.isSome_iff_ne_none.mp hroot, hc, he,
    hanchored⟩

end Clawback
