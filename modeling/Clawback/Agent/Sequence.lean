import Clawback.Agent.Execution

/-!
# What the calls of a sequence do

A call of a sequence runs alone, in a world that the calls before it have left.

* `Sound`: the records in the store are consistent, and their ids have been drawn.
* `CallEnds`: how a call ends, whichever it is.
* `CallEnds.kept`: a case that does not await approval keeps its record.
* `sound_of_runCalls`: the world is sound after every sequence of calls.
-/

namespace Clawback

open Js Async

variable {env : Platform}

/-! ## Submissions -/

/-- What a submission leaves of everything else. -/
structure SubmitsOnly (w₀ : World) (r : CaseRecord) (l : Log) (w : World) : Prop where
  ledger : w.ledger = w₀.ledger
  drawn : w₀.drawn ⊆ w.drawn
  fresh : ∃ uuid, uuid ∉ w₀.drawn ∧ uuid ∈ w.drawn ∧ r.caseId = js "case" ++ js "_" ++ uuid
  others : ∀ c, c ≠ r.caseId → w.store c = w₀.store c
  free : ∀ a ∈ l, a.entry.effect.isFee = false

theorem store_put_of_ne {w : World} {r : CaseRecord} {c : Str} (h : c ≠ r.caseId) :
    (w.put r).store c = w.store c := if_neg h

section Submitting

variable {deps : OrchestratorDeps} {ownerId : Str} {input : SubscriptionCaseInput}
  {w₀ w w' : World} {r : CaseRecord} {l since : Log}

theorem isFee_of_analysis (h : ∀ a ∈ since, a.entry.effect.isAnalysis = true) :
    ∀ a ∈ since, a.entry.effect.isFee = false :=
  fun a ha => Effect.isFee_of_isAnalysis (h a ha)

theorem isFee_proposeLog (choices : ProposeChoices) (w : World) (r r' : CaseRecord) :
    ∀ a ∈ choices.log w r r', a.entry.effect.isFee = false := by
  intro a ha
  simp only [ProposeChoices.log, ProposeChoices.patchLog, List.cons_append, List.nil_append,
    List.mem_cons, List.not_mem_nil, or_false] at ha
  rcases ha with rfl | rfl | rfl | rfl | rfl | rfl | rfl | rfl <;> rfl

theorem Submitting.only (h : Submitting env deps ownerId input w₀ r l w) :
    SubmitsOnly w₀ r l w := by
  induction h with
  | @created uuid startedAt iv encryptedInput d hfresh _ hd =>
    subst hd
    refine ⟨rfl, fun _ hd => List.mem_cons_of_mem _ hd, ⟨uuid, hfresh, List.mem_cons_self, rfl⟩,
      fun c hc => store_put_of_ne hc, fun a ha => ?_⟩
    simp only [draftLog, List.cons_append, List.nil_append, List.mem_cons, List.not_mem_nil,
      or_false] at ha
    rcases ha with rfl | rfl | rfl | rfl <;> rfl
  | advanced _ _ _ ih =>
    refine ⟨ih.ledger, ih.drawn, ih.fresh, fun c hc => ?_, ?_⟩
    · exact (store_put_of_ne hc).trans (ih.others c hc)
    · exact List.forall_mem_append.mpr ⟨ih.free, isFee_moveLog _ _ _ _ _⟩
  | proposed _ _ hanalysed _ ih =>
    obtain ⟨uuid, hfresh, huuid, hid⟩ := ih.fresh
    refine ⟨ih.ledger, fun d hd => ?_, ⟨uuid, hfresh, ?_, hid⟩, fun c hc => ?_, ?_⟩
    · exact List.mem_cons_of_mem _ (List.mem_cons_of_mem _ (ih.drawn hd))
    · exact List.mem_cons_of_mem _ (List.mem_cons_of_mem _ huuid)
    · exact (store_put_of_ne hc).trans (ih.others c hc)
    · exact List.forall_mem_append.mpr ⟨List.forall_mem_append.mpr ⟨ih.free,
        isFee_of_analysis hanalysed.asks⟩, isFee_proposeLog _ _ _ _⟩

/-- A submission that has stored nothing, or the record that it has stored last. -/
theorem Submits.only {result : Except JsError CaseSummary}
    (h : Submits env deps ownerId input w₀ result l w) :
    (l.all harmless = true ∧ w.store = w₀.store ∧ w.ledger = w₀.ledger ∧ w₀.drawn ⊆ w.drawn) ∨
      ∃ r, SubmitsOnly w₀ r l w ∧ w.store r.caseId = some r := by
  cases h with
  | unstored hl => exact .inl ⟨hl, rfl, rfl, fun _ hd => List.mem_cons_of_mem _ hd⟩
  | @cut x l since w₁ _ r hsubmitting hsince hstore hledger hdrawn _ =>
    have honly := hsubmitting.only
    obtain ⟨uuid, hfresh, huuid, hid⟩ := honly.fresh
    refine .inr ⟨r, ⟨hledger.trans honly.ledger, fun _ hd => hdrawn (honly.drawn hd),
      ⟨uuid, hfresh, hdrawn huuid, hid⟩, fun c hc => ?_, ?_⟩, ?_⟩
    · rw [hstore]
      exact honly.others c hc
    · exact List.forall_mem_append.mpr ⟨honly.free, isFee_of_harmless hsince⟩
    · rw [hstore]
      exact hsubmitting.found
  | @awaiting _ l since _ r hsubmitting _ hsince =>
    have honly := hsubmitting.only
    exact .inr ⟨r, ⟨honly.ledger, honly.drawn, honly.fresh, honly.others,
      List.forall_mem_append.mpr ⟨honly.free, isFee_of_harmless hsince⟩⟩, hsubmitting.found⟩

end Submitting

/-! ## Approvals -/

section Executing

variable {deps : OrchestratorDeps} {c ownerId proposalId : Str} {w w' : World} {l : Log}

theorem Settles.drawn {outcome : OutcomeEvidence} {result : Except JsError Unit}
    (h : Settles c outcome w result l w') : w'.drawn = w.drawn := by
  cases h <;> rfl

/-- The part after the outcome leaves the pending record, or the final one. -/
theorem Finalizes.only {built : BuildReceiptInput} {pending : CaseRecord}
    {result : Except JsError CaseSummary} (h : Finalizes env deps built pending w result l w')
    (hfound : w.store pending.caseId = some pending) :
    ∃ r, r.caseId = pending.caseId ∧ w'.store = (w.put r).store ∧ w.drawn ⊆ w'.drawn := by
  have hpending : w.store = (w.put pending).store := by
    funext c
    by_cases hc : c = pending.caseId
    · rw [hc, hfound]
      exact (store_put w pending).symm
    · exact (store_put_of_ne hc).symm
  cases h with
  | unsettled _ _ hsettles =>
    refine ⟨pending, rfl, hsettles.store.trans hpending, ?_⟩
    rw [hsettles.drawn]
    exact fun _ hd => List.mem_cons_of_mem _ hd
  | unconfirmed _ _ hsettles _ =>
    refine ⟨pending, rfl, hsettles.store.trans hpending, ?_⟩
    rw [hsettles.drawn]
    exact fun _ hd => List.mem_cons_of_mem _ hd
  | @confirmed uuid _ _ _ _ _ _ final _ w₁ _ _ hsettles hfinal =>
    refine ⟨final, by rw [hfinal]; rfl, ?_, ?_⟩
    · funext c
      have hstore : w₁.store = w.store := hsettles.store
      unfold World.put
      rw [hstore]
    · have hdrawn : w₁.drawn = uuid :: w.drawn := hsettles.drawn
      intro d hd
      have hmem : d ∈ w₁.drawn := hdrawn ▸ List.mem_cons_of_mem _ hd
      exact hmem

theorem put_put {w : World} {r r' : CaseRecord} (h : r.caseId = r'.caseId) :
    (w.put r).put r' = w.put r' := by
  have hstore : ((w.put r).put r').store = (w.put r').store := by
    funext c
    by_cases hc : c = r'.caseId
    · rw [hc, store_put, store_put]
    · rw [store_put_of_ne hc, store_put_of_ne hc, store_put_of_ne (h ▸ hc)]
  exact congrArg (World.mk · w.ledger w.drawn) hstore

theorem executingWorld_put {x : Execution} {r : CaseRecord} (h : r.caseId = x.record.caseId) :
    (x.executingWorld env w).put r = w.put r := by
  unfold Execution.executingWorld Execution.approvedWorld
  rw [put_put (r := x.executing env) h.symm, put_put (r := x.approved env) h.symm]

/-- An approval stores nothing, or leaves a record of its case, which was awaiting approval. -/
theorem Executes.only {result : Except JsError CaseSummary}
    (h : Executes env deps c ownerId proposalId w result l w') :
    (l.all harmless = true ∧ w' = w) ∨ ∃ x r, Begins c ownerId proposalId w x ∧ r.caseId = c ∧
      w'.store = (w.put r).store ∧ w.drawn ⊆ w'.drawn := by
  have hexecuting : ∀ x : Execution, x.executingWorld env w = w.put (x.executing env) := by
    intro x
    unfold Execution.executingWorld Execution.approvedWorld
    exact put_put rfl
  cases h with
  | refused hl => exact .inl ⟨hl, rfl⟩
  | @unbegun x _ _ hx _ =>
    exact .inr ⟨x, x.approved env, hx, hx.caseId, rfl, fun _ hd => hd⟩
  | @undecrypted x _ hx _ | @unfailed x _ _ _ _ hx _ _ | @unrecorded x _ _ _ _ _ hx _ _ =>
    exact .inr ⟨x, x.executing env, hx, hx.caseId, by rw [hexecuting], fun _ hd => hd⟩
  | @failed x _ error updatedAt _ _ hx _ _ =>
    refine .inr ⟨x, x.failed env error.text updatedAt, hx, hx.caseId, ?_, fun _ hd => hd⟩
    rw [executingWorld_put (r := x.failed env error.text updatedAt) rfl]
  | @unanswered x _ _ _ _ _ r hx _ _ _ hr =>
    have hid : r.caseId = x.record.caseId := by rw [hr]; rfl
    refine .inr ⟨x, r, hx, hid.trans hx.caseId, ?_, fun _ hd => hd⟩
    rw [executingWorld_put hid]
  | @finalizing x _ _ _ _ _ r _ _ _ hx _ _ _ hr hfinalizes =>
    have hid : r.caseId = x.record.caseId := by rw [hr]; rfl
    obtain ⟨r', hid', hstore, hdrawn⟩ := hfinalizes.only (store_put _ _)
    refine .inr ⟨x, r', hx, (hid'.trans hid).trans hx.caseId, ?_, hdrawn⟩
    rw [hstore, put_put hid'.symm, executingWorld_put (hid'.trans hid)]

end Executing

/-! ## All calls -/

/-- The records in the store are consistent and stand under their own ids, which are made of
UUIDs that have been drawn. -/
structure Sound (env : Platform) (w : World) : Prop where
  stored : ∀ c r, w.store c = some r → Consistent env r ∧ r.caseId = c
  drawn : ∀ c r, w.store c = some r → ∃ uuid ∈ w.drawn, c = js "case" ++ js "_" ++ uuid

/-- How a call ends. -/
inductive CallEnds (env : Platform) (w : World) : Call → Log → World → Prop
  /-- The records and the ledger are as before. -/
  | quiet {k : Call} {l : Log} {w' : World} : l.all harmless = true → w'.store = w.store →
    w'.ledger = w.ledger → w.drawn ⊆ w'.drawn → CallEnds env w k l w'
  | submits {deps : OrchestratorDeps} {ownerId : Str} {input : SubscriptionCaseInput}
    {result : Except JsError CaseSummary} {l : Log} {w' : World} :
    Submits env deps ownerId input w result l w' →
    CallEnds env w (.submitCase deps ownerId input) l w'
  | rejects {c ownerId : Str} {r : CaseRecord} {l : Log} {updatedAt : Str} :
    w.store c = some r → r.caseId = c → r.state = .awaitingApproval → l.all harmless = true →
    CallEnds env w (.rejectProposal c ownerId)
      (l ++ moveLog w c r (r.patched {} .rejected updatedAt) updatedAt)
      (w.put (r.patched {} .rejected updatedAt))
  | executes {deps : OrchestratorDeps} {c ownerId proposalId : Str}
    {result : Except JsError CaseSummary} {l : Log} {w' : World} :
    Executes env deps c ownerId proposalId w result l w' →
    CallEnds env w (.approveAndExecute deps c ownerId proposalId) l w'

theorem ensures_reload {c : Str} {w : World} {G : Log → World → Effect → Prop}
    (hG : ∀ l w, G l w (.reload c)) : Ensures (agent env) G
      (fun _ l w' => l.all harmless = true ∧ w' = w) (start env (.reload c)) [] w := by
  refine Ensures.bind (Ensures.perform (hG _ _) fun ch r w' hexec => ?_)
  have hexec : exec (.reload c) ch w = some (r, w') := hexec
  have hsame : w' = w := by
    cases answered_of_exec hexec with
    | failed => rfl
    | reloaded =>
      have hstore : (fun c' => if c' = c then (w.store c).bind reloaded else w.store c') =
          w.store := by
        funext c'
        by_cases hc : c' = c
        · rw [if_pos hc, hc]
          cases hfound : w.store c with
          | none => rfl
          | some record => rw [Option.bind_some, reloaded_eq]
        · rw [if_neg hc]
      rw [hstore]
    | external hexternal => cases hexternal
  subst hsame
  cases r with
  | error x => exact ⟨rfl, rfl⟩
  | ok _ => exact ⟨rfl, rfl⟩

/-- A call that only reads the record of a case. -/
theorem ensures_look {K α β : Type} {sys : System K Effect Effect.Answer JsError World Choice α}
    (hsys : sys.exec = exec) {G : Log → World → Effect → Prop} {c ownerId : Str}
    (hG : ∀ l w, G l w (.get c)) {w : World} (f : CaseRecord → Except JsError β) :
    Ensures sys G (fun _ l w' => l.all harmless = true ∧ w' = w)
      (getForOwner c ownerId >>= fun record => Prog.lift (f record)) [] w := by
  refine Ensures.bind (ensures_getForOwner hsys (hG _ _) (fun _ => ⟨rfl, rfl⟩)
    (fun _ _ _ => ⟨rfl, rfl⟩) fun _ _ _ => Ensures.lift ⟨rfl, rfl⟩)

theorem rejecting {source next : CaseState} (h : applyTransition source .reject = .ok next) :
    source = .awaitingApproval ∧ next = .rejected := by
  cases source <;> cases h
  exact ⟨rfl, rfl⟩

theorem ensures_rejectProposal (env : Platform) {K α : Type}
    {sys : System K Effect Effect.Answer JsError World Choice α} (hsys : sys.exec = exec)
    {w₀ w : World} {c ownerId : Str} (hid : ∀ r, w.store c = some r → r.caseId = c) :
    Ensures sys (Owed w₀) (fun _ l w' => CallEnds env w (.rejectProposal c ownerId) l w')
      (rejectProposal c ownerId) [] w := by
  have hquiet : ∀ {l : Log}, l.all harmless = true →
      CallEnds env w (.rejectProposal c ownerId) l w :=
    fun hl => .quiet hl rfl rfl fun _ hd => hd
  refine Ensures.bind (ensures_getForOwner hsys trivial (fun _ => hquiet rfl)
    (fun _ _ _ => hquiet rfl) fun _ _ _ => ?_)
  refine Ensures.bind (ensures_transition_lift hsys (fun _ => .ok {})
    (fun l w e he => owed_of_isFee (Effect.isFee_eq_false he)) (fun x since hstopped => ?_) ?_)
  · refine hquiet (harmless_append rfl ?_)
    cases hstopped <;> rfl
  · intro r next changes updatedAt hfound hnext hchanges
    cases hchanges
    obtain ⟨hstate, rfl⟩ := rejecting hnext
    exact .rejects hfound (hid r hfound) hstate rfl

/-- **One call.** How a call ends that runs alone in a sound world; and it assesses a fee only when
one is due. -/
theorem ensures_start {w : World} (hw : Sound env w) (k : Call) :
    Ensures (agent env) (Owed w) (fun _ l w' => CallEnds env w k l w') (start env k) [] w := by
  have hlook : ∀ {k : Call} {l : Log} {w' : World}, l.all harmless = true ∧ w' = w →
      CallEnds env w k l w' := by
    rintro k l _ ⟨hl, rfl⟩
    exact .quiet hl rfl rfl fun _ hd => hd
  cases k with
  | submitCase deps ownerId input =>
    refine Ensures.bind ((ensures_submitCase rfl (fun _ _ _ he => owed_of_isFee he) deps ownerId
      input w).mono fun r l w' h => ?_)
    cases r <;> exact .submits h
  | rejectProposal c ownerId =>
    refine Ensures.bind ((ensures_rejectProposal env rfl fun r hr => (hw.stored c r hr).2).mono
      fun r l w' h => ?_)
    cases r <;> exact h
  | approveAndExecute deps c ownerId proposalId =>
    refine Ensures.bind ((ensures_approveAndExecute rfl deps c ownerId proposalId
      fun r hr => hw.stored c r hr).mono fun r l w' h => ?_)
    cases r <;> exact .executes h
  | getCase c ownerId =>
    refine Ensures.bind ((ensures_look rfl (fun _ _ => trivial)
      fun record => .ok (toSummary record)).mono fun r l w' h => ?_)
    cases r <;> exact hlook h
  | verifyCaseReceipt c ownerId =>
    refine Ensures.bind ((ensures_look rfl (fun _ _ => trivial) (verifyRecord env c)).mono
      fun r l w' h => ?_)
    cases r <;> exact hlook h
  | reload c => exact (ensures_reload fun _ _ => trivial).mono fun _ _ _ h => hlook h

/-! ## What a call leaves alone -/

namespace CallEnds

variable {w w' : World} {k : Call} {l : Log}

/-- A call stores records of one case at most, which is new or was awaiting approval. -/
theorem stores (h : CallEnds env w k l w') : w.drawn ⊆ w'.drawn ∧ (w'.store = w.store ∨
    ∃ r', w'.store = (w.put r').store ∧
      ((∃ uuid, uuid ∉ w.drawn ∧ uuid ∈ w'.drawn ∧ r'.caseId = js "case" ++ js "_" ++ uuid) ∨
        ∃ r, w.store r'.caseId = some r ∧ r.state = .awaitingApproval)) := by
  cases h with
  | quiet _ hstore _ hdrawn => exact ⟨hdrawn, .inl hstore⟩
  | submits hsubmits =>
    rcases hsubmits.only with ⟨-, hstore, -, hdrawn⟩ | ⟨r', honly, hfound⟩
    · exact ⟨hdrawn, .inl hstore⟩
    · refine ⟨honly.drawn, .inr ⟨r', ?_, .inl honly.fresh⟩⟩
      funext c
      by_cases hc : c = r'.caseId
      · rw [hc, hfound, store_put]
      · rw [store_put_of_ne hc, honly.others c hc]
  | @rejects c ownerId r l updatedAt hfound hid hstate _ =>
    refine ⟨fun _ hd => hd, .inr ⟨_, rfl, .inr ⟨r, ?_, hstate⟩⟩⟩
    rw [← hid] at hfound
    exact hfound
  | executes hexecutes =>
    rcases hexecutes.only with ⟨-, rfl⟩ | ⟨x, r', hx, hid, hstore, hdrawn⟩
    · exact ⟨fun _ hd => hd, .inl rfl⟩
    · exact ⟨hdrawn, .inr ⟨r', hstore, .inr ⟨x.record, hid ▸ hx.found, hx.state⟩⟩⟩

/-- The id of every record has been drawn. -/
theorem drawn (hw : Sound env w) (h : CallEnds env w k l w') {c : Str} {r : CaseRecord}
    (hr : w'.store c = some r) : ∃ uuid ∈ w'.drawn, c = js "case" ++ js "_" ++ uuid := by
  obtain ⟨hdrawn, hstores⟩ := h.stores
  have hold : ∀ {r : CaseRecord}, w.store c = some r →
      ∃ uuid ∈ w'.drawn, c = js "case" ++ js "_" ++ uuid := by
    intro r hr
    obtain ⟨uuid, huuid, hc⟩ := hw.drawn c r hr
    exact ⟨uuid, hdrawn huuid, hc⟩
  rcases hstores with hstore | ⟨r', hstore, hcase⟩
  · rw [hstore] at hr
    exact hold hr
  · rw [hstore] at hr
    by_cases hc : c = r'.caseId
    · rcases hcase with ⟨uuid, -, huuid, hid⟩ | ⟨record, hfound, -⟩
      · exact ⟨uuid, huuid, hc.trans hid⟩
      · exact hold (hc.symm ▸ hfound)
    · rw [store_put_of_ne hc] at hr
      exact hold hr

/-- A case that does not await approval keeps its record. -/
theorem kept (hw : Sound env w) (h : CallEnds env w k l w') {c : Str} {r : CaseRecord}
    (hr : w.store c = some r) (hstate : r.state ≠ .awaitingApproval) : w'.store c = some r := by
  obtain ⟨-, hstore | ⟨r', hstore, hcase⟩⟩ := h.stores
  · rw [hstore]
    exact hr
  · have hc : c ≠ r'.caseId := by
      intro hc
      rcases hcase with ⟨uuid, hfresh, -, hid⟩ | ⟨record, hfound, hawaits⟩
      · obtain ⟨uuid', huuid', hc'⟩ := hw.drawn c r hr
        have hsame := (hc'.symm.trans hc).trans hid
        rw [List.append_cancel_left hsame] at huuid'
        exact hfresh huuid'
      · rw [← hc, hr] at hfound
        cases hfound
        exact hstate hawaits
    rw [hstore, store_put_of_ne hc]
    exact hr

end CallEnds

/-! ## Sequences of calls -/

section Sequences

variable {script : List (Call × List Choice)} {l : List AgentEnded}

/-- The world is sound after every sequence of calls. -/
theorem sound_of_runCalls (h : (agent env).runCalls World.empty script = some l) :
    Sound env (finalWorld World.empty l) := by
  refine ⟨fun c r hr => stored_of_runCalls h hr, ?_⟩
  refine System.runCalls_invariant
    (I := fun _ w => ∀ c r, w.store c = some r → ∃ uuid ∈ w.drawn, c = js "case" ++ js "_" ++ uuid)
    ?_ ?_ h
  · intro c r hr
    cases hr
  · intro script l e hrun hbefore hdrawn he
    have hw : Sound env e.before := by
      rw [hbefore] at hdrawn ⊢
      exact ⟨fun c r hr => stored_of_runCalls hrun hr, hdrawn⟩
    exact fun c r hr => ((ensures_start hw e.call).completes he).1.drawn hw hr

/-- What every call keeps, in a sound world, holds after every sequence of calls. -/
theorem runCalls_sound_invariant {I : List AgentEnded → World → Prop} (hstart : I [] World.empty)
    (hstep : ∀ l e, I l e.before → Sound env e.before →
      CallEnds env e.before e.call e.asked e.after →
      (∀ l₁ a l₂, e.asked = l₁ ++ a :: l₂ → Owed e.before l₁ a.before a.entry.effect) →
      I (l ++ [e]) e.after)
    (h : (agent env).runCalls World.empty script = some l) : I l (finalWorld World.empty l) := by
  refine System.runCalls_invariant hstart ?_ h
  intro script l e hrun hbefore hI he
  have hw : Sound env e.before := by
    rw [hbefore]
    exact sound_of_runCalls hrun
  obtain ⟨hends, howed⟩ := (ensures_start hw e.call).completes he
  exact hstep l e hI hw hends howed

end Sequences

end Clawback
