import Clawback.Agent.Strangers

/-!
# What a call tells

A call that returns something of a case returns the summary of a record that it has read or stored,
or a report on one that it has read; and it has read that the case belongs to the owner it is made
for.

* `summary_of_run`, `report_of_run`: in every run, what is returned is of a stored record of the
  case that the call names, and of the owner it is made for.
-/

namespace Clawback

open Js Async

variable {env : Platform}

/-- The owner a call is made for. -/
def Call.owner? : Call → Option Str
  | submitCase _ ownerId _ => some ownerId
  | k => k.named.map Prod.snd

/-- The dependencies that a call is made with. -/
def Call.deps? : Call → Option OrchestratorDeps
  | submitCase deps _ _ | approveAndExecute deps _ _ _ => some deps
  | _ => none

/-- The call has read the record of the case, or stored it. -/
def Handled (c : Str) (r : CaseRecord) (tr : CallTrace) : Prop :=
  ⟨.get c, .ok r⟩ ∈ tr ∨ ⟨.save r, .ok ()⟩ ∈ tr

/-- What a call that has returned has done. -/
inductive Disclosed (env : Platform) (k : Call) (tr : CallTrace) : CallResult → Prop
  | submitted {deps ownerId input d r} : k = .submitCase deps ownerId input →
    ⟨.create d, .ok ()⟩ ∈ tr → ⟨.get d.caseId, .ok r⟩ ∈ tr →
    Disclosed env k tr (.summary (toSummary r))
  | summary {c ownerId seen r} : k.named = some (c, ownerId) → ⟨.get c, .ok seen⟩ ∈ tr →
    seen.ownerId = ownerId → Handled c r tr → Disclosed env k tr (.summary (toSummary r))
  | report {c ownerId r report} : k = .verifyCaseReceipt c ownerId → ⟨.get c, .ok r⟩ ∈ tr →
    r.ownerId = ownerId → verifyRecord env c r = .ok report → Disclosed env k tr (.report report)
  | reloaded : Disclosed env k tr .reloaded

/-! ## Programs -/

/-- Whatever its effects are answered, what the program returns satisfies `Q`. -/
def Returns {α : Type} (Q : α → CallTrace → Prop) (p : Action α) (tr : CallTrace) : Prop :=
  Obeys (fun _ _ => True) (fun r tr' => ∀ a, r = .ok a → Q a tr') p tr

namespace Returns

variable {α β : Type} {Q : β → CallTrace → Prop} {tr : CallTrace}

theorem ret {b : β} (h : Q b tr) : Returns Q (pure b) tr := fun _ hb => Except.ok.inj hb ▸ h

theorem lift {r : Except JsError β} (h : ∀ b, r = .ok b → Q b tr) : Returns Q (Prog.lift r) tr :=
  Obeys.lift h

/-- What comes before does not matter. -/
theorem seq {p : Action α} {f : α → Action β} (h : ∀ a tr', Returns Q (f a) tr') :
    Returns Q (p >>= f) tr := by
  refine Obeys.bind ((Obeys.free fun _ _ => trivial).mono fun r tr' _ => ?_)
  cases r with
  | ok a => exact h a tr'
  | error x => exact nofun

theorem bind {S : α → CallTrace → Prop} {p : Action α} {f : α → Action β} (hp : Returns S p tr)
    (hf : ∀ a tr', S a tr' → Returns Q (f a) tr') : Returns Q (p >>= f) tr :=
  Obeys.bind_of hp hf fun _ _ => nofun

theorem perform {e : Effect} :
    Returns (fun a tr' => tr' = tr ++ [⟨e, .ok a⟩]) (Prog.perform e) tr :=
  Obeys.perform trivial fun _ _ heq => heq ▸ rfl

/-- What the trace has shown before the program stays in it. -/
theorem kept {p : Action β} (h : Returns Q p tr) :
    Returns (fun b tr' => Q b tr' ∧ tr ⊆ tr') p tr := by
  refine (Obeys.gives h).mono ?_
  rintro r tr' ⟨hQ, since, rfl, -⟩ b hb
  exact ⟨hQ b hb, List.subset_append_left _ _⟩

theorem mono {Q' : β → CallTrace → Prop} {p : Action β} (h : Returns Q p tr)
    (hQ : ∀ b tr', Q b tr' → Q' b tr') : Returns Q' p tr :=
  Obeys.mono (fun _ tr' hr b hb => hQ b tr' (hr b hb)) h

end Returns

theorem returns_transition (c : Str) (event : CaseEvent) (patch : CaseRecord → Action CasePatch)
    (tr : CallTrace) : Returns (Handled c) (transition c event patch) tr := by
  unfold transition
  refine Returns.seq fun current tr₁ => Returns.seq fun next tr₂ => Returns.seq fun changes tr₃ =>
    Returns.seq fun updatedAt tr₄ => ?_
  refine Returns.bind Returns.perform fun _ tr' htr => Returns.ret ?_
  right
  rw [htr]
  exact List.mem_append_right _ (List.mem_singleton_self _)

theorem returns_getForOwner (c ownerId : Str) (tr : CallTrace) :
    Returns (fun r tr' => ⟨.get c, .ok r⟩ ∈ tr' ∧ r.ownerId = ownerId)
      (getForOwner c ownerId) tr := by
  refine obeys_getForOwner trivial (fun r howner a ha => ?_) fun x tr' a ha => ?_
  · cases ha
    exact ⟨List.mem_append_right _ (List.mem_singleton_self _), howner⟩
  · cases ha

/-- The summary of a record of the case. -/
def Summarises (c : Str) (s : CaseSummary) (tr : CallTrace) : Prop :=
  ∃ r, s = toSummary r ∧ Handled c r tr

theorem returns_transition_summary (c : Str) (event : CaseEvent)
    (patch : CaseRecord → Action CasePatch) (tr : CallTrace) :
    Returns (Summarises c) (transition c event patch >>= fun r => pure (toSummary r)) tr :=
  (returns_transition c event patch tr).bind fun r _ hr => .ret ⟨r, rfl, hr⟩

theorem returns_get_summary (c : Str) (tr : CallTrace) :
    Returns (Summarises c) (Prog.perform (Effect.get c) >>= fun r => pure (toSummary r)) tr := by
  refine Returns.bind Returns.perform fun r tr' htr => .ret ⟨r, rfl, .inl ?_⟩
  rw [htr]
  exact List.mem_append_right _ (List.mem_singleton_self _)

theorem returns_recordFailure (c : Str) (error : JsError) (tr : CallTrace) :
    Returns (Summarises c) (recordFailure c error) tr :=
  Returns.seq fun _ tr' => returns_get_summary c tr'

theorem returns_finalize (deps : OrchestratorDeps) (c : Str) (input : SubscriptionCaseInput)
    (outcome : OutcomeEvidence) (afterOutcome : CaseRecord) (tr : CallTrace) :
    Returns (Summarises c) (finalize env deps c input outcome afterOutcome) tr := by
  refine Returns.seq fun built _ => Returns.seq fun receiptId _ => Returns.seq fun createdAt _ => ?_
  refine Returns.seq fun _ _ => Returns.seq fun stored _ => Returns.seq fun anchored _ => ?_
  exact Returns.seq fun _ tr' => returns_transition_summary c _ _ tr'

theorem returns_recordOutcome (deps : OrchestratorDeps) (c : Str) (input : SubscriptionCaseInput)
    (outcome : OutcomeEvidence) (tr : CallTrace) :
    Returns (Summarises c) (recordOutcome env deps c input outcome) tr := by
  refine (returns_transition c _ _ tr).bind fun r tr' hr => ?_
  split
  · exact .ret ⟨r, rfl, hr⟩
  · exact returns_finalize deps c input outcome r tr'

theorem returns_approval (deps : OrchestratorDeps) (c ownerId proposalId : Str) :
    Returns (fun s tr => (∃ seen, ⟨.get c, .ok seen⟩ ∈ tr ∧ seen.ownerId = ownerId) ∧
      Summarises c s tr) (approveAndExecute env deps c ownerId proposalId) [] := by
  refine (returns_getForOwner c ownerId []).bind fun current tr hcurrent => ?_
  refine (Returns.kept (Q := Summarises c) ?_).mono fun s tr' h =>
    ⟨⟨current, h.2 hcurrent.1, hcurrent.2⟩, h.1⟩
  refine Returns.seq fun proposal _ => Returns.seq fun approvedAt _ => Returns.seq fun _ _ => ?_
  refine Returns.seq fun _ _ => Returns.seq fun input _ => Returns.seq fun result tr' => ?_
  cases result with
  | error error => exact returns_recordFailure c error tr'
  | ok outcome => exact returns_recordOutcome deps c input outcome tr'

theorem returns_rejection (c ownerId : Str) :
    Returns (fun s tr => (∃ seen, ⟨.get c, .ok seen⟩ ∈ tr ∧ seen.ownerId = ownerId) ∧
      Summarises c s tr) (rejectProposal c ownerId) [] := by
  refine (returns_getForOwner c ownerId []).bind fun current tr hcurrent => ?_
  exact (returns_transition_summary c _ _ tr).kept.mono fun s tr' h =>
    ⟨⟨current, h.2 hcurrent.1, hcurrent.2⟩, h.1⟩

theorem returns_submission (deps : OrchestratorDeps) (ownerId : Str)
    (input : SubscriptionCaseInput) :
    Returns (fun s tr => ∃ d r, ⟨.create d, .ok ()⟩ ∈ tr ∧ ⟨.get d.caseId, .ok r⟩ ∈ tr ∧
      s = toSummary r) (submitCase env deps ownerId input) [] := by
  refine Returns.seq fun caseId _ => Returns.seq fun startedAt _ => Returns.seq fun payload tr => ?_
  refine Returns.bind Returns.perform fun _ tr' htr => ?_
  have hcreated : ⟨.create (draftRecord caseId ownerId payload deps.source startedAt), .ok ()⟩ ∈
      tr' := by
    rw [htr]
    exact List.mem_append_right _ (List.mem_singleton_self _)
  refine (Returns.kept (Q := fun s tr'' => ∃ r, ⟨.get caseId, .ok r⟩ ∈ tr'' ∧ s = toSummary r)
    ?_).mono fun s tr'' h => ?_
  · refine Returns.seq fun _ _ => Returns.seq fun _ _ => Returns.seq fun analysis _ => ?_
    refine Returns.seq fun proposalId _ => Returns.seq fun createdAt _ => Returns.seq fun _ _ => ?_
    refine Returns.seq fun _ _ => Returns.bind Returns.perform fun final tr'' htr'' => ?_
    refine .ret ⟨final, ?_, rfl⟩
    rw [htr'']
    exact List.mem_append_right _ (List.mem_singleton_self _)
  · obtain ⟨⟨r, hr, hs⟩, hsub⟩ := h
    exact ⟨_, r, hsub hcreated, hr, hs⟩

/-- What a call returns is disclosed by what it has done. -/
theorem start_disclosed (k : Call) : Returns (fun result tr => Disclosed env k tr result)
    (start env k) [] := by
  cases k with
  | submitCase deps ownerId input =>
    refine (returns_submission deps ownerId input).bind fun s tr h => .ret ?_
    obtain ⟨d, r, hd, hr, rfl⟩ := h
    exact .submitted rfl hd hr
  | rejectProposal c ownerId =>
    refine (returns_rejection c ownerId).bind fun s tr h => .ret ?_
    obtain ⟨⟨seen, hseen, howner⟩, r, rfl, hr⟩ := h
    exact .summary rfl hseen howner hr
  | approveAndExecute deps c ownerId proposalId =>
    refine (returns_approval deps c ownerId proposalId).bind fun s tr h => .ret ?_
    obtain ⟨⟨seen, hseen, howner⟩, r, rfl, hr⟩ := h
    exact .summary rfl hseen howner hr
  | getCase c ownerId =>
    refine Returns.bind ((returns_getForOwner c ownerId []).bind fun r tr h =>
      .ret (Q := fun s tr => ∃ r, s = toSummary r ∧ ⟨.get c, .ok r⟩ ∈ tr ∧ r.ownerId = ownerId)
        ⟨r, rfl, h⟩) fun s tr h => .ret ?_
    obtain ⟨r, rfl, hr, howner⟩ := h
    exact .summary rfl hr howner (.inl hr)
  | verifyCaseReceipt c ownerId =>
    refine Returns.bind ((returns_getForOwner c ownerId []).bind fun r tr h =>
      .lift (Q := fun report tr => ∃ r, ⟨.get c, .ok r⟩ ∈ tr ∧ r.ownerId = ownerId ∧
        verifyRecord env c r = .ok report) fun report hreport => ⟨r, h.1, h.2, hreport⟩)
      fun report tr h => .ret ?_
    obtain ⟨r, hr, howner, hreport⟩ := h
    exact .report rfl hr howner hreport
  | reload c => exact Returns.seq fun _ _ => .ret .reloaded

/-! ## Runs -/

/-- A call stores records of the case that it names. -/
theorem caseId_of_named {h : AgentHistory} {w : World} (hl : AgentLawful env h w) {t : Nat}
    {k : Call} (hk : .called t k ∈ h) {c ownerId : Str} (hnamed : k.named = some (c, ownerId))
    {r : CaseRecord} (hsaved : .did t ⟨.save r, .ok ()⟩ ∈ h) : r.caseId = c := by
  cases k with
  | rejectProposal _ _ | approveAndExecute _ _ _ _ =>
    cases hnamed
    exact caseId_of_decides hl hk rfl hsaved
  | getCase _ _ | verifyCaseReceipt _ _ =>
    obtain ⟨h₁, h₂, rfl⟩ := List.append_of_mem hsaved
    obtain ⟨k', _, _, _, -, hk', hallowed, -, -⟩ := hl.split rfl
    cases hl.called_unique hk (List.mem_append_left _ hk')
    obtain ⟨-, hchanges, -, -⟩ := hallowed
    cases hchanges
  | submitCase _ _ _ | reload _ => cases hnamed

section Runs

variable {moves : List (Move Call Choice)}
  {p : Pool Call Effect Effect.Answer JsError World CallResult} {i : Nat} {k : Call}
  {rest : Action CallResult}

theorem disclosed_of_run (hrun : (agent env).run (Pool.init World.empty) moves = some p)
    (hthread : p.threads[i]? = some (k, rest)) {result : CallResult}
    (hresult : rest.result? = some (.ok result)) :
    Disclosed env k (own i p.history) result := by
  have hstart : ∀ k, Obeys (fun _ _ => True) (fun r tr => ∀ result, r = .ok result →
      Disclosed env k tr result) ((agent env).start k) [] := start_disclosed
  exact (System.run_lawful hstart hrun).result hthread hresult result rfl

/-- **What a call tells of a case.** In every run, a summary that a call returns is of a stored
record of the case that it names, if it names one, and of the owner that it is made for. -/
theorem summary_of_run (hrun : (agent env).run (Pool.init World.empty) moves = some p)
    (hthread : p.threads[i]? = some (k, rest)) {s : CaseSummary}
    (hresult : rest.result? = some (.ok (.summary s))) :
    ∃ u r, Stored p.history u r ∧ s = toSummary r ∧ k.owner? = some r.ownerId ∧
      ∀ c ownerId, k.named = some (c, ownerId) → r.caseId = c := by
  have hsound := System.run_lawful start_obeys hrun
  have hl := hsound.lawful
  have hk := hsound.called i k rest hthread
  have hdisclosed := disclosed_of_run hrun hthread hresult
  cases hdisclosed with
  | @submitted deps ownerId input d r hcall hcreated hread =>
    obtain ⟨⟨u, hst⟩, hid⟩ := stored_of_get hl (mem_own.mp hread)
    have hd : Created p.history i d := mem_own.mp hcreated
    have howner : d.ownerId = ownerId := by
      obtain ⟨h₁, h₂, heq⟩ := List.append_of_mem hd
      obtain ⟨k', _, _, _, -, hk', hcreates, -, -⟩ := hl.split heq
      obtain rfl := hl.called_unique hk (heq ▸ List.mem_append_left _ hk')
      subst hcall
      cases hcreates
      rfl
    have hcore := sameCore_of_stored hl (.inl hd) hst hid.symm
    refine ⟨u, r, hst, rfl, ?_, fun c o hnamed => ?_⟩
    · rw [hcall, hcore.ownerId, howner]
      rfl
    · rw [hcall] at hnamed
      cases hnamed
  | @summary c ownerId seen r hnamed hseen howner hr =>
    obtain ⟨⟨v, hst₀⟩, hid₀⟩ := stored_of_get hl (mem_own.mp hseen)
    have hstored : (∃ u, Stored p.history u r) ∧ r.caseId = c := by
      rcases hr with hget | hsave
      · exact stored_of_get hl (mem_own.mp hget)
      · exact ⟨⟨i, .inr (mem_own.mp hsave)⟩, caseId_of_named hl hk hnamed (mem_own.mp hsave)⟩
    obtain ⟨⟨u, hst⟩, hid⟩ := hstored
    have hcore := sameCore_of_stored hl hst₀ hst (hid₀.trans hid.symm)
    refine ⟨u, r, hst, rfl, ?_, fun c' o' hnamed' => ?_⟩
    · rw [hcore.ownerId, howner]
      cases k <;> cases hnamed <;> rfl
    · rw [hnamed] at hnamed'
      cases hnamed'
      exact hid

/-- A report is on a stored record of the case that the call asks to verify, and of the owner that
it is made for. -/
theorem report_of_run (hrun : (agent env).run (Pool.init World.empty) moves = some p)
    (hthread : p.threads[i]? = some (k, rest)) {report : VerificationReport}
    (hresult : rest.result? = some (.ok (.report report))) :
    ∃ u r, Stored p.history u r ∧ k = .verifyCaseReceipt r.caseId r.ownerId ∧
      verifyRecord env r.caseId r = .ok report := by
  have hl := (System.run_lawful start_obeys hrun).lawful
  have hdisclosed := disclosed_of_run hrun hthread hresult
  cases hdisclosed with
  | @report c ownerId r _ hverify hread howner hreport =>
    obtain ⟨⟨u, hst⟩, rfl⟩ := stored_of_get hl (mem_own.mp hread)
    exact ⟨u, r, hst, howner ▸ hverify, hreport⟩

end Runs

end Clawback
