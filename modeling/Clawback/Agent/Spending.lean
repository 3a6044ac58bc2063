import Clawback.Agent.Wiring
import Clawback.Compute.Session

/-!
# What is spent, and where the text goes

Every call has at most one session with 0G Compute, and only a submission has one. In every run of
interleaved calls:

* `spending_bounded`: no more is spent than one top-up for each submission.
* `text_to_paid_provider`: the text of a case is sent to one provider at most, which has been listed
  as verifiable and paid.
-/

namespace Clawback

open Js Async

variable {env : Platform}

/-! ## The session of a call -/

/-- What a call analyses, and with which configuration. -/
def Call.analysis : Call → Option (ComputeConfig × SubscriptionCaseInput)
  | submitCase deps _ input => deps.compute.map fun config => (config, input)
  | _ => none

/-- The session that a call begins with; it is over if there is nothing to analyse. -/
def Call.session (k : Call) : Session := if k.analysis.isSome then .closed else .ended

/-- What a call may ask of 0G Compute. -/
inductive Call.Step (k : Call) : Session → Entry Effect Effect.Answer JsError → Session → Prop
  | elsewhere {s e r} : e.isCompute = false → Step k s ⟨e, r⟩ s
  | analysis {config input s a s'} : k.analysis = some (config, input) →
    Session.Step config input s a s' → Step k s a s'

/-- Without a configuration 0G Compute is asked nothing. -/
theorem elsewhere_of_isWired {deps : Option OrchestratorDeps} {e : Effect}
    (hnone : ∀ d, deps = some d → d.compute = none) (h : e.isWired deps = true) :
    e.isCompute = false := by
  have hany : deps.any (·.compute.isSome) = false := by
    cases deps with
    | none => rfl
    | some d => rw [Option.any_some, hnone d rfl]; rfl
  cases e <;> first | rfl | exact absurd h (by simp [Effect.isWired, hany, Effect.isCompute])

/-- A part of a call that does not ask 0G Compute. -/
theorem speaks_of_wired {α : Type} {k : Call} {deps : Option OrchestratorDeps} {p : Action α}
    (h : Wired deps p) (hnone : ∀ d, deps = some d → d.compute = none) (s : Session) :
    Speaks k.Step (fun _ s' => s' = s) p s :=
  Speaks.of_only h fun _ _ he => .elsewhere (elsewhere_of_isWired hnone he)

/-- Such a part, and what comes after it. -/
theorem speaks_bind {α β : Type} {k : Call} {p : Action α} {f : α → Action β} {s : Session}
    (h : Wired none p) (hf : ∀ a, Speaks k.Step (fun _ _ => True) (f a) s) :
    Speaks k.Step (fun _ _ => True) (p >>= f) s := by
  refine Speaks.bind ((speaks_of_wired h (fun _ hd => nomatch hd) s).mono fun r s' hs => ?_)
  subst hs
  cases r with
  | ok a => exact hf a
  | error x => trivial

theorem submitCase_speaks {k : Call} {deps : OrchestratorDeps} {config : ComputeConfig}
    (hcompute : deps.compute = some config) (ownerId : Str) {input : SubscriptionCaseInput}
    (hk : k.analysis = some (config, input)) :
    Speaks k.Step (fun _ _ => True) (submitCase env deps ownerId input) .closed := by
  unfold submitCase
  rw [hcompute]
  refine speaks_bind (wired_of_local (newId_locally _)) fun caseId => ?_
  refine speaks_bind (wired_of_local now_locally) fun startedAt => ?_
  refine speaks_bind (wired_of_local (encryptText_locally _)) fun encryptedInput => ?_
  refine speaks_bind (wired_perform rfl) fun _ => ?_
  refine speaks_bind wired_pureMove fun _ => speaks_bind wired_pureMove fun _ => ?_
  have hanalysis : Converses config input (fun _ _ => True)
      (analyze env.sha256Hex (some config) input) .closed := analyze_speaks env.sha256Hex
  have hcall := hanalysis.weaken fun s a s' hstep => Call.Step.analysis hk hstep
  refine Speaks.bind (hcall.mono fun r s _ => ?_)
  cases r with
  | error x => trivial
  | ok analysis =>
    refine speaks_bind (wired_of_local (newId_locally _)) fun proposalId => ?_
    refine speaks_bind (wired_of_local now_locally) fun createdAt => ?_
    refine speaks_bind (wired_transition fun current => ?_) fun _ => ?_
    · refine Only.bind (wired_of_local (encryptText_locally _)) fun message _ => ?_
      refine Only.bind (wired_of_local (newId_locally _)) fun executionId _ => ?_
      exact Only.bind (wired_of_local now_locally) fun completedAt _ => Only.ret trivial
    · refine speaks_bind wired_pureMove fun _ => speaks_bind (wired_perform rfl) fun _ => ?_
      trivial

/-- Whatever it is answered, a call keeps to its session. -/
theorem start_speaks (k : Call) : Speaks k.Step (fun _ _ => True) (start env k) k.session := by
  have hquiet : ∀ {deps : Option OrchestratorDeps}, Wired deps (start env k) →
      (∀ d, deps = some d → d.compute = none) →
      Speaks k.Step (fun _ _ => True) (start env k) k.session :=
    fun h hnone => (speaks_of_wired h hnone _).mono fun _ _ _ => trivial
  cases k with
  | submitCase deps ownerId input =>
    cases hcompute : deps.compute with
    | none =>
      refine hquiet (start_wired _) fun d hd => ?_
      cases hd
      exact hcompute
    | some config =>
      have hk : (Call.submitCase deps ownerId input).analysis = some (config, input) := by
        rw [Call.analysis, hcompute]
        rfl
      rw [Call.session, hk]
      refine Speaks.bind ((submitCase_speaks hcompute ownerId hk).mono fun r s _ => ?_)
      cases r <;> trivial
  | approveAndExecute deps caseId ownerId proposalId =>
    -- an approval has no use for the configuration
    refine hquiet (start_wired (.approveAndExecute { deps with compute := none } caseId ownerId
      proposalId)) fun d hd => ?_
    cases hd
    rfl
  | _ => exact hquiet (start_wired _) nofun

/-! ## Runs -/

/-- The calls with an analysis. -/
def analyses (p : Pool Call Effect Effect.Answer JsError World CallResult) : Nat :=
  (p.threads.filter fun kq => kq.1.analysis.isSome).length

/-- What has been spent, in neuron. -/
def spent (h : AgentHistory) : Nat := (h.map (Event.cost (·.effect.neuron))).sum

/-- How often a call has sent something to a provider. -/
def asksMade (tr : CallTrace) : Nat := (tr.map (·.effect.asks)).sum

theorem step_budget_le (k : Call) (s : Session) (a : Entry Effect Effect.Answer JsError)
    (s' : Session) (h : k.Step s a s') : a.effect.neuron + s'.budget ≤ s.budget := by
  cases h with
  | @elsewhere s e r he =>
    have hstep : Session.Step default default s ⟨e, r⟩ s := .elsewhere he
    exact Session.budget_le hstep
  | analysis _ hstep => exact Session.budget_le hstep

theorem session_budget (k : Call) :
    k.session.budget = if k.analysis.isSome then defaultTopupNeuron else 0 := by
  unfold Call.session
  split <;> rfl

section Runs

variable {moves : List (Move Call Choice)}
  {p : Pool Call Effect Effect.Answer JsError World CallResult}

theorem sum_budget (threads : List (Call × Action CallResult)) :
    (threads.map fun kq => kq.1.session.budget).sum =
      (threads.filter fun kq => kq.1.analysis.isSome).length * defaultTopupNeuron := by
  generalize htop : defaultTopupNeuron = top
  induction threads with
  | nil => exact (Nat.zero_mul top).symm
  | cons kq threads ih =>
    rw [List.map_cons, List.sum_cons, ih, session_budget, htop, List.filter_cons]
    split
    · rw [List.length_cons, Nat.add_mul, Nat.one_mul, Nat.add_comm]
    · rw [Nat.zero_add]

/-- **Spending is bounded.** In every run, whatever 0G Compute answers, the calls spend at most one
top-up for each submission with a configuration. -/
theorem spending_bounded (hrun : (agent env).run (Pool.init World.empty) moves = some p) :
    spent p.history ≤ analyses p * defaultTopupNeuron := by
  have hstart : ∀ k, Speaks k.Step (fun _ _ => True) ((agent env).start k) k.session := start_speaks
  rw [analyses, ← sum_budget]
  exact cost_le_of_run hstart step_budget_le hrun

set_option maxRecDepth 10000 in
/-- The sample run spends one top-up, for one submission. -/
theorem spending_bounded_sample :
    ∃ p, (agent samplePlatform).run (Pool.init World.empty) attestedMoves = some p ∧
      spent p.history = defaultTopupNeuron ∧ analyses p = 1 ∧
      spent p.history ≤ analyses p * defaultTopupNeuron := by
  have hany : (((agent samplePlatform).run (Pool.init World.empty) attestedMoves).any fun p =>
      spent p.history == defaultTopupNeuron && analyses p == 1) = true := by decide +kernel
  obtain ⟨p, hrun, hp⟩ := (Option.any_eq_true _ _).mp hany
  obtain ⟨hspent, hanalyses⟩ := (Bool.and_eq_true _ _).mp hp
  exact ⟨p, hrun, eq_of_beq hspent, eq_of_beq hanalyses, spending_bounded hrun⟩

/-- **Where the text goes.** In every run, a call that has sent something to a provider is a
submission with a configuration, and has done so once. Before, the provider has been listed as
verifiable, its account has been topped up, and it has named its endpoint; what it is sent is the
prompt of the submitted input. -/
theorem text_to_paid_provider (hrun : (agent env).run (Pool.init World.empty) moves = some p)
    {t : Nat} {url body : Str} {headers : List (Str × Str)} {r : Except JsError HttpResponse}
    (hfetch : .did t ⟨.fetch url headers body, r⟩ ∈ p.history) :
    ∃ k config input, (∃ rest, p.threads[t]? = some (k, rest)) ∧
      k.analysis = some (config, input) ∧ asksMade (own t p.history) = 1 ∧
      ∃ before since provider service,
        own t p.history = before ++ [⟨.fetch url headers body, r⟩] ++ since ∧
        Session.Paid before provider ∧ ⟨.getServiceMetadata provider, .ok service⟩ ∈ before ∧
        url = service.endpoint ++ js "/chat/completions" ∧
        body = chatBody input service.model := by
  have hstart : ∀ k, Speaks k.Step (fun _ _ => True) ((agent env).start k) k.session := start_speaks
  have hmonitored := monitored_of_run hstart hrun
  obtain ⟨⟨k, rest⟩, hthread⟩ : ∃ kq, p.threads[t]? = some kq :=
    ⟨_, List.getElem?_eq_getElem (hmonitored.numbered _ hfetch)⟩
  obtain ⟨s, hleads, -⟩ := hmonitored.leads t k rest hthread
  obtain ⟨before, since, htr⟩ := List.append_of_mem (mem_own.mpr hfetch)
  rw [List.append_cons] at htr
  obtain ⟨config, input, hk⟩ : ∃ config input, k.analysis = some (config, input) := by
    obtain ⟨s₁, s₂, -, hstep⟩ := hleads.split htr
    cases hstep with
    | elsewhere he => cases he
    | analysis hk _ => exact ⟨_, _, hk⟩
  have hsession : Leads (Session.Step config input) .closed (own t p.history) s := by
    rw [Call.session, hk] at hleads
    refine hleads.mono fun s a s' hstep => ?_
    cases hstep with
    | elsewhere he => exact .elsewhere he
    | analysis hk' hstep =>
      cases hk.symm.trans hk'
      exact hstep
  refine ⟨k, config, input, ⟨rest, hthread⟩, hk, ?_, before, since, ?_⟩
  · have hcost : ∀ s a s', Session.Step config input s a s' →
        a.effect.asks + s'.asksLeft ≤ s.asksLeft := fun _ _ _ => Session.asksLeft_le
    have hle : asksMade (own t p.history) + s.asksLeft ≤ 1 := hsession.cost_le hcost
    have hsum : asksMade (own t p.history) = asksMade before + 1 + asksMade since := by
      rw [htr, asksMade, List.map_append, List.map_append, List.sum_append, List.sum_append]
      rfl
    omega
  · obtain ⟨provider, service, hpaid, hservice, hurl, hbody⟩ := Session.paid_of_fetch hsession htr
    exact ⟨provider, service, htr, hpaid, hservice, hurl, hbody⟩

theorem fetch_of_cost {ev : Event Call Effect Effect.Answer JsError}
    (h : ev.cost (·.effect.asks) = 1) : ∃ t url headers body r,
      ev = .did t ⟨.fetch url headers body, r⟩ := by
  cases ev with
  | called t k => cases h
  | did t a =>
    obtain ⟨e, r⟩ := a
    cases e with
    | fetch url headers body => exact ⟨t, url, headers, body, r, rfl⟩
    | _ => cases h

set_option maxRecDepth 10000 in
/-- In the sample run a provider is asked, and has been paid before. -/
theorem text_to_paid_provider_sample : ∃ p t, ∃ k : Call, ∃ config input before provider,
    (agent samplePlatform).run (Pool.init World.empty) attestedMoves = some p ∧
      k.analysis = some (config, input) ∧ asksMade (own t p.history) = 1 ∧
      before ⊆ own t p.history ∧ Session.Paid before provider := by
  have hany : (((agent samplePlatform).run (Pool.init World.empty) attestedMoves).any fun p =>
      p.history.any fun ev => ev.cost (·.effect.asks) == 1) = true := by decide +kernel
  obtain ⟨p, hrun, hp⟩ := (Option.any_eq_true _ _).mp hany
  obtain ⟨ev, hev, hcost⟩ := List.any_eq_true.mp hp
  obtain ⟨t, url, headers, body, r, rfl⟩ := fetch_of_cost (eq_of_beq hcost)
  obtain ⟨k, config, input, -, hk, hasked, before, since, provider, service, htr, hpaid, -⟩ :=
    text_to_paid_provider hrun hev
  refine ⟨p, t, k, config, input, before, provider, hrun, hk, hasked, ?_, hpaid⟩
  rw [htr, List.append_assoc]
  exact List.subset_append_left _ _

end Runs

end Clawback
