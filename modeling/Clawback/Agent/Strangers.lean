import Clawback.Agent.Runs

/-!
# Strangers

A call that names a case of another owner reads the record and throws. It changes nothing and
tells nothing about the record, so the calls of strangers can be left out of a run.

* `strangers_purged`: without them, everything else is as it was.
-/

namespace Clawback

open Js Async

variable {env : Platform}

/-- The case that a call names, and the owner it is made for. -/
def Call.named : Call → Option (Str × Str)
  | rejectProposal caseId ownerId => some (caseId, ownerId)
  | approveAndExecute _ caseId ownerId _ => some (caseId, ownerId)
  | getCase caseId ownerId => some (caseId, ownerId)
  | verifyCaseReceipt caseId ownerId => some (caseId, ownerId)
  | submitCase _ _ _ | reload _ => none

/-- The call names a case that belongs to another owner. -/
def Call.byStranger (k : Call) (w : World) : Bool :=
  match k.named with
  | some (caseId, ownerId) => (w.store caseId).any fun record => record.ownerId != ownerId
  | none => false

/-- The actions that a sequence of calls has sent. -/
def sentActions (l : List AgentEnded) : List ProviderActionRequest :=
  (l.flatMap Ended.asked).filterMap fun a => match a.entry.effect with
    | .sendAction request => some request
    | _ => none

/-- What becomes of the call of a stranger: it reads the record, or fails to, and throws. -/
def TurnedAway (c : Str) (r : Except JsError CallResult) (l : Log) (w w' : World) : Prop :=
  w' = w ∧
    ((∃ record, l = [asked w (.get c) (.ok record)] ∧ r = .error (unauthorizedCaseAccessError c)) ∨
      ∃ x, l = [asked w (.get c) (.error x)] ∧ r = .error x)

theorem ensures_turnedAway {c ownerId : Str} {w : World} {record : CaseRecord}
    (hfound : w.store c = some record) (howner : record.ownerId ≠ ownerId) {β : Type}
    (f : CaseRecord → Action β) (g : β → CallResult) :
    Ensures (agent env) (fun _ _ _ => True) (fun r l w' => TurnedAway c r l w w')
      (getForOwner c ownerId >>= f >>= fun b => pure (g b)) [] w := by
  refine Ensures.bind (Ensures.bind (ensures_getForOwner rfl trivial ?_ ?_ ?_))
  · exact fun x => ⟨rfl, .inr ⟨x, rfl, rfl⟩⟩
  · exact fun read _ _ => ⟨rfl, .inl ⟨read, rfl, rfl⟩⟩
  · intro read hread hsame
    rw [hfound] at hread
    cases hread
    exact absurd hsame howner

theorem turnedAway_of_completes {e : AgentEnded} (he : (agent env).Completes e)
    (hstranger : e.call.byStranger e.before = true) :
    ∃ c ownerId, e.call.named = some (c, ownerId) ∧
      TurnedAway c e.result e.asked e.before e.after := by
  obtain ⟨call, before, log, result, after⟩ := e
  unfold Call.byStranger at hstranger
  cases hnamed : call.named with
  | none =>
    rw [hnamed] at hstranger
    cases hstranger
  | some named =>
    obtain ⟨c, ownerId⟩ := named
    rw [hnamed] at hstranger
    obtain ⟨record, hfound, hother⟩ := (Option.any_eq_true _ _).mp hstranger
    have howner : record.ownerId ≠ ownerId := bne_iff_ne.mp hother
    have hensures : Ensures (agent env) (fun _ _ _ => True)
        (fun r l w' => TurnedAway c r l before w') (start env call) [] before := by
      cases call with
      | submitCase _ _ _ | reload _ => cases hnamed
      | rejectProposal _ _ | approveAndExecute _ _ _ _ | getCase _ _ | verifyCaseReceipt _ _ =>
        cases hnamed
        exact ensures_turnedAway hfound howner _ _
    exact ⟨c, ownerId, rfl, (hensures.completes he).1⟩

theorem sentActions_filter {l : List AgentEnded} {keep : AgentEnded → Bool}
    (hskip : ∀ e ∈ l, keep e = false → sentActions [e] = []) :
    sentActions (l.filter keep) = sentActions l := by
  induction l with
  | nil => rfl
  | cons e l ih =>
    have happend : sentActions (e :: l) = sentActions [e] ++ sentActions l := by
      unfold sentActions
      rw [List.flatMap_cons, List.filterMap_append, List.flatMap_singleton]
    have hrest := ih fun e' he' => hskip e' (List.mem_cons_of_mem e he')
    rw [happend, ← hrest]
    by_cases hkeep : keep e = true
    · rw [List.filter_cons_of_pos hkeep]
      unfold sentActions
      rw [List.flatMap_cons, List.filterMap_append, List.flatMap_singleton]
    · rw [List.filter_cons_of_neg hkeep,
        hskip e List.mem_cons_self (Bool.eq_false_iff.mpr hkeep)]
      rfl

/-- **Strangers.** In every sequence of calls, the calls that name a case of another owner can
be left out: with the same choices of the environment, all other calls start, go and end as
before, every stored record, every settlement record and every action sent is the same; and
each call left out threw the same error whatever the record is, unless the store failed to
read the record. -/
theorem strangers_purged {script : List (Call × List Choice)} {l : List AgentEnded}
    (h : (agent env).runCalls World.empty script = some l) :
    (∃ script', script'.Sublist script ∧ (agent env).runCalls World.empty script' =
      some (l.filter fun e => !e.call.byStranger e.before)) ∧
    finalWorld World.empty (l.filter fun e => !e.call.byStranger e.before) =
      finalWorld World.empty l ∧
    sentActions (l.filter fun e => !e.call.byStranger e.before) = sentActions l ∧
    ∀ e ∈ l, e.call.byStranger e.before = true → ∃ c ownerId, e.call.named = some (c, ownerId) ∧
      (e.result = .error (unauthorizedCaseAccessError c) ∨
        ∃ x, e.asked = [asked e.before (.get c) (.error x)] ∧ e.result = .error x) := by
  have haway : ∀ e, (agent env).Completes e → (!e.call.byStranger e.before) = false →
      ∃ c ownerId, e.call.named = some (c, ownerId) ∧
        TurnedAway c e.result e.asked e.before e.after := by
    intro e he hskip
    exact turnedAway_of_completes he ((Bool.not_eq_false' _).mp hskip)
  have hcompletes := System.completes_of_runCalls h
  obtain ⟨script', hsub, hrun, hfinal⟩ := System.runCalls_filter
    (fun e he hskip => (haway e he hskip).choose_spec.choose_spec.2.1) h
  refine ⟨⟨script', hsub, hrun⟩, hfinal, sentActions_filter ?_, ?_⟩
  · intro e he hskip
    obtain ⟨c, ownerId, -, -, hasked⟩ := haway e (hcompletes e he) hskip
    unfold sentActions
    rw [List.flatMap_singleton]
    obtain ⟨record, hasked, -⟩ | ⟨x, hasked, -⟩ := hasked
    · rw [hasked]
      rfl
    · rw [hasked]
      rfl
  · intro e he hstranger
    obtain ⟨c, ownerId, hnamed, -, hthrew⟩ := turnedAway_of_completes (hcompletes e he) hstranger
    refine ⟨c, ownerId, hnamed, ?_⟩
    obtain ⟨record, -, hresult⟩ | ⟨x, hasked, hresult⟩ := hthrew
    · exact .inl hresult
    · exact .inr ⟨x, hasked, hresult⟩

/-- A stranger tries to look at the sample case and to approve its proposal. -/
def strangersScript : List (Call × List Choice) :=
  [submitSample, (.getCase (js "case_1") (js "user_2"), [.ok]),
    (.approveAndExecute sampleDeps (js "case_1") (js "user_2") (js "proposal_2"), [.ok]),
    (.rejectProposal (js "case_1") (js "user_1"), [.ok, .ok, sampleTime, .ok])]

set_option maxRecDepth 10000 in
theorem strangers_purged_sample :
    ∃ l, (agent samplePlatform).runCalls World.empty strangersScript = some l ∧
      (l.filter fun e => e.call.byStranger e.before).length = 2 ∧
      finalWorld World.empty (l.filter fun e => !e.call.byStranger e.before) =
        finalWorld World.empty l := by
  have hany : (((agent samplePlatform).runCalls World.empty strangersScript).any fun l =>
      (l.filter fun e => e.call.byStranger e.before).length == 2) = true := by decide +kernel
  obtain ⟨l, hrun, hl⟩ := (Option.any_eq_true _ _).mp hany
  exact ⟨l, hrun, eq_of_beq hl, (strangers_purged hrun).2.1⟩

end Clawback
