import Clawback.Agent.Alone
import Clawback.Agent.Atomic

/-!
# Sequences of calls to the agent

A sequence of calls is a run in which the calls take turns, so what holds of every record that
is ever stored holds of the records in the store after each call.

* `stored_of_runCalls`: the records in the store are consistent, each under its own key.
-/

namespace Clawback

open Js Async

/-- A call to the agent that has ended. -/
abbrev AgentEnded := Ended Call Effect Effect.Answer JsError World CallResult

variable {env : Platform}

/-- A sequence of calls, as a run of the pool in which the calls take turns. -/
theorem pool_of_runCalls {script : List (Call × List Choice)} {l : List AgentEnded}
    (h : (agent env).runCalls World.empty script = some l) :
    ∃ moves p, (agent env).runInTurn (Pool.init World.empty) moves = some p ∧
      p.world = finalWorld World.empty l ∧ p.history = System.historyFrom 0 l := by
  obtain ⟨moves, p, -, hrun, -, hworld, hhistory, -, -⟩ :=
    System.runInTurn_of_runCalls (p := Pool.init World.empty) rfl h
  exact ⟨moves, p, hrun, hworld, hhistory⟩

/-- The records in the store are consistent, each under its own key. -/
theorem stored_of_runCalls {script : List (Call × List Choice)} {l : List AgentEnded}
    (h : (agent env).runCalls World.empty script = some l) {c : Str} {r : CaseRecord}
    (hr : (finalWorld World.empty l).store c = some r) : Consistent env r ∧ r.caseId = c := by
  obtain ⟨moves, p, hrun, hworld, -⟩ := pool_of_runCalls h
  rw [← hworld] at hr
  exact consistent_of_run (System.run_of_runInTurn hrun) hr

/-! ## A sample run -/

/-- What the environment decides in the sample submission. -/
def sampleChoices : List Choice :=
  [.text (js "1"), sampleTime, .bytes sampleIv, .ok, .ok, sampleTime, .ok, .ok, sampleTime, .ok,
    .text (js "2"), sampleTime, .ok, .bytes sampleIv', .text (js "3"), sampleTime, sampleTime,
    .ok, .ok, sampleTime, .ok, .ok]

def submitSample : Call × List Choice :=
  (.submitCase sampleDeps (js "user_1") sampleInput, sampleChoices)

/-- What the environment decides in the sample approval, up to the fee: a refund is confirmed. -/
def sampleAnswers : List Choice :=
  [.ok, sampleTime, .ok, sampleTime, .ok, .ok, sampleTime, .ok,
    .sent ⟨.refundIssued, some (js "confirmed"), 1999, .sandbox⟩, sampleTime, .ok, sampleTime, .ok,
    .text (js "4"), sampleTime]

/-- The sample approval with the answers of the ledger and of the store to what comes last. -/
def approveSampleWith (last : List Choice) : Call × List Choice :=
  (approveSample, sampleAnswers ++ last)

/-- The sample case is submitted and approved, and gets its receipt. -/
def sampleScript : List (Call × List Choice) :=
  [submitSample, approveSampleWith [sampleTime, .ok, sampleTime, .ok]]

/-- A record of a run with some property. -/
theorem stored_of_any (moves : List (Move Call Choice)) (P : AgentHistory → Bool)
    (Q : CaseRecord → Bool)
    (h : (((agent samplePlatform).run (Pool.init World.empty) moves).any fun p =>
      P p.history && ((caseRegister (js "case_1")).writes p.history).any fun tr => Q tr.2) =
        true) :
    ∃ p t r, (agent samplePlatform).run (Pool.init World.empty) moves = some p ∧
      P p.history = true ∧ Stored p.history t r ∧ Q r = true := by
  obtain ⟨p, hrun, hp⟩ := (Option.any_eq_true _ _).mp h
  obtain ⟨hhistory, hwrites⟩ := (Bool.and_eq_true _ _).mp hp
  obtain ⟨⟨t, r⟩, hmem, hr⟩ := List.any_eq_true.mp hwrites
  exact ⟨p, t, r, hrun, hhistory, (mem_writes_iff.mp hmem).1, hr⟩

end Clawback
