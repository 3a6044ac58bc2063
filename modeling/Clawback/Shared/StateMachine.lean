import Clawback.Js.Runtime
import Mathlib.Logic.Relation

/-!
# The case state machine

The states of a case, the events that move it, and the table of the legal moves.

* `mem_of_applyTransition`: `applyTransition` follows the table, or throws.
* `target_of_applyTransition`, `source_of_applyTransition`: where an event leads, and from
  where.
* `rank_lt_of_applyTransition`: every move goes up in `rank`, so a case never comes back
  to a state it has left.
* `applyTransition_terminal`: nothing leaves a terminal state.
* `Later`: the states a case can still come to.
-/

namespace Clawback

open Js

inductive CaseState where
  | draft | submitted | analyzing | actionProposed | awaitingApproval | approved | executing
  | outcomePending | verifiedSuccess | executionFailed | outcomeUnverified | rejected | expired
deriving DecidableEq, Inhabited

namespace CaseState

def text : CaseState → Str
  | draft => js "DRAFT"
  | submitted => js "SUBMITTED"
  | analyzing => js "ANALYZING"
  | actionProposed => js "ACTION_PROPOSED"
  | awaitingApproval => js "AWAITING_APPROVAL"
  | approved => js "APPROVED"
  | executing => js "EXECUTING"
  | outcomePending => js "OUTCOME_PENDING"
  | verifiedSuccess => js "VERIFIED_SUCCESS"
  | executionFailed => js "EXECUTION_FAILED"
  | outcomeUnverified => js "OUTCOME_UNVERIFIED"
  | rejected => js "REJECTED"
  | expired => js "EXPIRED"

/-- `CASE_STATES` -/
def all : List CaseState :=
  [draft, submitted, analyzing, actionProposed, awaitingApproval, approved, executing,
    outcomePending, verifiedSuccess, executionFailed, outcomeUnverified, rejected, expired]

end CaseState

/-- `TERMINAL_STATES` -/
def terminalStates : List CaseState :=
  [.verifiedSuccess, .executionFailed, .outcomeUnverified, .rejected, .expired]

inductive CaseEvent where
  | submit | beginAnalysis | proposeAction | requestApproval | approve | reject
  | beginExecution | executionSucceeded | executionFailed | outcomeConfirmed
  | outcomeUnverifiable | expire
deriving DecidableEq, Inhabited

def CaseEvent.text : CaseEvent → Str
  | submit => js "SUBMIT"
  | beginAnalysis => js "BEGIN_ANALYSIS"
  | proposeAction => js "PROPOSE_ACTION"
  | requestApproval => js "REQUEST_APPROVAL"
  | approve => js "APPROVE"
  | reject => js "REJECT"
  | beginExecution => js "BEGIN_EXECUTION"
  | executionSucceeded => js "EXECUTION_SUCCEEDED"
  | executionFailed => js "EXECUTION_FAILED"
  | outcomeConfirmed => js "OUTCOME_CONFIRMED"
  | outcomeUnverifiable => js "OUTCOME_UNVERIFIABLE"
  | expire => js "EXPIRE"

/-- `TRANSITIONS` -/
def transitions : CaseState → List (CaseEvent × CaseState)
  | .draft => [(.submit, .submitted), (.expire, .expired)]
  | .submitted => [(.beginAnalysis, .analyzing), (.expire, .expired)]
  | .analyzing =>
    [(.proposeAction, .actionProposed),
      (.executionFailed, .executionFailed), -- analysis itself can fail
      (.expire, .expired)]
  | .actionProposed => [(.requestApproval, .awaitingApproval), (.expire, .expired)]
  | .awaitingApproval => [(.approve, .approved), (.reject, .rejected), (.expire, .expired)]
  | .approved => [(.beginExecution, .executing), (.expire, .expired)]
  | .executing =>
    [(.executionSucceeded, .outcomePending), (.executionFailed, .executionFailed)]
  | .outcomePending =>
    [(.outcomeConfirmed, .verifiedSuccess), (.outcomeUnverifiable, .outcomeUnverified),
      (.expire, .expired)]
  | .verifiedSuccess => []
  | .executionFailed => []
  | .outcomeUnverified => []
  | .rejected => []
  | .expired => []

def illegalTransitionError (source : CaseState) (event : CaseEvent) : JsError :=
  .error (js "IllegalTransitionError")
    (js "Illegal transition: cannot apply \"" ++ event.text ++ js "\" from state \"" ++
      source.text ++ js "\".")

def applyTransition (source : CaseState) (event : CaseEvent) : Except JsError CaseState :=
  match (transitions source).lookup event with
  | some next => .ok next
  | none => .error (illegalTransitionError source event)

def isTerminal (state : CaseState) : Bool := (transitions state).isEmpty

def legalEvents (state : CaseState) : List CaseEvent := (transitions state).map Prod.fst

/-! ## What a transition can do -/

/-- A transition that does not throw follows the table. -/
theorem mem_of_applyTransition {source next : CaseState} {event : CaseEvent}
    (h : applyTransition source event = .ok next) : (event, next) ∈ transitions source := by
  rw [applyTransition] at h
  split at h
  · rename_i found hlookup
    cases h
    obtain ⟨before, after, htable, -⟩ := List.lookup_eq_some_iff.mp hlookup
    rw [htable]
    exact List.mem_append_right _ List.mem_cons_self
  · cases h

theorem mem_terminalStates_iff {state : CaseState} :
    state ∈ terminalStates ↔ isTerminal state = true := by
  cases state <;> decide

/-- The state an event leads to. -/
def CaseEvent.target : CaseEvent → CaseState
  | submit => .submitted
  | beginAnalysis => .analyzing
  | proposeAction => .actionProposed
  | requestApproval => .awaitingApproval
  | approve => .approved
  | reject => .rejected
  | beginExecution => .executing
  | executionSucceeded => .outcomePending
  | executionFailed => .executionFailed
  | outcomeConfirmed => .verifiedSuccess
  | outcomeUnverifiable => .outcomeUnverified
  | expire => .expired

theorem target_of_mem (source : CaseState) :
    ∀ arrow ∈ transitions source, arrow.2 = arrow.1.target := by
  cases source <;> decide

/-- An event leads to one state, wherever it is applied. -/
theorem target_of_applyTransition {source next : CaseState} {event : CaseEvent}
    (h : applyTransition source event = .ok next) : next = event.target :=
  target_of_mem source _ (mem_of_applyTransition h)

/-- The states an event can be applied in. -/
def CaseEvent.sources (event : CaseEvent) : List CaseState :=
  CaseState.all.filter fun state => (transitions state).any fun arrow => arrow.1 == event

theorem source_of_applyTransition {source next : CaseState} {event : CaseEvent}
    (h : applyTransition source event = .ok next) : source ∈ event.sources := by
  have hmem := mem_of_applyTransition h
  refine List.mem_filter.mpr ⟨?_, List.any_eq_true.mpr ⟨_, hmem, beq_self_eq_true event⟩⟩
  cases source <;> decide

/-- Nothing leaves a terminal state. -/
theorem applyTransition_terminal {source next : CaseState} {event : CaseEvent}
    (hterminal : isTerminal source = true) : applyTransition source event ≠ .ok next := by
  intro h
  have hmem := mem_of_applyTransition h
  rw [List.isEmpty_iff.mp hterminal] at hmem
  cases hmem

/-- How far a case has come. -/
def CaseState.rank : CaseState → Nat
  | draft => 0
  | submitted => 1
  | analyzing => 2
  | actionProposed => 3
  | awaitingApproval => 4
  | approved => 5
  | executing => 6
  | outcomePending => 7
  | verifiedSuccess | executionFailed | outcomeUnverified | rejected | expired => 8

theorem rank_lt_of_mem (source : CaseState) :
    ∀ arrow ∈ transitions source, source.rank < arrow.2.rank := by
  cases source <;> decide

/-- Every move goes up in rank. -/
theorem rank_lt_of_applyTransition {source next : CaseState} {event : CaseEvent}
    (h : applyTransition source event = .ok next) : source.rank < next.rank :=
  rank_lt_of_mem source _ (mem_of_applyTransition h)

/-! ## Later states -/

/-- A legal move. -/
def Arrow (source next : CaseState) : Prop := ∃ event, (event, next) ∈ transitions source

/-- A state that comes later, after one legal move or more. -/
def Later : CaseState → CaseState → Prop := Relation.TransGen Arrow

theorem Later.rank_lt {source next : CaseState} (h : Later source next) :
    source.rank < next.rank := by
  induction h with
  | single harrow =>
    obtain ⟨event, hmem⟩ := harrow
    exact rank_lt_of_mem _ _ hmem
  | tail _ harrow ih =>
    obtain ⟨event, hmem⟩ := harrow
    exact ih.trans (rank_lt_of_mem _ _ hmem)

/-- No state comes later than itself. -/
theorem not_later_self (state : CaseState) : ¬Later state state :=
  fun h => Nat.lt_irrefl _ h.rank_lt

/-- Nothing comes later than a terminal state. -/
theorem not_later_of_terminal {state next : CaseState} (hterminal : isTerminal state = true) :
    ¬Later state next := by
  intro h
  obtain ⟨middle, ⟨event, hmem⟩, -⟩ := Relation.TransGen.head'_iff.mp h
  rw [List.isEmpty_iff.mp hterminal] at hmem
  cases hmem

theorem rejected_source (source : CaseState) :
    ∀ arrow ∈ transitions source, arrow.2 = .rejected → source = .awaitingApproval := by
  cases source <;> decide

/-- A case is rejected from `AWAITING_APPROVAL` only. -/
theorem Later.rejected {source : CaseState} (h : Later source .rejected) :
    source.rank ≤ CaseState.awaitingApproval.rank := by
  obtain ⟨middle, hsource, ⟨event, hmem⟩⟩ := Relation.TransGen.tail'_iff.mp h
  obtain rfl := rejected_source middle _ hmem rfl
  rcases Relation.reflTransGen_iff_eq_or_transGen.mp hsource with rfl | hlater
  · exact Nat.le_refl _
  · exact Nat.le_of_lt (Later.rank_lt hlater)

end Clawback
