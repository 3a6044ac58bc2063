import Clawback.Agent.StoreCalls
import Clawback.Async.Methods

/-!
# The case stores

`BaseCaseStore` with its abstract methods, and `InMemoryCaseStore`, as methods that work on what
the store keeps.

* `exec_create_memory`, `runsTo_getForOwner`, `runsTo_transition`: the programs of the agent over
  the effects of its store do what the methods of `InMemoryCaseStore` do.
-/

namespace Clawback

open Js Async

/-- The abstract methods of a store that keeps a `σ`. -/
structure BaseCaseStore (σ : Type) where
  create : CaseRecord → Method JsError σ Unit
  get : Str → Method JsError σ CaseRecord
  save : CaseRecord → Method JsError σ Unit

/-- A call that a caller of the store makes; a transition reads the clock. -/
inductive CaseStoreCall where
  | create (record : CaseRecord)
  | get (caseId : Str)
  | getForOwner (caseId ownerId : Str)
  | transition (caseId : Str) (event : CaseEvent) (patch : CaseRecord → Except JsError CasePatch)
    (now : Str)

namespace BaseCaseStore

variable {σ : Type} (store : BaseCaseStore σ)

def getForOwner (caseId ownerId : Str) : Method JsError σ CaseRecord := do
  let record ← store.get caseId
  if record.ownerId ≠ ownerId then throw (unauthorizedCaseAccessError caseId)
  else return record

def transition (caseId : Str) (event : CaseEvent)
    (patch : CaseRecord → Except JsError CasePatch) (now : Str) : Method JsError σ CaseRecord := do
  let current ← store.get caseId
  let nextState ← Method.lift (applyTransition current.state event)
  let changes ← Method.lift (patch current)
  let patched := current.patched changes nextState now
  store.save patched
  return patched

/-- A transition of a record that has been found. -/
theorem invoke_transition_of_get {caseId : Str} {event : CaseEvent}
    {patch : CaseRecord → Except JsError CasePatch} {now : Str} {s : σ} {record : CaseRecord}
    (hget : invoke (store.get caseId) s = (.ok record, s)) :
    invoke (store.transition caseId event patch now) s =
      match applyTransition record.state event with
      | .error x => (.error x, s)
      | .ok next => match patch record with
        | .error x => (.error x, s)
        | .ok changes => invoke (do
            store.save (record.patched changes next now)
            return record.patched changes next now) s := by
  unfold transition
  rw [invoke_bind_ok hget]
  cases applyTransition record.state event with
  | error x => exact invoke_bind_error rfl
  | ok next =>
    rw [invoke_bind_ok (invoke_lift _ _)]
    cases patch record with
    | error x => exact invoke_bind_error rfl
    | ok changes => exact invoke_bind_ok (invoke_lift _ _)

/-- What a call returns; `create` returns nothing. -/
def call : CaseStoreCall → Method JsError σ (Option CaseRecord)
  | .create record => do
    store.create record
    return none
  | .get caseId => some <$> store.get caseId
  | .getForOwner caseId ownerId => some <$> store.getForOwner caseId ownerId
  | .transition caseId event patch now => some <$> store.transition caseId event patch now

end BaseCaseStore

/-! ## In memory -/

/-- The records of a store, by case id. -/
abbrev Records := Str → Option CaseRecord

namespace InMemoryCaseStore

/-- `this.records.set(record.caseId, record)` -/
def save (record : CaseRecord) : Method JsError Records Unit :=
  modify fun records c => if c = record.caseId then some record else records c

def get (caseId : Str) : Method JsError Records CaseRecord := do
  match (← MonadState.get) caseId with
  | some record => return record
  | none => throw (caseNotFoundError caseId)

end InMemoryCaseStore

def inMemoryCaseStore : BaseCaseStore Records where
  create := InMemoryCaseStore.save
  get := InMemoryCaseStore.get
  save := InMemoryCaseStore.save

theorem invoke_memory_get (caseId : Str) (records : Records) :
    invoke (InMemoryCaseStore.get caseId) records = match records caseId with
      | some record => (.ok record, records)
      | none => (.error (caseNotFoundError caseId), records) := by
  unfold InMemoryCaseStore.get
  rw [invoke_bind_ok (invoke_get records)]
  cases records caseId <;> rfl

theorem invoke_memory_save (record : CaseRecord) (records : Records) :
    invoke (InMemoryCaseStore.save record) records =
      (.ok (), fun c => if c = record.caseId then some record else records c) := rfl

/-! ## The store of the agent -/

/-- Run alone, with some choices of the environment, the program gives this result and leaves these
records. -/
def RunsTo (p : Action CaseRecord) (w : World) (outcome : Except JsError CaseRecord × Records) :
    Prop :=
  ∃ cs asked q w', caseStore.advance p w cs = some (asked, q, w') ∧
    q.result? = some outcome.1 ∧ w'.store = outcome.2

theorem RunsTo.await {e : Effect} {next : Except JsError e.Answer → Action CaseRecord} {c : Choice}
    {w w₁ : World} {r : Except JsError e.Answer} {outcome : Except JsError CaseRecord × Records}
    (hexec : exec e c w = some (r, w₁)) (h : RunsTo (next r) w₁ outcome) :
    RunsTo (.await e next) w outcome := by
  obtain ⟨cs, asked, q, w', hadvance, hq, hw⟩ := h
  have hexec' : caseStore.exec e c w = some (r, w₁) := hexec
  refine ⟨c :: cs, ⟨w, ⟨e, r⟩, w₁⟩ :: asked, q, w', ?_, hq, hw⟩
  rw [System.advance, hexec']
  dsimp only
  rw [hadvance]
  rfl

theorem RunsTo.ended {p : Action CaseRecord} {w : World} {r : Except JsError CaseRecord}
    (h : p.result? = some r) : RunsTo p w (r, w.store) := by
  refine ⟨[], [], p, w, ?_, h, rfl⟩
  cases p <;> rfl

theorem exec_get_memory (caseId : Str) (w : World) :
    exec (.get caseId) .ok w = some ((invoke (InMemoryCaseStore.get caseId) w.store).1, w) := by
  have hexec : exec (.get caseId) .ok w = match w.store caseId with
      | some record => some (.ok record, w)
      | none => some (.error (caseNotFoundError caseId), w) := rfl
  rw [hexec, invoke_memory_get]
  cases w.store caseId with
  | none => rfl
  | some record => rfl

/-- `create` of the agent's store. -/
theorem exec_create_memory (record : CaseRecord) (w : World) :
    exec (.create record) .ok w = some (.ok (), w.put record) ∧
      invoke (inMemoryCaseStore.create record) w.store = (.ok (), (w.put record).store) :=
  ⟨rfl, rfl⟩

/-- `getForOwner` of the agent's store. -/
theorem runsTo_getForOwner (caseId ownerId : Str) (w : World) :
    RunsTo (getForOwner caseId ownerId) w
      (invoke (inMemoryCaseStore.getForOwner caseId ownerId) w.store) := by
  have hexec := exec_get_memory caseId w
  have hget := invoke_memory_get caseId w.store
  refine RunsTo.await hexec ?_
  cases hfound : w.store caseId with
  | none =>
    rw [hfound] at hget
    have hall : invoke (inMemoryCaseStore.getForOwner caseId ownerId) w.store =
        (.error (caseNotFoundError caseId), w.store) := invoke_bind_error hget
    rw [hall, hget]
    exact RunsTo.ended rfl
  | some record =>
    rw [hfound] at hget
    have hall : invoke (inMemoryCaseStore.getForOwner caseId ownerId) w.store =
        invoke (if record.ownerId ≠ ownerId then throw (unauthorizedCaseAccessError caseId)
          else pure record) w.store := invoke_bind_ok hget
    rw [hall, hget]
    by_cases howner : record.ownerId ≠ ownerId
    · rw [if_pos howner]
      refine RunsTo.ended ?_
      show (if record.ownerId ≠ ownerId then _ else _ : Action CaseRecord).result? = _
      rw [if_pos howner]
      rfl
    · rw [if_neg howner]
      refine RunsTo.ended ?_
      show (if record.ownerId ≠ ownerId then _ else _ : Action CaseRecord).result? = _
      rw [if_neg howner]
      rfl

/-- `transition` of the agent's store, with the time that it reads. -/
theorem runsTo_transition (caseId : Str) (event : CaseEvent)
    (patch : CaseRecord → Except JsError CasePatch) {time : Str} (htime : time ≠ []) (w : World) :
    RunsTo (transition caseId event fun record => Prog.lift (patch record)) w
      (invoke (inMemoryCaseStore.transition caseId event patch time) w.store) := by
  have hexec := exec_get_memory caseId w
  have hget := invoke_memory_get caseId w.store
  refine RunsTo.await hexec ?_
  cases hfound : w.store caseId with
  | none =>
    rw [hfound] at hget
    have hall : invoke (inMemoryCaseStore.transition caseId event patch time) w.store =
        (.error (caseNotFoundError caseId), w.store) := invoke_bind_error hget
    rw [hall, hget]
    exact RunsTo.ended rfl
  | some record =>
    rw [hfound] at hget
    rw [inMemoryCaseStore.invoke_transition_of_get hget, hget]
    show RunsTo ((Prog.lift (applyTransition record.state event)).bind _) w _
    cases applyTransition record.state event with
    | error x => exact RunsTo.ended rfl
    | ok next =>
      show RunsTo ((Prog.lift (patch record)).bind _) w _
      cases patch record with
      | error x => exact RunsTo.ended rfl
      | ok changes =>
        have hnow : exec .now (.text time) w = some (.ok time, w) := if_neg htime
        have hsave : exec (.save (record.patched changes next time)) .ok w =
            some (.ok (), w.put (record.patched changes next time)) := rfl
        exact RunsTo.await hnow (RunsTo.await hsave (RunsTo.ended rfl))

end Clawback
