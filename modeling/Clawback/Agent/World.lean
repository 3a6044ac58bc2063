import Clawback.Agent.CaseRecord
import Clawback.Async.Trace

/-!
# Effects of the agent

What the program asks of its surroundings, one effect for each await and for each reading
of the clock or of random numbers, and how the surroundings answer.

The environment makes a `Choice` at every effect. The store and the ledger do what
`InMemoryCaseStore` and `LocalSettlementLedger` do, or fail and change nothing; a random
UUID has not been drawn before; everything else may answer anything of its type or fail.
A store or a ledger that carries a call out and then rejects it, as a remote one does when its
answer is lost, is outside the model: "with failures at any step" is about calls that are not
carried out.

* `answered_of_exec`: all that can happen at an effect.
-/

namespace Clawback

open Js Async

/-! ## What is asked -/

/-- An entry of the service list of 0G Compute. -/
structure ComputeService where
  provider : Str
  verifiability : Str
deriving DecidableEq, Inhabited

structure ServiceMetadata where
  endpoint : Str
  model : Str
deriving DecidableEq, Inhabited

/-- A response of the compute provider; `resKey` is the header `ZG-Res-Key`. -/
structure HttpResponse where
  ok : Bool
  status : Nat
  resKey : Option Str
deriving DecidableEq, Inhabited

structure ProviderActionRequest where
  caseId : Str
  input : SubscriptionCaseInput
  exactMessage : Str
deriving DecidableEq, Inhabited

structure ProviderActionResult where
  outcomeType : OutcomeType
  counterpartyConfirmation : Option Str
  claimedSavingsCents : Int
  source : Environment
deriving DecidableEq, Inhabited

structure StoredArtifact where
  rootHash : Str
  txHash : Str
deriving DecidableEq, Inhabited

structure AnchorResult where
  txHash : Str
  blockNumber : Option Nat
deriving DecidableEq, Inhabited

inductive Effect where
  /-- `randomUUID()` -/
  | randomUUID
  /-- `new Date().toISOString()` -/
  | now
  | randomBytes (size : Nat)
  -- the case store
  | create (record : CaseRecord)
  | get (caseId : Str)
  | save (record : CaseRecord)
  /-- The record of a case is written as JSON text and read back. -/
  | reload (caseId : Str)
  -- 0G Compute
  | createBroker (privateKey rpcUrl : Str)
  | listService
  | getLedger
  | transferFund (provider : Str) (neuron : Nat)
  | getServiceMetadata (provider : Str)
  | getRequestHeaders (provider : Str)
  | fetch (url : Str) (headers : List (Str × Str)) (body : Str)
  | responseText
  | responseJson
  | processResponse (provider : Str) (chatId : Value Int) (usage : Str)
  -- the merchant, storage, chain and ledger
  | sendAction (request : ProviderActionRequest)
  | uploadJson (receipt : ClawbackReceipt)
  | anchorReceipt (caseId receiptCommitment : Str) (previousCommitment : Option Str)
  | assessFee (caseId : Str) (fee : FeeCalculation)

/-- What an effect answers. -/
@[reducible] def Effect.Answer : Effect → Type
  | randomUUID => Str
  | now => Str
  | randomBytes _ => Bytes
  | create _ => Unit
  | get _ => CaseRecord
  | save _ => Unit
  | reload _ => Unit
  | createBroker _ _ => Unit
  | listService => List ComputeService
  | getLedger => Unit
  | transferFund _ _ => Unit
  | getServiceMetadata _ => ServiceMetadata
  | getRequestHeaders _ => List (Str × Str)
  | fetch _ _ _ => HttpResponse
  | responseText => Str
  | responseJson => Value Int
  | processResponse _ _ _ => Option Bool
  | sendAction _ => ProviderActionResult
  | uploadJson _ => StoredArtifact
  | anchorReceipt _ _ _ => AnchorResult
  | assessFee _ _ => SettlementRecord

/-- A program of the agent. -/
abbrev Action := Prog Effect Effect.Answer JsError

/-- What a call has done. -/
abbrev CallTrace := Trace Effect Effect.Answer JsError

def newId (pre : Str) : Action Str := do
  let uuid ← Prog.perform Effect.randomUUID
  return pre ++ js "_" ++ uuid

def now : Action Str := Prog.perform Effect.now

/-! ## What is answered -/

structure World where
  store : Str → Option CaseRecord
  ledger : Str → Option SettlementRecord
  drawn : List Str

namespace World

def empty : World := ⟨fun _ => none, fun _ => none, []⟩

/-- `this.records.set(record.caseId, record)` -/
def put (w : World) (record : CaseRecord) : World :=
  { w with store := fun c => if c = record.caseId then some record else w.store c }

end World

def caseNotFoundError (caseId : Str) : JsError :=
  .error (js "CaseNotFoundError") (js "No case found with id " ++ caseId ++ js ".")

/-- A record after `JSON.parse(JSON.stringify(record, null, 2))`. -/
def reloaded (record : CaseRecord) : Option CaseRecord :=
  Codec.ofText (N := Int) (Json.stringifyIndented (toJson record : Json Int))

/-- What the environment decides at an effect. -/
inductive Choice where
  | ok
  | fail (error : JsError)
  | text (s : Str)
  | bytes (b : Bytes)
  | services (services : List ComputeService)
  | metadata (metadata : ServiceMetadata)
  | headers (headers : List (Str × Str))
  | response (response : HttpResponse)
  | json (value : Value Int)
  | verdict (isValid : Option Bool)
  | sent (result : ProviderActionResult)
  | stored (artifact : StoredArtifact)
  | anchored (result : AnchorResult)

/-- The effects that may fail. -/
def Effect.mayFail : Effect → Bool
  | randomUUID | now | randomBytes _ | reload _ => false
  | _ => true

/-- What an effect that does not fail answers, and the world after it. -/
def succeed (w : World) : (e : Effect) → Choice → Option (Except JsError e.Answer × World)
  | .randomUUID, .text uuid =>
    if uuid ∈ w.drawn then none else some (.ok uuid, { w with drawn := uuid :: w.drawn })
  | .now, .text time => if time = [] then none else some (.ok time, w)
  | .randomBytes size, .bytes b => if b.length = size then some (.ok b, w) else none
  | .create record, .ok => some (.ok (), w.put record)
  | .get caseId, .ok =>
    match w.store caseId with
    | some record => some (.ok record, w)
    | none => some (.error (caseNotFoundError caseId), w)
  | .save record, .ok => some (.ok (), w.put record)
  | .reload caseId, .ok =>
    some (.ok (), { w with
      store := fun c => if c = caseId then (w.store caseId).bind reloaded else w.store c })
  | .createBroker _ _, .ok => some (.ok (), w)
  | .listService, .services services => some (.ok services, w)
  | .getLedger, .ok => some (.ok (), w)
  | .transferFund _ _, .ok => some (.ok (), w)
  | .getServiceMetadata _, .metadata metadata => some (.ok metadata, w)
  | .getRequestHeaders _, .headers headers => some (.ok headers, w)
  | .fetch _ _ _, .response response => some (.ok response, w)
  | .responseText, .text text => some (.ok text, w)
  | .responseJson, .json value => some (.ok value, w)
  | .processResponse _ _ _, .verdict isValid => some (.ok isValid, w)
  | .sendAction _, .sent result => some (.ok result, w)
  | .uploadJson _, .stored artifact => some (.ok artifact, w)
  | .anchorReceipt _ _ _, .anchored result => some (.ok result, w)
  | .assessFee caseId fee, .text time =>
    let record := assessedRecord caseId fee time
    some (.ok record,
      { w with ledger := fun c => if c = caseId then some record else w.ledger c })
  | _, _ => none

/-- The answer of an effect, and the world after it; `none` when the environment cannot
make this choice. An effect that fails has not taken place. -/
def exec (e : Effect) (c : Choice) (w : World) : Option (Except JsError e.Answer × World) :=
  match c with
  | .fail error => if e.mayFail then some (.error error, w) else none
  | c => succeed w e c

/-- The effects that are answered from outside and leave the world as it is. -/
def Effect.isExternal : Effect → Bool
  | createBroker _ _ | listService | getLedger | transferFund _ _ | getServiceMetadata _ => true
  | getRequestHeaders _ | fetch _ _ _ | responseText | responseJson => true
  | processResponse _ _ _ | sendAction _ | uploadJson _ | anchorReceipt _ _ _ => true
  | _ => false

/-- All that can happen at an effect. -/
inductive Answered (w : World) : (e : Effect) → Except JsError e.Answer → World → Prop
  | failed {e : Effect} {error : JsError} : Answered w e (.error error) w
  | drawn {uuid : Str} : uuid ∉ w.drawn →
    Answered w .randomUUID (.ok uuid) { w with drawn := uuid :: w.drawn }
  | now {time : Str} : time ≠ [] → Answered w .now (.ok time) w
  | randomBytes {size : Nat} {b : Bytes} : b.length = size →
    Answered w (.randomBytes size) (.ok b) w
  | created {record : CaseRecord} : Answered w (.create record) (.ok ()) (w.put record)
  | got {caseId : Str} {record : CaseRecord} : w.store caseId = some record →
    Answered w (.get caseId) (.ok record) w
  | saved {record : CaseRecord} : Answered w (.save record) (.ok ()) (w.put record)
  | reloaded {caseId : Str} : Answered w (.reload caseId) (.ok ()) { w with
      store := fun c => if c = caseId then (w.store caseId).bind reloaded else w.store c }
  | assessed {caseId : Str} {fee : FeeCalculation} {record : SettlementRecord} :
    Answered w (.assessFee caseId fee) (.ok record) { w with
      ledger := fun c => if c = caseId then some record else w.ledger c }
  | external {e : Effect} {a : e.Answer} : e.isExternal = true → Answered w e (.ok a) w

theorem answered_of_succeed {e : Effect} {c : Choice} {w w' : World}
    {r : Except JsError e.Answer} (h : succeed w e c = some (r, w')) : Answered w e r w' := by
  rw [succeed.eq_def] at h
  split at h
  case h_1 =>
    split at h
    · cases h
    · rename_i hfresh
      cases h
      exact .drawn hfresh
  case h_2 =>
    split at h
    · cases h
    · rename_i htime
      cases h
      exact .now htime
  case h_3 =>
    split at h
    · rename_i hlength
      cases h
      exact .randomBytes hlength
    · cases h
  case h_5 =>
    split at h
    · rename_i hfound
      cases h
      exact .got hfound
    · cases h
      exact .failed
  case h_4 | h_6 | h_7 | h_21 =>
    cases h
    constructor
  all_goals
    cases h
    try exact .external rfl

theorem answered_of_exec {e : Effect} {c : Choice} {w w' : World}
    {r : Except JsError e.Answer} (h : exec e c w = some (r, w')) : Answered w e r w' := by
  cases c with
  | fail error =>
    simp only [exec] at h
    split at h
    · cases h
      exact .failed
    · cases h
  | _ => exact answered_of_succeed h

/-! ## Quiet programs -/

/-- The effects that neither read nor change a record, and reach no merchant. -/
def Effect.isQuiet : Effect → Bool
  | create _ | get _ | save _ | reload _ | sendAction _ => false
  | _ => true

/-- The effects of 0G Compute. -/
def Effect.isCompute : Effect → Bool
  | createBroker _ _ | listService | getLedger | transferFund _ _ | getServiceMetadata _ => true
  | getRequestHeaders _ | fetch _ _ _ | responseText | responseJson => true
  | processResponse _ _ _ => true
  | _ => false

/-- The effects of an analysis. -/
def Effect.isAnalysis : Effect → Bool
  | now => true
  | e => e.isCompute

/-- The clock and the random numbers. -/
def Effect.isLocal : Effect → Bool
  | randomUUID | now | randomBytes _ => true
  | _ => false

theorem Effect.isQuiet_of_isLocal {e : Effect} (h : e.isLocal = true) : e.isQuiet = true := by
  cases e <;> first | rfl | cases h

theorem Effect.isAnalysis_of_isCompute {e : Effect} (h : e.isCompute = true) :
    e.isAnalysis = true := by
  cases e <;> first | rfl | cases h

theorem Effect.isQuiet_of_isAnalysis {e : Effect} (h : e.isAnalysis = true) :
    e.isQuiet = true := by
  cases e <;> first | rfl | cases h

/-- A program that does only quiet things and returns only values in `Q`. -/
abbrev Quietly {α : Type} (Q : α → Prop) : Action α → Prop :=
  Only (fun e => e.isQuiet = true) Q

theorem perform_quietly {e : Effect} (he : e.isQuiet = true) :
    Quietly (fun _ => True) (Prog.perform e) := Only.perform he

theorem now_quietly : Quietly (fun _ => True) now := perform_quietly rfl

end Clawback
