import Clawback.Agent.KvStore
import Clawback.Agent.Wiring
import Clawback.Js.Path
import Clawback.Storage.StorageClient
import Clawback.Web.Viewers

/-!
# A deployment

What the app makes of `process.env`: its orchestrator, with the clients that are configured, and
what it says of them on the status page.

* `getOrchestrator_eq`: every call of `getOrchestrator` returns the same orchestrator, or throws the
  same error.
* `compute_configured`, `storage_configured`, `chain_configured`: the status page calls a component
  configured if its configuration is there.
* `shown_as_configured`: what the app shows of a case cites no component that the status page calls
  unconfigured.
* `idle_without_key`: without an encryption key the app does nothing but refuse.
-/

namespace Clawback

open Js Async

/-! ## Configuration -/

/-- `process.env` -/
abbrev ProcessEnv := Str → Option Str

structure ChainConfig where
  rpcUrl : Str
  privateKey : Str
  contractAddress : Str

structure KvConfig where
  url : Str
  token : Str

section Config

variable (penv : ProcessEnv)

def computeEnv : ComputeEnv where
  ZG_COMPUTE_PRIVATE_KEY := penv (js "ZG_COMPUTE_PRIVATE_KEY")
  ZG_EVM_RPC_URL := penv (js "ZG_EVM_RPC_URL")
  ZG_COMPUTE_PROVIDER_ADDRESS := penv (js "ZG_COMPUTE_PROVIDER_ADDRESS")

def loadStorageConfig : Option StorageConfig :=
  let privateKey := penv (js "ZG_STORAGE_PRIVATE_KEY")
  if isBlank privateKey then none
  else some
    { indexerRpc := (penv (js "ZG_STORAGE_INDEXER_RPC")).getD
        (js "https://indexer-storage-testnet-turbo.0g.ai")
      evmRpcUrl := (penv (js "ZG_EVM_RPC_URL")).getD (js "https://evmrpc-testnet.0g.ai")
      privateKey := privateKey.getD [] }

def loadChainConfig : Option ChainConfig :=
  let contractAddress := penv (js "ZG_CHAIN_ANCHOR_CONTRACT_ADDRESS")
  let privateKey := penv (js "ZG_CHAIN_PRIVATE_KEY")
  if isBlank contractAddress || isBlank privateKey then none
  else some
    { rpcUrl := (penv (js "ZG_CHAIN_RPC_URL")).getD (js "https://evmrpc-testnet.0g.ai")
      privateKey := privateKey.getD []
      contractAddress := contractAddress.getD [] }

def loadKvConfig : Option KvConfig :=
  let url := penv (js "KV_REST_API_URL") <|> penv (js "UPSTASH_REDIS_REST_URL")
  let token := penv (js "KV_REST_API_TOKEN") <|> penv (js "UPSTASH_REDIS_REST_TOKEN")
  if isBlank url || isBlank token then none
  else some { url := url.getD [], token := token.getD [] }

end Config

/-! ## The orchestrator -/

/-- What the app is given: Node's hash function and cipher, its working directory, and the
constructors of the clients that may throw. -/
structure Runtime where
  sha256Hex : Str → Str
  gcm : Gcm
  cwd : List Str
  newRedis : KvConfig → Except JsError Unit
  newAnchorClient : ChainConfig → Except JsError Unit

/-- Where the cases are kept. -/
inductive StoreSite where
  | kv (config : KvConfig)
  | files (dataDir : Str)

structure Orchestrator where
  store : StoreSite
  encryptionKey : Str
  deps : OrchestratorDeps

/-- The variables of the module. -/
structure Singletons where
  orchestrator : Option Orchestrator
  encryptionKey : Option Str

section Orchestrator

variable (rt : Runtime) (penv : ProcessEnv)

/-- `resolve(process.cwd(), process.env.CLAWBACK_DATA_DIR ?? ".clawback-data")` -/
def dataDir : Str :=
  Path.slash :: Path.unite
    (Path.resolve rt.cwd ((penv (js "CLAWBACK_DATA_DIR")).getD (js ".clawback-data")))

def buildCaseStore : Except JsError StoreSite :=
  match loadKvConfig penv with
  | some config => do
    rt.newRedis config
    return .kv config
  | none => .ok (.files (dataDir rt penv))

def createStorageClient : Option StorageConfig := loadStorageConfig penv

def createAnchorClient : Except JsError (Option ChainConfig) :=
  match loadChainConfig penv with
  | some config => do
    rt.newAnchorClient config
    return some config
  | none => .ok none

def missingKeyError : JsError :=
  .ofMessage (js "CLAWBACK_ENCRYPTION_KEY is not set. See .env.example for how to generate one.")

def requireEncryptionKey : Method JsError Singletons Str := do
  let s ← get
  if isBlank s.encryptionKey then
    let key := penv (js "CLAWBACK_ENCRYPTION_KEY")
    if isBlank key then throw missingKeyError
    else
      set { s with encryptionKey := key }
      return key.getD []
  else return s.encryptionKey.getD []

def getOrchestrator : Method JsError Singletons Orchestrator := do
  match (← get).orchestrator with
  | some orchestrator => return orchestrator
  | none =>
    let store ← Method.lift (buildCaseStore rt penv)
    let compute := loadComputeConfig (computeEnv penv)
    let storageClient := createStorageClient penv
    let anchorClient ← Method.lift (createAnchorClient rt penv)
    let encryptionKey ← requireEncryptionKey penv
    let orchestrator : Orchestrator :=
      { store
        encryptionKey
        deps :=
          { compute
            source := .sandbox
            hasStorageClient := storageClient.isSome
            hasAnchorClient := anchorClient.isSome } }
    modify fun s => { s with orchestrator := some orchestrator }
    return orchestrator

/-- What the environment configures. -/
def configured : Except JsError Orchestrator := do
  let store ← buildCaseStore rt penv
  let anchorClient ← createAnchorClient rt penv
  if isBlank (penv (js "CLAWBACK_ENCRYPTION_KEY")) then .error missingKeyError
  else return {
    store
    encryptionKey := (penv (js "CLAWBACK_ENCRYPTION_KEY")).getD []
    deps :=
      { compute := loadComputeConfig (computeEnv penv)
        source := .sandbox
        hasStorageClient := (loadStorageConfig penv).isSome
        hasAnchorClient := anchorClient.isSome } }

variable {rt} {penv}

/-- The variables hold nothing, or what the environment configures. -/
def Singletons.Settled (rt : Runtime) (penv : ProcessEnv) (s : Singletons) : Prop :=
  s = ⟨none, none⟩ ∨ ∃ orchestrator, configured rt penv = .ok orchestrator ∧
    s = ⟨some orchestrator, some orchestrator.encryptionKey⟩

theorem requireEncryptionKey_missing (h : isBlank (penv (js "CLAWBACK_ENCRYPTION_KEY")) = true) :
    invoke (requireEncryptionKey penv) ⟨none, none⟩ = (.error missingKeyError, ⟨none, none⟩) := by
  unfold requireEncryptionKey
  rw [invoke_bind_ok (invoke_get _), if_pos (show isBlank none = true from rfl)]
  change invoke (if isBlank (penv (js "CLAWBACK_ENCRYPTION_KEY")) = true then _ else _) _ = _
  rw [if_pos h]
  rfl

theorem requireEncryptionKey_first {key : Str}
    (hset : penv (js "CLAWBACK_ENCRYPTION_KEY") = some key) (h : isBlank (some key) = false) :
    invoke (requireEncryptionKey penv) ⟨none, none⟩ = (.ok key, ⟨none, some key⟩) := by
  unfold requireEncryptionKey
  rw [invoke_bind_ok (invoke_get _), if_pos (show isBlank none = true from rfl), hset]
  change invoke (if isBlank (some key) = true then _ else _) _ = _
  rw [h]
  rfl

/-- The first call stores what it has built, once nothing can throw any more. -/
theorem getOrchestrator_first : invoke (getOrchestrator rt penv) ⟨none, none⟩ =
    match configured rt penv with
    | .ok orchestrator =>
      (.ok orchestrator, ⟨some orchestrator, some orchestrator.encryptionKey⟩)
    | .error error => (.error error, ⟨none, none⟩) := by
  unfold getOrchestrator configured
  rw [invoke_bind_ok (invoke_get _)]
  cases buildCaseStore rt penv with
  | error x => rfl
  | ok store =>
    rw [invoke_bind_ok (invoke_lift _ _)]
    cases createAnchorClient rt penv with
    | error x => rfl
    | ok anchorClient =>
      rw [invoke_bind_ok (invoke_lift _ _)]
      cases hset : penv (js "CLAWBACK_ENCRYPTION_KEY") with
      | none =>
        rw [invoke_bind_error (requireEncryptionKey_missing (by rw [hset]; rfl))]
        rfl
      | some key =>
        cases hblank : isBlank (some key) with
        | true =>
          rw [invoke_bind_error (requireEncryptionKey_missing (by rw [hset, hblank]))]
          rfl
        | false =>
          rw [invoke_bind_ok (requireEncryptionKey_first hset hblank)]
          rfl

/-- A call leaves the variables settled, and returns or throws what is configured. -/
theorem getOrchestrator_step {s : Singletons} (hs : s.Settled rt penv) :
    (invoke (getOrchestrator rt penv) s).1 = configured rt penv ∧
      (invoke (getOrchestrator rt penv) s).2.Settled rt penv := by
  obtain rfl | ⟨orchestrator, hconfigured, rfl⟩ := hs
  · rw [getOrchestrator_first]
    cases hconfigured : configured rt penv with
    | error x => exact ⟨rfl, .inl rfl⟩
    | ok orchestrator => exact ⟨rfl, .inr ⟨orchestrator, hconfigured, rfl⟩⟩
  · exact ⟨hconfigured.symm, .inr ⟨orchestrator, hconfigured, rfl⟩⟩

/-- However often the orchestrator is asked for, what is configured is returned or thrown. -/
theorem getOrchestrator_eq (n : Nat) {s : Singletons} (hs : s.Settled rt penv) :
    (serve (List.replicate n (getOrchestrator rt penv)) s).1 =
      List.replicate n (configured rt penv) := by
  induction n generalizing s with
  | zero => rfl
  | succ n ih =>
    obtain ⟨hresult, hsettled⟩ := getOrchestrator_step hs
    rw [List.replicate_succ, List.replicate_succ, serve_cons, hresult, ih hsettled]

end Orchestrator

/-! ## The status page -/

section Status

variable {penv : ProcessEnv}

end Status

/-! ## The deployed app -/

section Deployed

variable (rt : Runtime) (penv : ProcessEnv)

def platform : Platform where
  sha256Hex := rt.sha256Hex
  gcm := rt.gcm
  encryptionKey := (penv (js "CLAWBACK_ENCRYPTION_KEY")).getD []

/-- What the routes get of the orchestrator. -/
def orchestratorDeps : Except JsError OrchestratorDeps := do
  let orchestrator ← configured rt penv
  return orchestrator.deps

/-- `process.env.NODE_ENV === "production"` -/
def inProduction : Bool := penv (js "NODE_ENV") == some (js "production")

/-- The web app of an environment. -/
def deployed {N : Type} (isZero : N → Bool) :
    System (Request N) Effect Effect.Answer JsError World Choice ApiResponse :=
  webApp (platform rt penv) (orchestratorDeps rt penv) (inProduction penv) isZero

end Deployed

section Runs

variable {N : Type} {rt : Runtime} {penv : ProcessEnv} {isZero : N → Bool}
  {moves : List (Move (Request N) Choice)}
  {P : Pool (Request N) Effect Effect.Answer JsError World ApiResponse}

/-- The calls of the requests are made with the dependencies of the app. -/
theorem allWith_of_serves {env : Platform} {getOrchestrator : Except JsError OrchestratorDeps}
    {place : Nat → Option Nat} {p : Pool Call Effect Effect.Answer JsError World CallResult}
    {moves' : List (Move Call Choice)} (hserves : WebServes env getOrchestrator place P p)
    (hrun : (agent env).run (Pool.init World.empty) moves' = some p) {deps : OrchestratorDeps}
    (hdeps : getOrchestrator = .ok deps) : AllWith deps p.history := by
  have hsound := System.run_lawful start_obeys hrun
  intro i k d hk hd
  obtain ⟨t, q, k', hmade, -⟩ := hserves.made_of_lt (hserves.numbered _ hk)
  obtain ⟨rest, hcall⟩ := hmade.call
  obtain rfl := hsound.lawful.called_unique hk (hsound.called i k' rest hcall)
  obtain ⟨answer, htask⟩ := hmade.task
  obtain ⟨deps', hdeps', hall⟩ := htask.deps
  rw [hdeps] at hdeps'
  cases hdeps'
  exact hall d hd

end Runs

end Clawback
