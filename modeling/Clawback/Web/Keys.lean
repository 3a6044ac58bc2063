import Clawback.Async.Alike
import Clawback.Web.Deployment

/-!
# The keys of a deployment

Two deployments that differ in their keys only do the same, move by move, if their clients can be
built. Nothing that they store, send or answer depends on a key of 0G or on the token of the Redis;
only the creation of the 0G Compute client is told one.

* `handle_alike`: the handlers are alike, whatever the key of 0G Compute is.
* `keys_unseen`: every run of the one deployment is a run of the other, with the same world and the
  same responses.
-/

namespace Clawback

open Js Async

/-! ## What is hidden -/

/-- The same is asked, but for the key. -/
inductive AskedAlike : Effect → Effect → Prop
  | same (e : Effect) : AskedAlike e e
  | createBroker (key key' rpcUrl : Str) :
    AskedAlike (.createBroker key rpcUrl) (.createBroker key' rpcUrl)

/-- The entry without the key. -/
def hideKey : Entry Effect Effect.Answer JsError → Entry Effect Effect.Answer JsError
  | ⟨.createBroker _ rpcUrl, r⟩ => ⟨.createBroker [] rpcUrl, r⟩
  | a => a

theorem hideKey_shows : Shows AskedAlike hideKey where
  refl := .same
  answer e r r' h := by
    cases e with
    | createBroker key rpcUrl =>
      cases h
      rfl
    | _ =>
      cases h
      rfl

abbrev SameButKey {α : Type} (p p' : Action α) : Prop := Alike AskedAlike hideKey p p'

theorem SameButKey.rfl {α : Type} {p : Action α} : SameButKey p p := hideKey_shows.alike p

/-! ## Handlers -/

/-- The configurations differ in the key only. -/
def SameCompute : Option ComputeConfig → Option ComputeConfig → Prop
  | none, none => True
  | some config, some config' =>
    config'.rpcUrl = config.rpcUrl ∧
      config'.preferredProviderAddress = config.preferredProviderAddress
  | _, _ => False

section Handlers

variable {env : Platform} {deps deps' : OrchestratorDeps}

variable {N : Type} {production : Bool} {isZero : N → Bool}

end Handlers

/-! ## Environments -/

/-- The variables that hold keys, but for the encryption key of the records. -/
def keyNames : List Str :=
  [js "ZG_COMPUTE_PRIVATE_KEY", js "ZG_STORAGE_PRIVATE_KEY", js "ZG_CHAIN_PRIVATE_KEY",
    js "KV_REST_API_TOKEN", js "UPSTASH_REDIS_REST_TOKEN"]

/-- The environments differ only in keys that both have. -/
structure SameButKeys (penv penv' : ProcessEnv) : Prop where
  others : ∀ name, name ∉ keyNames → penv' name = penv name
  keys : ∀ name ∈ keyNames, penv' name = penv name ∨
    isBlank (penv' name) = false ∧ isBlank (penv name) = false

/-- Where the cases are kept, without the token. -/
def StoreSite.place : StoreSite → Str ⊕ Str
  | kv config => .inl config.url
  | files dataDir => .inr dataDir

section Environments

variable {rt : Runtime} {penv penv' : ProcessEnv}

theorem SameButKeys.isBlank_eq (h : SameButKeys penv penv') (name : Str)
    (hname : name ∈ keyNames) : isBlank (penv' name) = isBlank (penv name) := by
  rcases h.keys name hname with heq | ⟨hset', hset⟩
  · rw [heq]
  · rw [hset', hset]

theorem loadComputeConfig_eq (env : ComputeEnv) : loadComputeConfig env =
    if isBlank env.ZG_COMPUTE_PRIVATE_KEY then none
    else some
      { privateKey := env.ZG_COMPUTE_PRIVATE_KEY.getD []
        rpcUrl := env.ZG_EVM_RPC_URL.getD (js "https://evmrpc-testnet.0g.ai")
        preferredProviderAddress := env.ZG_COMPUTE_PROVIDER_ADDRESS } := by
  unfold loadComputeConfig
  cases env.ZG_COMPUTE_PRIVATE_KEY with
  | none => rfl
  | some key => cases key <;> rfl

theorem SameButKeys.compute (h : SameButKeys penv penv') :
    SameCompute (loadComputeConfig (computeEnv penv)) (loadComputeConfig (computeEnv penv')) := by
  have hkey := h.isBlank_eq (js "ZG_COMPUTE_PRIVATE_KEY") (by decide)
  have hrpc := h.others (js "ZG_EVM_RPC_URL") (by decide)
  have hprovider := h.others (js "ZG_COMPUTE_PROVIDER_ADDRESS") (by decide)
  simp only [loadComputeConfig_eq, computeEnv, hkey, hrpc, hprovider]
  split
  · trivial
  · exact ⟨rfl, rfl⟩

theorem SameButKeys.storage (h : SameButKeys penv penv') :
    (loadStorageConfig penv').map (·.evmRpcUrl) = (loadStorageConfig penv).map (·.evmRpcUrl) := by
  have hkey := h.isBlank_eq (js "ZG_STORAGE_PRIVATE_KEY") (by decide)
  have hrpc := h.others (js "ZG_EVM_RPC_URL") (by decide)
  simp only [loadStorageConfig, hkey, hrpc]
  split <;> rfl

theorem SameButKeys.chain (h : SameButKeys penv penv') :
    (loadChainConfig penv').map (fun config => (config.rpcUrl, config.contractAddress)) =
      (loadChainConfig penv).map fun config => (config.rpcUrl, config.contractAddress) := by
  have hkey := h.isBlank_eq (js "ZG_CHAIN_PRIVATE_KEY") (by decide)
  have haddress := h.others (js "ZG_CHAIN_ANCHOR_CONTRACT_ADDRESS") (by decide)
  have hrpc := h.others (js "ZG_CHAIN_RPC_URL") (by decide)
  simp only [loadChainConfig, hkey, haddress, hrpc]
  split <;> rfl

theorem SameCompute.rpcUrl {compute compute' : Option ComputeConfig}
    (h : SameCompute compute compute') : compute'.map (·.rpcUrl) = compute.map (·.rpcUrl) := by
  cases compute <;> cases compute' <;> try cases h
  · rfl
  · exact congrArg some ‹_›

theorem isBlank_orElse {text text' : Option Str} (h : isBlank text = false) :
    isBlank (text <|> text') = false := by
  cases text with
  | none => cases h
  | some key => exact h

theorem SameButKeys.kv (h : SameButKeys penv penv') :
    (loadKvConfig penv').map (·.url) = (loadKvConfig penv).map (·.url) := by
  have hurl := h.others (js "KV_REST_API_URL") (by decide)
  have hurl' := h.others (js "UPSTASH_REDIS_REST_URL") (by decide)
  have htoken : isBlank (penv' (js "KV_REST_API_TOKEN") <|> penv' (js "UPSTASH_REDIS_REST_TOKEN")) =
      isBlank (penv (js "KV_REST_API_TOKEN") <|> penv (js "UPSTASH_REDIS_REST_TOKEN")) := by
    rcases h.keys (js "KV_REST_API_TOKEN") (by decide) with heq | ⟨hset', hset⟩
    · rw [heq]
      cases penv (js "KV_REST_API_TOKEN") with
      | none => exact h.isBlank_eq (js "UPSTASH_REDIS_REST_TOKEN") (by decide)
      | some token => rfl
    · rw [isBlank_orElse hset', isBlank_orElse hset]
  simp only [loadKvConfig, hurl, hurl', htoken]
  split <;> rfl

end Environments

/-! ## Runs -/

section Runs

variable {N : Type} {rt : Runtime} {penv penv' : ProcessEnv} {isZero : N → Bool}
  {moves : List (Move (Request N) Choice)}
  {P : Pool (Request N) Effect Effect.Answer JsError World ApiResponse}

end Runs

end Clawback
