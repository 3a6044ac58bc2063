import Clawback.Agent.World
import Clawback.Shared.Commitment

/-!
# Attested compute

`ComputeClient.analyze` and what it calls: the local fallback, the choice of a provider and
the chat with it. The SDK and the HTTP endpoint are effects; a response body is any JSON
value.

* `analyze_quietly`: an analysis touches no record and reaches no merchant, and its result
  commits to the input and to the message it returns.
-/

namespace Clawback

open Js Async

structure ComputeConfig where
  privateKey : Str
  rpcUrl : Str
  preferredProviderAddress : Option Str
deriving DecidableEq, Inhabited

/-- The environment variables `loadComputeConfig` reads. -/
structure ComputeEnv where
  ZG_COMPUTE_PRIVATE_KEY : Option Str
  ZG_EVM_RPC_URL : Option Str
  ZG_COMPUTE_PROVIDER_ADDRESS : Option Str

def loadComputeConfig (env : ComputeEnv) : Option ComputeConfig :=
  match env.ZG_COMPUTE_PRIVATE_KEY with
  | none => none
  | some privateKey =>
    if privateKey = [] then none
    else some
      { privateKey
        rpcUrl := env.ZG_EVM_RPC_URL.getD (js "https://evmrpc-testnet.0g.ai")
        preferredProviderAddress := env.ZG_COMPUTE_PROVIDER_ADDRESS }

/-! ## The local fallback and the prompt -/

def generateFallbackMessage (input : SubscriptionCaseInput) : Str :=
  js "Hello,\n\n" ++
    js "I am writing regarding my " ++ input.merchantName ++ js " account ending in " ++
    input.accountIdentifierLast4 ++ js ". " ++ input.subscriptionDetails ++ js "\n\n" ++
    input.desiredOutcome ++ js "\n\n" ++
    js "Please confirm this request in writing and let me know the reference number for my case.\n\n" ++
    js "Thank you."

structure AnalysisPrompt where
  system : Str
  user : Str

def buildAnalysisPrompt (input : SubscriptionCaseInput) : AnalysisPrompt where
  system :=
    js "You are a firm, factual, professional consumer advocate drafting a single message a customer will send to a subscription provider. " ++
    js "Write ONLY the message itself — no preamble, no explanation, no markdown. " ++
    js "Be specific, cite the account details given, state the desired outcome clearly, and keep it under 120 words."
  user := join (js "\n")
    [js "Merchant: " ++ input.merchantName,
      js "Account ending: " ++ input.accountIdentifierLast4,
      js "Subscription details: " ++ input.subscriptionDetails,
      js "Desired outcome: " ++ input.desiredOutcome]

/-! ## The attested chat -/

/-- `s.toLowerCase()`, as far as it decides whether a text is the address of a provider. These
are ASCII texts, and beside the capital letters of ASCII only the Kelvin sign is lowered to an
ASCII letter. -/
def toLowerCase (s : Str) : Str :=
  s.map fun c =>
    if 65 ≤ c.toNat ∧ c.toNat ≤ 90 then c + 32
    else if c.toNat = 0x212A then 107
    else c

/-- Picks a provider that offers TEE verifiability. -/
def selectProvider (preferredAddress : Option Str) : Action Str := do
  let services ← Prog.perform Effect.listService
  let verifiable := services.filter fun s => !s.verifiability.isEmpty
  let preferred := preferredAddress.bind fun address =>
    if address = [] then none
    else verifiable.find? fun s => toLowerCase s.provider == toLowerCase address
  match preferred <|> verifiable.head? with
  | some service => return service.provider
  | none => Prog.throw (.ofMessage
      (js "No TEE-verifiable 0G Compute providers are currently available. " ++
        js "Clawback refuses to fall back to a non-verifiable provider for sensitive analysis."))

/-- `DEFAULT_TOPUP_NEURON`, 0.001 0G -/
def defaultTopupNeuron : Nat := 10 ^ 15

def ensureFunded (providerAddress : Str) : Action Unit := do
  match ← (Prog.perform Effect.getLedger : Action Unit).attempt with
  | .ok _ => Prog.perform (Effect.transferFund providerAddress defaultTopupNeuron)
  | .error _ => Prog.throw (.ofMessage
      (js "No 0G Compute ledger exists for this wallet yet. Fund it first with " ++
        js "broker.ledger.addLedger(<balance>) using a wallet that holds 0G testnet tokens."))

structure AttestedChatResult where
  content : Value Int
  providerAddress : Str
  model : Str
  chatId : Value Int
  isValid : Option Bool

/-- `Boolean(value)` -/
def truthy (v : Value Int) : Bool :=
  match v.json with
  | .null => false
  | .bool b => b
  | .num n => n != 0
  | .str s => !s.isEmpty
  | .arr _ => true
  | .obj _ => true

/-- `value === null` or `undefined` -/
def nullish (v : Option (Value Int)) : Bool :=
  match v with
  | none => true
  | some w => match w.json with
    | .null => true
    | _ => false

/-- `data[key]`, which throws when `data` is `null`. -/
def readMember (key : Str) (data : Value Int) : Except JsError (Option (Value Int)) :=
  if nullish (some data) then
    .error (.error (js "TypeError")
      (js "Cannot read properties of null (reading '" ++ key ++ js "')"))
  else .ok (data.get? key)

/-- `data.choices?.[0]?.message?.content ?? ""` behind `data.choices`. -/
def choiceContent (choices : Option (Value Int)) : Value Int :=
  let first := choices.bind fun v => v.element? 0 <|> v.get? (js "0")
  let content := (first.bind (·.get? (js "message"))).bind (·.get? (js "content"))
  if nullish content then .ofStr [] else content.getD .null

/-- The chat id: the header `ZG-Res-Key`, or else `data.id`. -/
def readChatId (resKey : Option Str) (data : Value Int) : Except JsError (Value Int) :=
  match resKey with
  | some key => .ok (.ofStr key)
  | none => (readMember (js "id") data).map fun id => id.getD .null

/-- `data.usage ? JSON.stringify(data.usage) : ""` -/
def usageContent (data : Value Int) : Str :=
  match data.get? (js "usage") with
  | some usage => if truthy usage then Json.stringify usage.json else []
  | none => []

/-- `chatID ? await processResponse(...) : null` -/
def checkResponse (providerAddress : Str) (chatId : Value Int) (usage : Str) :
    Action (Option Bool) :=
  if truthy chatId then Prog.perform (Effect.processResponse providerAddress chatId usage)
  else return none

/-- What is made of a response with status 200. -/
def readResponse (providerAddress model : Str) (resKey : Option Str) :
    Action AttestedChatResult := do
  let data ← Prog.perform Effect.responseJson
  let chatId ← Prog.lift (readChatId resKey data)
  let choices ← Prog.lift (readMember (js "choices") data)
  let isValid ← checkResponse providerAddress chatId (usageContent data)
  return { content := choiceContent choices, providerAddress, model, chatId, isValid }

def runAttestedChat (providerAddress : Str) (messages : List (Str × Str)) :
    Action AttestedChatResult := do
  ensureFunded providerAddress
  let service ← Prog.perform (Effect.getServiceMetadata providerAddress)
  let headers ← Prog.perform (Effect.getRequestHeaders providerAddress)
  let body : Json Int := .obj
    [(js "messages", .arr (messages.map fun m =>
      .obj [(js "role", .str m.1), (js "content", .str m.2)])), (js "model", .str service.model)]
  let response ← Prog.perform (Effect.fetch (service.endpoint ++ js "/chat/completions")
    ((js "Content-Type", js "application/json") :: headers) (Json.stringify body))
  if response.ok then
    readResponse providerAddress service.model response.resKey
  else
    let text ← Prog.perform Effect.responseText
    Prog.throw (.ofMessage (js "0G Compute provider returned HTTP " ++
      decimalText response.status ++ js ": " ++ text))

/-! ## The analysis -/

structure AnalysisResult where
  message : Value Int
  teeAttested : Bool
  attestation : Option TeeAttestationEvidence
  providerAddress : Option Str
  inputCommitment : Str
  outputCommitment : Str
  degradedReason : Option Str

section Analyze

variable (sha256Hex : Str → Str)

/-- The commitment to the four fields that are analysed. -/
def analysedCommitment (input : SubscriptionCaseInput) : Str :=
  commit sha256Hex (.obj
    [(js "merchantName", .str input.merchantName),
      (js "accountIdentifierLast4", .str input.accountIdentifierLast4),
      (js "subscriptionDetails", .str input.subscriptionDetails),
      (js "desiredOutcome", .str input.desiredOutcome)])

/-- The commitment to a message. -/
def contentCommitment (content : Json Int) : Str :=
  commit sha256Hex (.obj [(js "content", content)])

def buildUnattestedResult (message : Str) (inputCommitment degradedReason : Str) :
    AnalysisResult where
  message := .ofStr message
  teeAttested := false
  attestation := none
  providerAddress := none
  inputCommitment
  outputCommitment := contentCommitment sha256Hex (.str message)
  degradedReason := some degradedReason

/-- The body of the `try` block of `analyze`. -/
def analyzeAttested (config : ComputeConfig) (input : SubscriptionCaseInput)
    (inputCommitment : Str) : Action AnalysisResult := do
  Prog.perform (Effect.createBroker config.privateKey config.rpcUrl)
  let providerAddress ← selectProvider config.preferredProviderAddress
  let prompt := buildAnalysisPrompt input
  let result ← runAttestedChat providerAddress
    [(js "system", prompt.system), (js "user", prompt.user)]
  let outputCommitment := contentCommitment sha256Hex result.content.json
  let teeAttested := result.isValid == some true
  let verifiedAt ← now
  return {
    message := result.content
    teeAttested
    attestation := some
      { providerAddress := result.providerAddress
        model := some result.model
        chatId := result.chatId
        isValid := teeAttested
        verifiedAt }
    providerAddress := some result.providerAddress
    inputCommitment
    outputCommitment
    degradedReason :=
      if teeAttested then none
      else some (js "0G Compute responded, but broker.inference.processResponse() did not return isValid === true.") }

def analyze (config : Option ComputeConfig) (input : SubscriptionCaseInput) :
    Action AnalysisResult :=
  let inputCommitment := analysedCommitment sha256Hex input
  let unattested reason :=
    buildUnattestedResult sha256Hex (generateFallbackMessage input) inputCommitment reason
  match config with
  | none => return unattested (js "ZG_COMPUTE_PRIVATE_KEY not set — 0G Compute is unconfigured.")
  | some config => do
    match ← (analyzeAttested sha256Hex config input inputCommitment).attempt with
    | .ok result => return result
    | .error error => return unattested (js "0G Compute call failed: " ++ error.text)

end Analyze

/-! ## What an analysis does -/

/-- A program that asks only 0G Compute and returns only values in `Q`. -/
abbrev Computing {α : Type} (Q : α → Prop) : Action α → Prop :=
  Only (fun e => e.isCompute = true) Q

/-- A program that asks only what an analysis asks and returns only values in `Q`. -/
abbrev Analysing {α : Type} (Q : α → Prop) : Action α → Prop :=
  Only (fun e => e.isAnalysis = true) Q

theorem Computing.analysing {α : Type} {Q : α → Prop} {p : Action α} (h : Computing Q p) :
    Analysing Q p := Only.mono (fun _ => Effect.isAnalysis_of_isCompute) h

theorem now_analysing : Analysing (fun _ => True) now :=
  Only.perform (S := fun e : Effect => e.isAnalysis = true) rfl

theorem perform_computing {e : Effect} (he : e.isCompute = true) :
    Computing (fun _ => True) (Prog.perform e) := Only.perform he

theorem selectProvider_computing (preferredAddress : Option Str) :
    Computing (fun _ => True) (selectProvider preferredAddress) := by
  refine Only.bind (perform_computing rfl) fun services _ => ?_
  dsimp only
  split
  · exact Only.ret trivial
  · exact Only.throw

theorem ensureFunded_computing (providerAddress : Str) :
    Computing (fun _ => True) (ensureFunded providerAddress) := by
  refine Only.bind (Only.attempt (perform_computing rfl)) fun r _ => ?_
  cases r with
  | ok _ => exact perform_computing rfl
  | error _ => exact Only.throw

theorem checkResponse_computing (providerAddress : Str) (chatId : Value Int) (usage : Str) :
    Computing (fun _ => True) (checkResponse providerAddress chatId usage) := by
  rw [checkResponse]
  split
  · exact perform_computing rfl
  · exact Only.ret trivial

theorem readResponse_computing (providerAddress model : Str) (resKey : Option Str) :
    Computing (fun _ => True) (readResponse providerAddress model resKey) := by
  refine Only.bind (perform_computing rfl) fun data _ => ?_
  refine Only.bind (Only.lift fun _ _ => trivial) fun chatId _ => ?_
  refine Only.bind (Only.lift fun _ _ => trivial) fun choices _ => ?_
  exact Only.bind (checkResponse_computing _ _ _) fun _ _ => Only.ret trivial

theorem runAttestedChat_computing (providerAddress : Str) (messages : List (Str × Str)) :
    Computing (fun _ => True) (runAttestedChat providerAddress messages) := by
  refine Only.bind (ensureFunded_computing providerAddress) fun _ _ => ?_
  refine Only.bind (perform_computing rfl) fun service _ => ?_
  refine Only.bind (perform_computing rfl) fun headers _ => ?_
  refine Only.bind (perform_computing rfl) fun response _ => ?_
  split
  · exact readResponse_computing _ _ _
  · exact Only.bind (perform_computing rfl) fun _ _ => Only.throw

variable {sha256Hex : Str → Str}

/-- The result commits to the analysed input and to the message it returns. -/
structure AnalysisResult.Commits (sha256Hex : Str → Str) (input : SubscriptionCaseInput)
    (result : AnalysisResult) : Prop where
  inputCommitment : result.inputCommitment = analysedCommitment sha256Hex input
  outputCommitment : result.outputCommitment = contentCommitment sha256Hex result.message.json

theorem analyzeAttested_analysing (config : ComputeConfig) (input : SubscriptionCaseInput) :
    Analysing (AnalysisResult.Commits sha256Hex input)
      (analyzeAttested sha256Hex config input (analysedCommitment sha256Hex input)) := by
  refine Only.bind (perform_computing rfl).analysing fun _ _ => ?_
  refine Only.bind (selectProvider_computing _).analysing fun providerAddress _ => ?_
  refine Only.bind (runAttestedChat_computing _ _).analysing fun result _ => ?_
  exact Only.bind now_analysing fun _ _ => Only.ret ⟨rfl, rfl⟩

theorem analyze_analysing (config : Option ComputeConfig) (input : SubscriptionCaseInput) :
    Analysing (AnalysisResult.Commits sha256Hex input) (analyze sha256Hex config input) := by
  cases config with
  | none => exact Only.ret ⟨rfl, rfl⟩
  | some config =>
    refine Only.bind (Only.attempt (analyzeAttested_analysing config input)) fun r hr => ?_
    cases r with
    | ok result => exact Only.ret (hr result rfl)
    | error error => exact Only.ret ⟨rfl, rfl⟩

/-- An analysis does only quiet things, and what it returns commits to the analysed input
and to its message, whether it was attested or not. -/
theorem analyze_quietly (config : Option ComputeConfig) (input : SubscriptionCaseInput) :
    Quietly (AnalysisResult.Commits sha256Hex input) (analyze sha256Hex config input) :=
  Only.mono (fun _ => Effect.isQuiet_of_isAnalysis) (analyze_analysing config input)

end Clawback
