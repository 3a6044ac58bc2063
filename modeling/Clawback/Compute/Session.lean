import Clawback.Async.Monitor
import Clawback.Compute.Client

/-!
# A session with 0G Compute

What an analysis asks of 0G Compute, in which order, and on what it relies at each step. A session
goes through its states once; what goes wrong ends it.

* `Session.Step`: the protocol, one constructor for each effect.
* `analyze_speaks`: an analysis keeps to it, whatever the answers are.
* `Session.budget_le`: it tops up one account, once.
* `Session.Knows`: what has been asked and answered when a session is in a state.
-/

namespace Clawback

open Js Async

/-- The service is listed as verifiable. -/
def IsVerifiable (services : List ComputeService) (provider : Str) : Prop :=
  ∃ service ∈ services, service.provider = provider ∧ service.verifiability ≠ []

/-- The text that a provider is sent for an input. -/
def chatBody (input : SubscriptionCaseInput) (model : Str) : Str :=
  let prompt := buildAnalysisPrompt input
  Json.stringify (.obj
    [(js "messages", .arr
      [.obj [(js "role", .str (js "system")), (js "content", .str prompt.system)],
        .obj [(js "role", .str (js "user")), (js "content", .str prompt.user)]]),
      (js "model", .str model)] : Json Int)

inductive Session where
  | closed
  | connected
  | listed (services : List ComputeService)
  | opened (services : List ComputeService)
  | funded (provider : Str)
  | described (provider : Str) (service : ServiceMetadata)
  | ready (provider : Str) (service : ServiceMetadata) (headers : List (Str × Str))
  | answered (provider : Str) (response : HttpResponse)
  | read (provider : Str) (response : HttpResponse) (data : Value Int)
  | ended

namespace Session

/-- What fails ends the session. -/
def after {α : Type} (next : α → Session) : Except JsError α → Session
  | .ok a => next a
  | .error _ => ended

/-- The protocol of a session for an input. -/
inductive Step (config : ComputeConfig) (input : SubscriptionCaseInput) :
    Session → Entry Effect Effect.Answer JsError → Session → Prop
  | elsewhere {s e r} : e.isCompute = false → Step config input s ⟨e, r⟩ s
  | connect {r} :
    Step config input closed ⟨.createBroker config.privateKey config.rpcUrl, r⟩
      (after (fun _ => connected) r)
  | list {r} : Step config input connected ⟨.listService, r⟩ (after listed r)
  | enter {services r} :
    Step config input (listed services) ⟨.getLedger, r⟩ (after (fun _ => opened services) r)
  | fund {services provider r} : IsVerifiable services provider →
    Step config input (opened services) ⟨.transferFund provider defaultTopupNeuron, r⟩
      (after (fun _ => funded provider) r)
  | describe {provider r} :
    Step config input (funded provider) ⟨.getServiceMetadata provider, r⟩
      (after (described provider) r)
  | prepare {provider service r} :
    Step config input (described provider service) ⟨.getRequestHeaders provider, r⟩
      (after (ready provider service) r)
  | ask {provider service headers r} :
    Step config input (ready provider service headers)
      ⟨.fetch (service.endpoint ++ js "/chat/completions")
        ((js "Content-Type", js "application/json") :: headers) (chatBody input service.model), r⟩
      (after (answered provider) r)
  | refused {provider response r} : response.ok = false →
    Step config input (answered provider response) ⟨.responseText, r⟩ ended
  | read {provider response r} : response.ok = true →
    Step config input (answered provider response) ⟨.responseJson, r⟩
      (after (read provider response) r)
  | check {provider response data chatId r} : readChatId response.resKey data = .ok chatId →
    Step config input (read provider response data)
      ⟨.processResponse provider chatId (usageContent data), r⟩ ended

end Session

/-! ## An analysis keeps to the protocol -/

section Speaks

variable {config : ComputeConfig} {input : SubscriptionCaseInput}

/-- What is done of 0G Compute keeps to the protocol; whatever fails is the end of it. -/
abbrev Converses {α : Type} (config : ComputeConfig) (input : SubscriptionCaseInput)
    (Q : α → Session → Prop) : Action α → Session → Prop :=
  Speaks (Session.Step config input) fun r s => ∀ a, r = .ok a → Q a s

theorem converses_bind {α β : Type} {S : α → Session → Prop} {Q : β → Session → Prop}
    {p : Action α} {f : α → Action β} {s : Session} (hp : Converses config input S p s)
    (hf : ∀ a s', S a s' → Converses config input Q (f a) s') :
    Converses config input Q (p >>= f) s := by
  refine Speaks.bind (hp.mono fun r s' hr => ?_)
  cases r with
  | ok a => exact hf a s' (hr a rfl)
  | error x => exact nofun

theorem converses_perform {e : Effect} {s : Session} {next : e.Answer → Session}
    (hstep : ∀ r, Session.Step config input s ⟨e, r⟩ (Session.after next r)) :
    Converses config input (fun a s' => s' = next a) (Prog.perform e) s := by
  refine Speaks.perform fun r => ⟨_, hstep r, ?_⟩
  rintro a rfl
  rfl

theorem converses_lift {α β : Type} {Q : β → Session → Prop} {r : Except JsError α}
    {f : α → Action β} {s : Session} (hf : ∀ a, r = .ok a → Converses config input Q (f a) s) :
    Converses config input Q (Prog.lift r >>= f) s := by
  refine converses_bind (Speaks.lift (Q := fun r' s' => ∀ a, r' = .ok a → r = .ok a ∧ s' = s)
    fun a ha => ⟨ha, rfl⟩) ?_
  rintro a s' ⟨ha, rfl⟩
  exact hf a ha

theorem verifiable_of_mem {services : List ComputeService} {service : ComputeService}
    (h : service ∈ services.filter fun s => !s.verifiability.isEmpty) :
    IsVerifiable services service.provider := by
  obtain ⟨hservice, hverifiable⟩ := List.mem_filter.mp h
  refine ⟨service, hservice, rfl, fun hempty => ?_⟩
  rw [hempty] at hverifiable
  cases hverifiable

theorem selectProvider_speaks (preferredAddress : Option Str) :
    Converses config input
      (fun provider s => ∃ services, s = .listed services ∧ IsVerifiable services provider)
      (selectProvider preferredAddress) .connected := by
  refine converses_bind (converses_perform fun _ => .list) fun services s hs => ?_
  subst hs
  dsimp only
  split
  · rename_i service hselected
    rw [Option.orElse_eq_orElse, Option.orElse_eq_or] at hselected
    rintro provider ⟨⟩
    refine ⟨services, rfl, verifiable_of_mem ?_⟩
    rcases Option.or_eq_some_iff.mp hselected with hpreferred | ⟨-, hfirst⟩
    · obtain ⟨address, -, hfound⟩ := Option.bind_eq_some_iff.mp hpreferred
      split at hfound
      · cases hfound
      · exact List.mem_of_find?_eq_some hfound
    · exact List.mem_of_head? hfirst
  · exact nofun

theorem ensureFunded_speaks {services : List ComputeService} {provider : Str}
    (hverifiable : IsVerifiable services provider) :
    Converses config input (fun _ s => s = .funded provider) (ensureFunded provider)
      (.listed services) := by
  refine Speaks.bind (Speaks.attempt (Speaks.perform fun r => ⟨_, .enter, ?_⟩))
  cases r with
  | ok _ => exact converses_perform fun _ => .fund hverifiable
  | error _ => exact nofun

theorem readResponse_speaks {provider model : Str} {response : HttpResponse}
    (hok : response.ok = true) :
    Converses config input (fun _ _ => True) (readResponse provider model response.resKey)
      (.answered provider response) := by
  refine converses_bind (converses_perform fun _ => .read hok) fun data s hs => ?_
  subst hs
  refine converses_lift fun chatId hchatId => converses_lift fun choices _ => ?_
  refine converses_bind (S := fun _ _ => True) ?_ fun _ _ _ _ _ => trivial
  unfold checkResponse
  split
  · exact Speaks.perform fun r => ⟨_, .check hchatId, fun _ _ => trivial⟩
  · exact fun _ _ => trivial

theorem runAttestedChat_speaks {services : List ComputeService} {provider : Str}
    (hverifiable : IsVerifiable services provider) :
    Converses config input (fun _ _ => True)
      (runAttestedChat provider [(js "system", (buildAnalysisPrompt input).system),
        (js "user", (buildAnalysisPrompt input).user)]) (.listed services) := by
  unfold runAttestedChat
  refine converses_bind (ensureFunded_speaks hverifiable) fun _ s hs => ?_
  subst hs
  refine converses_bind (converses_perform fun _ => .describe) fun service s hs => ?_
  subst hs
  refine converses_bind (converses_perform fun _ => .prepare) fun headers s hs => ?_
  subst hs
  refine converses_bind (converses_perform fun _ => .ask) fun response s hs => ?_
  subst hs
  by_cases hok : response.ok = true
  · rw [if_pos hok]
    exact readResponse_speaks hok
  · rw [if_neg hok]
    refine converses_bind (S := fun _ _ => True) ?_ fun _ _ _ => nofun
    exact Speaks.perform fun r => ⟨_, .refused (Bool.eq_false_iff.mpr hok), fun _ _ => trivial⟩

/-- An analysis keeps to the protocol. -/
theorem analyze_speaks (sha256Hex : Str → Str) : Converses config input (fun _ _ => True)
    (analyze sha256Hex (some config) input) .closed := by
  refine Speaks.bind (Speaks.attempt ?_)
  have hattested : Converses config input (fun _ _ => True)
      (analyzeAttested sha256Hex config input (analysedCommitment sha256Hex input)) .closed := by
    refine converses_bind (converses_perform fun _ => .connect) fun _ s hs => ?_
    subst hs
    refine converses_bind (selectProvider_speaks _) fun provider s hs => ?_
    obtain ⟨services, rfl, hverifiable⟩ := hs
    refine converses_bind (runAttestedChat_speaks hverifiable) fun result s _ => ?_
    refine converses_bind (S := fun _ _ => True) ?_ fun _ _ _ _ _ => trivial
    exact Speaks.perform fun r => ⟨s, .elsewhere rfl, fun _ _ => trivial⟩
  refine hattested.mono fun r s _ => ?_
  cases r with
  | ok result => exact fun _ _ => trivial
  | error error => exact fun _ _ => trivial

end Speaks

/-! ## What a session costs -/

/-- What an effect spends, in neuron. -/
def Effect.neuron : Effect → Nat
  | transferFund _ neuron => neuron
  | _ => 0

/-- How often an effect sends a provider something. -/
def Effect.asks : Effect → Nat
  | fetch _ _ _ => 1
  | _ => 0

namespace Session

/-- What may yet be spent. -/
def budget : Session → Nat
  | closed | connected | listed _ | opened _ => defaultTopupNeuron
  | _ => 0

/-- How often a provider may yet be asked. -/
def asksLeft : Session → Nat
  | answered _ _ | read _ _ _ | ended => 0
  | _ => 1

variable {config : ComputeConfig} {input : SubscriptionCaseInput} {s s' : Session}
  {a : Entry Effect Effect.Answer JsError} {tr : CallTrace}

theorem neuron_of_elsewhere {e : Effect} (h : e.isCompute = false) : e.neuron = 0 := by
  cases e <;> first | rfl | cases h

/-- A session tops up one account, once. -/
theorem budget_le (h : Step config input s a s') : a.effect.neuron + s'.budget ≤ s.budget := by
  cases h with
  | @elsewhere s e r helse =>
    change e.neuron + s.budget ≤ s.budget
    rw [neuron_of_elsewhere helse, Nat.zero_add]
  | refused _ | check _ => exact Nat.le_refl 0
  | @connect r | @list r | @enter _ r =>
    cases r with
    | ok _ =>
      change 0 + defaultTopupNeuron ≤ defaultTopupNeuron
      rw [Nat.zero_add]
    | error _ =>
      change 0 + 0 ≤ defaultTopupNeuron
      exact Nat.zero_le _
  | @fund _ _ r _ =>
    cases r with
    | ok _ | error _ =>
      change defaultTopupNeuron + 0 ≤ defaultTopupNeuron
      rw [Nat.add_zero]
  | @describe _ r | @prepare _ _ r | @ask _ _ _ r | @read _ _ r _ => cases r <;> exact Nat.le_refl 0

/-- A session asks one provider, once. -/
theorem asksLeft_le (h : Step config input s a s') :
    a.effect.asks + s'.asksLeft ≤ s.asksLeft := by
  cases h with
  | @elsewhere s e r helse =>
    have hnone : e.asks = 0 := by cases e <;> first | rfl | cases helse
    exact Nat.le_of_eq (congrArg (· + s.asksLeft) hnone |>.trans (Nat.zero_add _))
  | refused _ | check _ => exact Nat.le_refl 0
  | @connect r | @list r | @enter _ r | @fund _ _ r _ | @describe _ r | @prepare _ _ r =>
    cases r with
    | ok _ => exact Nat.le_refl 1
    | error _ => exact Nat.zero_le 1
  | @ask _ _ _ r => cases r <;> exact Nat.le_refl 1
  | @read _ _ r _ => cases r <;> exact Nat.le_refl 0

/-! ## What is known in a session -/

/-- The provider has been listed as verifiable, and its account has been topped up. -/
structure Paid (tr : CallTrace) (provider : Str) : Prop where
  listed : ∃ services, ⟨.listService, .ok services⟩ ∈ tr ∧ IsVerifiable services provider
  funded : ⟨.transferFund provider defaultTopupNeuron, .ok ()⟩ ∈ tr

theorem Paid.mono {tr' : CallTrace} {provider : Str} (h : Paid tr provider) (hsub : tr ⊆ tr') :
    Paid tr' provider := by
  obtain ⟨⟨services, hlisted, hverifiable⟩, hfunded⟩ := h
  exact ⟨⟨services, hsub hlisted, hverifiable⟩, hsub hfunded⟩

/-- What has been asked and answered when a session is in this state. -/
def Knows (tr : CallTrace) : Session → Prop
  | listed services | opened services => ⟨.listService, .ok services⟩ ∈ tr
  | funded provider => Paid tr provider
  | described provider service =>
    Paid tr provider ∧ ⟨.getServiceMetadata provider, .ok service⟩ ∈ tr
  | ready provider service headers =>
    Paid tr provider ∧ ⟨.getServiceMetadata provider, .ok service⟩ ∈ tr ∧
      ⟨.getRequestHeaders provider, .ok headers⟩ ∈ tr
  | _ => True

theorem Knows.mono {tr' : CallTrace} (h : s.Knows tr) (hsub : tr ⊆ tr') : s.Knows tr' := by
  cases s with
  | listed services | opened services => exact hsub h
  | funded provider => exact Paid.mono h hsub
  | described provider service => exact ⟨h.1.mono hsub, hsub h.2⟩
  | ready provider service headers => exact ⟨h.1.mono hsub, hsub h.2.1, hsub h.2.2⟩
  | _ => trivial

theorem knows_step (h : s.Knows tr) (hstep : Step config input s a s') :
    s'.Knows (tr ++ [a]) := by
  have hold := h.mono (List.subset_append_left tr [a])
  have hnew : a ∈ tr ++ [a] := List.mem_append_right _ (List.mem_singleton_self _)
  cases hstep with
  | elsewhere _ => exact hold
  | @connect r => cases r <;> trivial
  | @list r =>
    cases r with
    | ok services => exact hnew
    | error _ => trivial
  | @enter services r =>
    cases r with
    | ok _ => exact hold
    | error _ => trivial
  | @fund services provider r hverifiable =>
    cases r with
    | ok _ => exact ⟨⟨services, hold, hverifiable⟩, hnew⟩
    | error _ => trivial
  | @describe provider r =>
    cases r with
    | ok service => exact ⟨hold, hnew⟩
    | error _ => trivial
  | @prepare provider service r =>
    cases r with
    | ok headers => exact ⟨hold.1, hold.2, hnew⟩
    | error _ => trivial
  | @ask _ _ _ r => cases r <;> trivial
  | @read _ _ r _ => cases r <;> trivial
  | refused _ | check _ => trivial

theorem knows_of_leads (h : Leads (Step config input) closed tr s) : s.Knows tr := by
  induction h with
  | nil => trivial
  | step _ hstep ih => exact knows_step ih hstep

/-- A provider is asked once its account has been topped up, and it is sent the prompt. -/
theorem paid_of_fetch (h : Leads (Step config input) closed tr s) {tr₁ tr₂ : CallTrace}
    {url body : Str} {headers : List (Str × Str)} {r : Except JsError HttpResponse}
    (htr : tr = tr₁ ++ [⟨.fetch url headers body, r⟩] ++ tr₂) :
    ∃ provider service, Paid tr₁ provider ∧
      ⟨.getServiceMetadata provider, .ok service⟩ ∈ tr₁ ∧
      url = service.endpoint ++ js "/chat/completions" ∧ body = chatBody input service.model := by
  obtain ⟨s₁, s₂, hleads, hstep⟩ := h.split htr
  have hknows := knows_of_leads hleads
  cases hstep with
  | elsewhere helse => cases helse
  | @ask provider service _ _ => exact ⟨provider, service, hknows.1, hknows.2.1, rfl, rfl⟩

end Session

end Clawback
