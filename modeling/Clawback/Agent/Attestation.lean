import Clawback.Agent.AtRest
import Clawback.Agent.Verification

/-!
# Attestation is never overstated

An analysis asks 0G Compute in several steps, each of which may fail or answer oddly. Whatever the
answers are, it returns a message, an attestation flag, a provider and a disclosed reason that
belong together, and they stay together in every record and receipt of the case.

* `Vouched`: `processResponse` has returned `true` for the response with this content.
* `attests_of_gives`: what an analysis returns, for all answers it may be given; it never throws.
* `carried_of_stored`: a record keeps what the submission has stored of the analysis.
* `attestation_never_overstated`: so the flag of every stored record and receipt is earned.
-/

namespace Clawback

open Js Async

variable {env : Platform}

/-! ## What the provider vouches for -/

/-- A service with this address is listed as verifiable. -/
def Listed (tr : CallTrace) (provider : Str) : Prop :=
  ∃ services, ⟨.listService, .ok services⟩ ∈ tr ∧
    ∃ service ∈ services, service.provider = provider ∧ service.verifiability ≠ []

/-- The provider's endpoint has given a response with this content, and `processResponse` has
returned `true` for it. -/
def ResponseChecked (tr : CallTrace) (provider : Str) (content : Value Int) : Prop :=
  ∃ before service headers body response data chatId after,
    tr = before ++ [⟨.fetch (service.endpoint ++ js "/chat/completions") headers body, .ok response⟩,
      ⟨.responseJson, .ok data⟩,
      ⟨.processResponse provider chatId (usageContent data), .ok (some true)⟩] ++ after ∧
    ⟨.getServiceMetadata provider, .ok service⟩ ∈ before ∧ response.ok = true ∧
    readChatId response.resKey data = .ok chatId ∧ responseContent data = content

/-- A provider that is listed as verifiable has given a response with this content, and
`processResponse` has returned `true` for it. -/
structure Vouched (tr : CallTrace) (provider : Str) (content : Value Int) : Prop where
  listed : Listed tr provider
  checked : ResponseChecked tr provider content

/-- `processResponse` has returned `true` for something. -/
def Approves (tr : CallTrace) : Prop :=
  ∃ provider chatId usage, ⟨.processResponse provider chatId usage, .ok (some true)⟩ ∈ tr

/-- What the result of an analysis owes to what has been asked and answered. -/
structure Attests (tr : CallTrace) (analysis : AnalysisResult) : Prop where
  disclosed : analysis.degradedReason = none ↔ analysis.teeAttested = true
  vouched : analysis.teeAttested = true →
    ∃ provider, analysis.providerAddress = some provider ∧ Vouched tr provider analysis.message
  noticed : Approves tr → analysis.teeAttested = true ∨ ∃ x, ⟨.now, .error x⟩ ∈ tr

/-- The check of a response. -/
def Effect.isCheck : Effect → Bool
  | processResponse _ _ _ => true
  | _ => false

theorem ResponseChecked.append {tr : CallTrace} {provider : Str} {content : Value Int}
    (h : ResponseChecked tr provider content) (since : CallTrace) :
    ResponseChecked (tr ++ since) provider content := by
  obtain ⟨before, service, headers, body, response, data, chatId, after, rfl, hrest⟩ := h
  exact ⟨before, service, headers, body, response, data, chatId, after ++ since,
    List.append_assoc _ _ _, hrest⟩

theorem ResponseChecked.prepend {tr : CallTrace} {provider : Str} {content : Value Int}
    (h : ResponseChecked tr provider content) (earlier : CallTrace) :
    ResponseChecked (earlier ++ tr) provider content := by
  obtain ⟨before, service, headers, body, response, data, chatId, after, rfl, hmetadata, hrest⟩ := h
  refine ⟨earlier ++ before, service, headers, body, response, data, chatId, after, ?_,
    List.mem_append_right _ hmetadata, hrest⟩
  simp only [List.append_assoc]

theorem Listed.mono {tr tr' : CallTrace} {provider : Str} (h : Listed tr provider)
    (hsub : tr ⊆ tr') : Listed tr' provider := by
  obtain ⟨services, hlisted, hservice⟩ := h
  exact ⟨services, hsub hlisted, hservice⟩

theorem ResponseChecked.approves {tr : CallTrace} {provider : Str} {content : Value Int}
    (h : ResponseChecked tr provider content) : Approves tr := by
  obtain ⟨before, service, headers, body, response, data, chatId, after, rfl, -⟩ := h
  exact ⟨provider, chatId, usageContent data, by simp⟩

theorem approves_append {tr tr' : CallTrace} :
    Approves (tr ++ tr') ↔ Approves tr ∨ Approves tr' := by
  unfold Approves
  simp only [List.mem_append, exists_or]

theorem not_approves_of_unchecked {since : CallTrace}
    (h : ∀ a ∈ since, a.effect.isCheck = false) : ¬Approves since :=
  fun ⟨_, _, _, hmem⟩ => nomatch h _ hmem

theorem not_approves_append {tr since : CallTrace} (htr : ¬Approves tr)
    (hsince : ∀ a ∈ since, a.effect.isCheck = false) : ¬Approves (tr ++ since) := by
  rw [approves_append, not_or]
  exact ⟨htr, not_approves_of_unchecked hsince⟩

theorem unchecked_singleton {a : Entry Effect Effect.Answer JsError}
    (h : a.effect.isCheck = false) : ∀ b ∈ [a], b.effect.isCheck = false := by
  intro b hb
  rw [List.mem_singleton.mp hb]
  exact h

/-! ## The steps of an analysis -/

section Steps

variable {α β : Type} {tr : CallTrace} {provider : Str}

/-- Whatever the program is answered, it ends with `Q`. -/
abbrev Ends (Q : Except JsError α → CallTrace → Prop) : Action α → CallTrace → Prop :=
  Obeys (fun _ _ => True) Q

/-- A program that does not check a response and returns only values in `S`. -/
abbrev Unchecked (S : α → Prop) : Action α → Prop := Only (fun e => e.isCheck = false) S

/-- A part that does not check a response, and what comes after it. -/
theorem ends_unchecked_bind {Q : Except JsError β → CallTrace → Prop} {S : α → Prop}
    {p : Action α} {f : α → Action β} (hp : Unchecked S p)
    (htr : ¬Approves tr)
    (hnext : ∀ a since, ¬Approves (tr ++ since) → Ends Q (f a) (tr ++ since))
    (herror : ∀ x tr', ¬Approves tr' → Q (.error x) tr') : Ends Q (p >>= f) tr := by
  refine Obeys.bind ((Only.obeys (fun _ _ _ _ => trivial) hp).mono ?_)
  rintro r _ ⟨⟨since, rfl, hsince⟩, -⟩
  cases r with
  | ok a => exact hnext a since (not_approves_append htr hsince)
  | error x => exact herror x _ (not_approves_append htr hsince)

/-- An effect that does not check a response, and what comes after it. -/
theorem ends_perform_bind {Q : Except JsError β → CallTrace → Prop} {e : Effect}
    {f : e.Answer → Action β} (he : e.isCheck = false) (htr : ¬Approves tr)
    (hnext : ∀ a, ¬Approves (tr ++ [⟨e, .ok a⟩]) → Ends Q (f a) (tr ++ [⟨e, .ok a⟩]))
    (herror : ∀ x tr', ¬Approves tr' → Q (.error x) tr') :
    Ends Q (Prog.perform e >>= f) tr := by
  refine Obeys.bind (Obeys.perform (P := fun _ _ => True) trivial fun r => ?_)
  have hafter : ¬Approves (tr ++ [⟨e, r⟩]) := not_approves_append htr (unchecked_singleton he)
  cases r with
  | ok a => exact hnext a hafter
  | error x => exact herror x _ hafter

theorem perform_unchecked {e : Effect} (he : e.isCheck = false) :
    Unchecked (fun _ => True) (Prog.perform e) :=
  Only.perform (S := fun e : Effect => e.isCheck = false) he

theorem ensureFunded_unchecked (provider : Str) :
    Unchecked (fun _ => True) (ensureFunded provider) := by
  refine Only.bind (Only.attempt (perform_unchecked rfl)) fun r _ => ?_
  cases r with
  | ok _ => exact perform_unchecked rfl
  | error _ => exact Only.throw

/-- The provider that is selected is listed as verifiable. -/
theorem selectProvider_listed (preferredAddress : Option Str) (htr : ¬Approves tr) :
    Ends (fun r tr' => ¬Approves tr' ∧ ∀ provider, r = .ok provider → Listed tr' provider)
      (selectProvider preferredAddress) tr := by
  refine ends_perform_bind rfl htr (fun services hafter => ?_) fun x tr' htr' =>
    ⟨htr', fun _ h => nomatch h⟩
  dsimp only
  split
  · rename_i service hselected
    have hmem : service ∈ services.filter fun s => !s.verifiability.isEmpty := by
      rw [Option.orElse_eq_orElse, Option.orElse_eq_or] at hselected
      rcases Option.or_eq_some_iff.mp hselected with hpreferred | ⟨-, hfirst⟩
      · obtain ⟨address, -, hfound⟩ := Option.bind_eq_some_iff.mp hpreferred
        split at hfound
        · cases hfound
        · exact List.mem_of_find?_eq_some hfound
      · exact List.mem_of_head? hfirst
    obtain ⟨hservice, hverifiable⟩ := List.mem_filter.mp hmem
    refine ⟨hafter, ?_⟩
    rintro provider ⟨⟩
    refine ⟨services, by simp, service, hservice, rfl, ?_⟩
    rintro hempty
    rw [hempty] at hverifiable
    cases hverifiable
  · exact ⟨hafter, fun _ h => nomatch h⟩

/-- What a chat with a provider ends with. -/
def ChatEnds (provider : Str) : Except JsError AttestedChatResult → CallTrace → Prop
  | .ok result, tr => result.providerAddress = provider ∧
    (Approves tr → result.isValid = some true) ∧
    (result.isValid = some true → ResponseChecked tr provider result.content)
  | .error _, tr => ¬Approves tr

theorem readResponse_ends {service : ServiceMetadata} {headers : List (Str × Str)} {body : Str}
    {response : HttpResponse} {model : Str} (htr : ¬Approves tr)
    (hmetadata : ⟨.getServiceMetadata provider, .ok service⟩ ∈ tr) (hok : response.ok = true) :
    Ends (ChatEnds provider) (readResponse provider model response.resKey)
      (tr ++ [⟨.fetch (service.endpoint ++ js "/chat/completions") headers body, .ok response⟩]) := by
  have hfetched := not_approves_append htr (unchecked_singleton
    (a := ⟨.fetch (service.endpoint ++ js "/chat/completions") headers body, .ok response⟩) rfl)
  refine ends_perform_bind rfl hfetched (fun data hread => ?_) fun _ _ h => h
  refine Obeys.lift_bind (fun chatId hchatId => ?_) fun _ => hread
  refine Obeys.lift_bind (fun choices hchoices => ?_) fun _ => hread
  obtain rfl := readMember_eq_ok hchoices
  unfold checkResponse
  by_cases hchat : truthy chatId = true
  · rw [if_pos hchat]
    refine Obeys.bind (Obeys.perform (P := fun _ _ => True) trivial fun r => ?_)
    cases r with
    | error x =>
      show ¬Approves _
      rw [approves_append, not_or]
      refine ⟨hread, ?_⟩
      rintro ⟨_, _, _, hmem⟩
      cases List.mem_singleton.mp hmem
    | ok verdict =>
      refine ⟨rfl, fun happroves => ?_, fun hvalid => ?_⟩
      · rcases approves_append.mp happroves with hbefore | ⟨_, _, _, hmem⟩
        · exact absurd hbefore hread
        · cases List.mem_singleton.mp hmem
          rfl
      · obtain rfl : verdict = some true := hvalid
        refine ⟨tr, service, headers, body, response, data, chatId, [], ?_, hmetadata, hok, hchatId,
          rfl⟩
        simp only [List.append_assoc, List.append_nil]
        rfl
  · rw [if_neg hchat]
    exact ⟨rfl, fun happroves => absurd happroves hread, fun h => nomatch h⟩

theorem runAttestedChat_ends (messages : List (Str × Str)) (htr : ¬Approves tr) :
    Ends (ChatEnds provider) (runAttestedChat provider messages) tr := by
  unfold runAttestedChat
  refine ends_unchecked_bind (ensureFunded_unchecked provider) htr (fun _ since hfunded => ?_)
    fun _ _ h => h
  refine ends_perform_bind rfl hfunded (fun service hmetadata => ?_) fun _ _ h => h
  refine ends_perform_bind rfl hmetadata (fun headers hheaders => ?_) fun _ _ h => h
  refine ends_perform_bind rfl hheaders (fun response hresponse => ?_) fun _ _ h => h
  by_cases hok : response.ok = true
  · rw [if_pos hok]
    exact readResponse_ends hheaders (by simp) hok
  · rw [if_neg hok]
    exact ends_perform_bind rfl hresponse (fun _ h => h) fun _ _ h => h

/-! ## The analysis -/

theorem attests_unattested {sha256Hex : Str → Str} {message inputCommitment reason : Str}
    (h : Approves tr → ∃ x, ⟨.now, .error x⟩ ∈ tr) :
    Attests tr (buildUnattestedResult sha256Hex message inputCommitment reason) :=
  ⟨⟨nofun, nofun⟩, nofun, fun happroves => .inr (h happroves)⟩

theorem analyzeAttested_ends {sha256Hex : Str → Str} (config : ComputeConfig)
    (input : SubscriptionCaseInput) (inputCommitment : Str) (htr : ¬Approves tr) :
    Ends (fun r tr' => match r with
        | .ok analysis => Attests tr' analysis
        | .error _ => Approves tr' → ∃ x, ⟨.now, .error x⟩ ∈ tr')
      (analyzeAttested sha256Hex config input inputCommitment) tr := by
  unfold analyzeAttested
  refine ends_perform_bind rfl htr (fun _ hbroker => ?_) fun _ _ h happroves => absurd happroves h
  refine Obeys.bind ((selectProvider_listed _ hbroker).mono ?_)
  rintro selected tr₁ ⟨hselected, hlisted⟩
  cases selected with
  | error x => exact fun happroves => absurd happroves hselected
  | ok provider =>
    refine Obeys.bind ((runAttestedChat_ends _ hselected).gives.mono ?_)
    rintro r _ ⟨hchat, since, rfl, -⟩
    cases r with
    | error x => exact fun happroves => absurd happroves hchat
    | ok result =>
      obtain ⟨hprovider, hvalid, hchecked⟩ := hchat
      refine Obeys.bind (Obeys.perform (P := fun _ _ => True) trivial fun time => ?_)
      cases time with
      | error x => exact fun _ => ⟨x, by simp⟩
      | ok verifiedAt =>
        refine ⟨?_, fun hattested => ⟨provider, congrArg some hprovider, ?_, ?_⟩, fun happroves => ?_⟩
        · by_cases hattested : (result.isValid == some true) = true <;> simp [hattested]
        · refine (hlisted provider rfl).mono fun a ha => ?_
          simp only [List.mem_append]
          exact .inl (.inl ha)
        · exact (hchecked (eq_of_beq hattested)).append _
        · rcases approves_append.mp happroves with hbefore | hnow
          · exact .inl (beq_iff_eq.mpr (hvalid hbefore))
          · exact absurd hnow (not_approves_of_unchecked (unchecked_singleton rfl))

/-- An analysis never throws, and its message, flag, provider and reason belong together. -/
theorem attests_of_gives {sha256Hex : Str → Str} {config : Option ComputeConfig}
    {input : SubscriptionCaseInput} {since : CallTrace} {r : Except JsError AnalysisResult}
    (h : (analyze sha256Hex config input).Gives since r) :
    ∃ analysis, r = .ok analysis ∧ Attests since analysis := by
  have hnone : ¬Approves [] := fun ⟨_, _, _, hmem⟩ => nomatch hmem
  have hends : Ends (fun r tr' => ∃ analysis, r = .ok analysis ∧ Attests tr' analysis)
      (analyze sha256Hex config input) [] := by
    cases config with
    | none => exact ⟨_, rfl, attests_unattested fun happroves => absurd happroves hnone⟩
    | some config =>
      refine Obeys.bind (Obeys.attempt ((analyzeAttested_ends config input _ hnone).mono ?_))
      intro r tr' hr
      cases r with
      | ok analysis => exact ⟨analysis, rfl, hr⟩
      | error x => exact ⟨_, rfl, attests_unattested hr⟩
  exact hends.of_gives h

end Steps

/-! ## What records keep of it -/

/-- What `s` says of the analysis, `r` says too. -/
structure Carries (s r : CaseRecord) : Prop where
  proposal : r.proposal = s.proposal
  degradedReason : r.degradedReason = s.degradedReason
  execution : ∀ e', r.execution = some e' → ∃ e, s.execution = some e ∧
    e'.teeAttested = e.teeAttested ∧ e'.providerAddress = e.providerAddress

theorem Carries.trans {s r r' : CaseRecord} (h : Carries s r) (h' : Carries r r') :
    Carries s r' := by
  refine ⟨h'.proposal.trans h.proposal, h'.degradedReason.trans h.degradedReason, ?_⟩
  intro e'' he''
  obtain ⟨e', he', hattested', hprovider'⟩ := h'.execution e'' he''
  obtain ⟨e, he, hattested, hprovider⟩ := h.execution e' he'
  exact ⟨e, he, hattested'.trans hattested, hprovider'.trans hprovider⟩

/-- All that is saved keeps what is said of the analysis, but for the proposal itself. -/
theorem carries_of_changes {k : Call} {c : Str} {before : CallTrace} {event : CaseEvent}
    {patch : CasePatch} {r r' : CaseRecord} (hchanges : Changes env k c before r event patch)
    (hmoved : Moved event patch r r') :
    Carries r r' ∨ (∃ deps ownerId input, k = .submitCase deps ownerId input) ∧
      event = .proposeAction := by
  obtain ⟨next, updatedAt, -, rfl⟩ := hmoved
  cases hchanges with
  | propose _ _ _ => exact .inr ⟨⟨_, _, _, rfl⟩, rfl⟩
  | fail _ =>
    refine .inl ⟨rfl, rfl, fun e' he' => ?_⟩
    obtain ⟨e, he, rfl⟩ := Option.map_eq_some_iff.mp he'
    exact ⟨e, he, rfl, rfl⟩
  | _ => exact .inl ⟨rfl, rfl, fun e' he' => ⟨e', he', rfl, rfl⟩⟩

section Histories

variable {h : AgentHistory} {w : World}

/-- The submission of the case has stored the proposal, and `r` keeps what it says. -/
structure ProposedBy (h : AgentHistory) (t : Nat) (s r : CaseRecord) : Prop where
  created : ∃ d, Created h t d ∧ d.caseId = r.caseId
  saved : .did t ⟨.save s, .ok ()⟩ ∈ h
  state : s.state = .actionProposed
  carries : Carries s r

theorem ProposedBy.append {t : Nat} {s r : CaseRecord} (hs : ProposedBy h t s r)
    (ev : Event Call Effect Effect.Answer JsError) : ProposedBy (h ++ [ev]) t s r := by
  obtain ⟨⟨d, hd, hid⟩, hsaved, hstate, hcarries⟩ := hs
  exact ⟨⟨d, List.mem_append_left _ hd, hid⟩, List.mem_append_left _ hsaved, hstate, hcarries⟩

/-- A record with an execution keeps what the submission of its case has stored. -/
theorem proposedBy_of_stored (hl : AgentLawful env h w) {t : Nat} {r : CaseRecord}
    (hst : Stored h t r) (hexecution : r.execution ≠ none) : ∃ u s, ProposedBy h u s r := by
  refine stored_induction (I := fun h _ r => r.execution ≠ none → ∃ u s, ProposedBy h u s r)
    ?_ ?_ ?_ hl hst hexecution
  · intro h ev t r ih hr
    obtain ⟨u, s, hs⟩ := ih hr
    exact ⟨u, s, hs.append ev⟩
  · intro h w t k d _ _ hcreates hd
    cases hcreates
    exact absurd rfl hd
  · intro h w t k event patch r r' u _ hs _ ih hr'
    obtain ⟨h₁, h₂, rfl, -, hchanges⟩ := hs.read
    have hid := hs.sameCore.caseId
    rcases carries_of_changes hchanges hs.moved with hcarries | ⟨⟨deps, ownerId, input, rfl⟩, rfl⟩
    · obtain ⟨e', he'⟩ := Option.ne_none_iff_exists'.mp hr'
      obtain ⟨e, he, -⟩ := hcarries.execution e' he'
      obtain ⟨v, s, hsub⟩ := ih (by rw [he]; exact Option.some_ne_none e)
      obtain ⟨⟨d, hd, hdc⟩, hsaved, hstate, hbefore⟩ := hsub.append (.did t ⟨.save r', .ok ()⟩)
      exact ⟨v, s, ⟨d, hd, hdc.trans hid.symm⟩, hsaved, hstate, hbefore.trans hcarries⟩
    · obtain ⟨d, hd, hdc⟩ := created_of_changes hchanges
      refine ⟨t, r', ⟨d, ?_, hdc.trans hid.symm⟩, ?_, hs.moved.target, rfl, rfl, ?_⟩
      · exact List.mem_append_left _ (List.mem_append_left _ hd)
      · exact List.mem_append_right _ (List.mem_singleton_self _)
      · exact fun e' he' => ⟨e', he', rfl, rfl⟩

/-- Two records of one case keep the same. -/
theorem ProposedBy.unique (hl : AgentLawful env h w) {t u : Nat} {s s' r r' : CaseRecord}
    (hs : ProposedBy h t s r) (hs' : ProposedBy h u s' r') (hid : r.caseId = r'.caseId) :
    s = s' := by
  obtain ⟨⟨d, hd, hdc⟩, hsaved, hstate, -⟩ := hs
  obtain ⟨⟨d', hd', hdc'⟩, hsaved', hstate', -⟩ := hs'
  obtain ⟨rfl, -⟩ := created_unique hl hd hd' (hdc.trans (hid.trans hdc'.symm))
  exact stored_state_unique hl (.inr hsaved) (.inr hsaved') (hstate.trans hstate'.symm)

/-- The records of a case say the same of the analysis. -/
theorem sameAttestation_of_stored (hl : AgentLawful env h w) {t u : Nat} {r r' : CaseRecord}
    (hst : Stored h t r) (hst' : Stored h u r') (hid : r.caseId = r'.caseId)
    {e e' : ExecutionEvidence} (he : r.execution = some e) (he' : r'.execution = some e') :
    e'.teeAttested = e.teeAttested ∧ e'.providerAddress = e.providerAddress := by
  obtain ⟨v, s, hs⟩ := proposedBy_of_stored hl hst (by rw [he]; exact Option.some_ne_none e)
  obtain ⟨v', s', hs'⟩ := proposedBy_of_stored hl hst' (by rw [he']; exact Option.some_ne_none e')
  obtain rfl := hs.unique hl hs' hid
  obtain ⟨f, hf, hattested, hprovider⟩ := hs.carries.execution e he
  obtain ⟨f', hf', hattested', hprovider'⟩ := hs'.carries.execution e' he'
  obtain rfl := Option.some.inj (hf.symm.trans hf')
  exact ⟨hattested'.trans hattested.symm, hprovider'.trans hprovider.symm⟩

/-! ## Receipts -/

/-- The receipt of a record is built from a stored record of the case. -/
theorem source_of_receipt (hl : AgentLawful env h w) {t : Nat} {r : CaseRecord}
    (hst : Stored h t r) {v : ClawbackReceipt} (hv : r.receipt = some v) :
    ∃ u a e, Stored h u a ∧ a.caseId = r.caseId ∧ a.execution = some e ∧
      v.execution.teeAttested = e.teeAttested ∧ v.execution.providerAddress = e.providerAddress := by
  refine stored_induction (I := fun h _ r => ∀ v, r.receipt = some v → ∃ u a e, Stored h u a ∧
      a.caseId = r.caseId ∧ a.execution = some e ∧ v.execution.teeAttested = e.teeAttested ∧
      v.execution.providerAddress = e.providerAddress) ?_ ?_ ?_ hl hst v hv
  · intro h ev t r ih v hv
    obtain ⟨u, a, e, ha, hrest⟩ := ih v hv
    exact ⟨u, a, e, ha.mono (List.subset_append_left _ _), hrest⟩
  · intro h w t k d _ _ hcreates v hv
    cases hcreates
    cases hv
  · intro h w t k event patch r r' u hl hs hu ih v hv
    have hid := hs.sameCore.caseId
    have hkeep : r'.receipt = r.receipt → ∃ u a e,
        Stored (h ++ [.did t ⟨.save r', .ok ()⟩]) u a ∧ a.caseId = r'.caseId ∧
        a.execution = some e ∧ v.execution.teeAttested = e.teeAttested ∧
        v.execution.providerAddress = e.providerAddress := by
      intro hsame
      obtain ⟨u, a, e, ha, hac, hrest⟩ := ih v (hsame ▸ hv)
      exact ⟨u, a, e, ha.mono (List.subset_append_left _ _), hac.trans hid.symm, hrest⟩
    obtain ⟨h₁, h₂, heq, -, hchanges⟩ := hs.read
    obtain ⟨next, updatedAt, -, rfl⟩ := hs.moved
    cases hchanges with
    | propose _ _ hproposes =>
      obtain ⟨degradedReason, rfl⟩ := hproposes.patch_eq
      exact hkeep rfl
    | @confirm deps _ _ _ _ _ _ current afterOutcome _ hchecked hafter _ hreceipted =>
      obtain ⟨input, built, receiptId, createdAt, anchor, -, hbuilt, rfl⟩ := hreceipted
      cases hv
      have hsaved : .did t ⟨.save afterOutcome, .ok ()⟩ ∈ h := by
        rw [heq]
        exact List.mem_append_left _ (mem_own.mp hafter)
      have hafterId := caseId_of_decides hl hs.called rfl hsaved
      obtain ⟨-, -, hexecution, -⟩ := artifacts_of_receiptInput hbuilt
      refine ⟨t, _, built.execution, .inr (List.mem_append_left _ hsaved), ?_, hexecution, rfl, rfl⟩
      exact hafterId.trans hid.symm
    | _ => exact hkeep rfl

/-! ## What a submission has been told -/

theorem not_approves_of_idle {tr : CallTrace} (hidle : Idle tr) : ¬Approves tr :=
  fun ⟨_, _, _, hmem⟩ => nomatch hidle _ hmem

/-- The clock does not fail. -/
theorem now_ne_error (hl : AgentLawful env h w) {t : Nat} {x : JsError} :
    .did t ⟨.now, .error x⟩ ∉ h := by
  intro hmem
  obtain ⟨h₁, h₂, rfl⟩ := List.append_of_mem hmem
  obtain ⟨k, c, w₁, w₂, -, -, -, hexec, -⟩ := hl.split rfl
  change exec .now c w₁ = _ at hexec
  cases c with
  | text time =>
    simp only [exec, succeed] at hexec
    split at hexec
    · cases hexec
    · cases hexec
  | _ => cases hexec

theorem submission_of_created (hl : AgentLawful env h w) {t : Nat} {d : CaseRecord}
    (hd : Created h t d) :
    ∃ deps ownerId input, .called t (.submitCase deps ownerId input) ∈ h := by
  obtain ⟨h₁, h₂, rfl⟩ := List.append_of_mem hd
  obtain ⟨k, c, w₁, w₂, -, hk, hcreates, -, -⟩ := hl.split rfl
  cases hcreates
  exact ⟨_, _, _, List.mem_append_left _ hk⟩

/-- After its proposal a submission does not check a response. -/
theorem not_approves_after (hl : Lawful (agent env) (Drafting env) World.empty h w) {t : Nat}
    {deps : OrchestratorDeps} {ownerId : Str} {input : SubscriptionCaseInput}
    (hk : .called t (.submitCase deps ownerId input) ∈ h) {h₁ h₂ : AgentHistory} {s : CaseRecord}
    (heq : h = h₁ ++ .did t ⟨.save s, .ok ()⟩ :: h₂) (hstate : s.state = .actionProposed) :
    ¬Approves (own t h₂) := by
  rintro ⟨provider, chatId, usage, hmem⟩
  obtain ⟨g₁, g₂, rfl⟩ := List.append_of_mem (mem_own.mp hmem)
  rw [← List.cons_append, ← List.append_assoc] at heq
  obtain ⟨k, c, w₁, w₂, -, hk', hdrafting, -, -⟩ := hl.split heq
  have hsub : h₁ ++ .did t ⟨.save s, .ok ()⟩ :: g₁ ⊆ h := by
    rw [heq]
    exact List.subset_append_left _ _
  obtain rfl := hl.called_unique hk (hsub hk')
  exact hdrafting rfl s (mem_own.mpr (by simp)) hstate

/-- What a submission has stored of its analysis is what it has been told. -/
theorem attests_of_proposedBy (hl : AgentLawful env h w)
    (hl' : Lawful (agent env) (Drafting env) World.empty h w) {t : Nat} {s r : CaseRecord}
    (hs : ProposedBy h t s r) :
    ∃ deps ownerId input analysis, .called t (.submitCase deps ownerId input) ∈ h ∧
      ProposedFrom input analysis s ∧ (∃ text, analysis.message.json = .str text) ∧
      Attests (own t h) analysis := by
  obtain ⟨⟨d, hd, -⟩, hsaved, hstate, -⟩ := hs
  obtain ⟨deps, ownerId, input, hk⟩ := submission_of_created hl hd
  obtain ⟨h₁, h₂, heq⟩ := List.append_of_mem hsaved
  obtain ⟨k, c, w₁, w₂, -, hk', hdrafting, -, -⟩ := hl'.split heq
  have hsub : h₁ ⊆ h := by
    rw [heq]
    exact List.subset_append_left _ _
  obtain rfl := hl'.called_unique hk (hsub hk')
  obtain ⟨analysis, ⟨before, since, after, hown, hbefore, hafter, hgives⟩, hfrom, htext⟩ :=
    hdrafting hstate
  obtain ⟨_, ⟨⟩, hdisclosed, hvouched, hnoticed⟩ := attests_of_gives hgives
  have hsplit : own t h = before ++ since ++ (after ++ ⟨.save s, .ok ()⟩ :: own t h₂) := by
    rw [heq, ← List.singleton_append, own_append, own_append, own_did_self, hown]
    simp only [List.append_assoc, List.singleton_append]
  refine ⟨deps, ownerId, input, analysis, hk, hfrom, htext, hdisclosed, fun hattested => ?_,
    fun happroves => ?_⟩
  · obtain ⟨provider, hprovider, hlisted, hchecked⟩ := hvouched hattested
    rw [hsplit]
    refine ⟨provider, hprovider, hlisted.mono fun a ha => ?_, (hchecked.prepend _).append _⟩
    exact List.mem_append_left _ (List.mem_append_right _ ha)
  · rw [hsplit, ← List.singleton_append] at happroves
    simp only [approves_append] at happroves
    have hsave : ¬Approves [⟨.save s, .ok ()⟩] := not_approves_of_unchecked (unchecked_singleton rfl)
    rcases happroves with (h₀ | h₀) | h₀ | h₀ | h₀
    · exact absurd h₀ (not_approves_of_idle hbefore)
    · refine (hnoticed h₀).imp_right ?_
      rintro ⟨x, hx⟩
      refine ⟨x, ?_⟩
      rw [hsplit]
      exact List.mem_append_left _ (List.mem_append_right _ hx)
    · exact absurd h₀ (not_approves_of_idle hafter)
    · exact absurd h₀ hsave
    · exact absurd h₀ (not_approves_after hl' hk heq hstate)

end Histories

/-- **Attestation is never overstated.** An analysis does not throw, whatever it is answered. In
every run, with any interleaving and any failures, a stored record says that its execution was
attested exactly if `processResponse` has returned `true` for the response whose content is the
stored message, given to the submission of the case by a provider that is listed as verifiable and
that is the one recorded; the degraded reason is null exactly then; and every receipt of the case
that is ever stored says the same, with the same provider. -/
theorem attestation_never_overstated :
    (∀ sha256Hex config input since r, (analyze sha256Hex config input).Gives since r →
      ∃ analysis, r = .ok analysis) ∧
    ∀ moves p, (agent env).run (Pool.init World.empty) moves = some p →
      ∀ u r e, Stored p.history u r → r.execution = some e →
      ∃ t deps ownerId input proposal,
        .called t (.submitCase deps ownerId input) ∈ p.history ∧
        (∃ d, Created p.history t d ∧ d.caseId = r.caseId) ∧ r.proposal = some proposal ∧
        (e.teeAttested = true ↔ ∃ provider content, e.providerAddress = some provider ∧
          content.json = .str proposal.exactMessage ∧ Vouched (own t p.history) provider content) ∧
        (r.degradedReason = none ↔ e.teeAttested = true) ∧
        ∀ u' r' v, Stored p.history u' r' → r'.caseId = r.caseId → r'.receipt = some v →
          v.execution.teeAttested = e.teeAttested ∧
            v.execution.providerAddress = e.providerAddress := by
  constructor
  · intro sha256Hex config input since r hgives
    obtain ⟨analysis, hr, -⟩ := attests_of_gives hgives
    exact ⟨analysis, hr⟩
  intro moves p hrun u r e hst he
  have hl := (System.run_lawful start_obeys hrun).lawful
  have hl' := (System.run_lawful start_drafting hrun).lawful
  have hsome : r.execution ≠ none := by
    rw [he]
    exact Option.some_ne_none e
  obtain ⟨t, s, hs⟩ := proposedBy_of_stored hl hst hsome
  obtain ⟨deps, ownerId, input, analysis, hk, hfrom, ⟨text, htext⟩, hattests⟩ :=
    attests_of_proposedBy hl hl' hs
  obtain ⟨proposalId, createdAt, hproposal⟩ := hfrom.proposal
  obtain ⟨executionId, startedAt, completedAt, hexecution⟩ := hfrom.execution
  obtain ⟨f, hf, hattested, hprovider⟩ := hs.carries.execution e he
  obtain rfl := Option.some.inj (hexecution.symm.trans hf)
  have hmessage : messageText analysis.message = text := by
    rw [messageText, htext]
  refine ⟨t, deps, ownerId, input, _, hk, hs.created, hs.carries.proposal.trans hproposal, ?_, ?_, ?_⟩
  · rw [hattested, hprovider]
    constructor
    · intro h
      obtain ⟨provider, hsame, hvouched⟩ := hattests.vouched h
      exact ⟨provider, analysis.message, hsame, htext.trans (congrArg Json.str hmessage.symm),
        hvouched⟩
    · rintro ⟨provider, content, -, -, hvouched⟩
      rcases hattests.noticed hvouched.checked.approves with h | ⟨x, hx⟩
      · exact h
      · exact absurd (mem_own.mp hx) (now_ne_error hl)
  · rw [hs.carries.degradedReason, hfrom.degradedReason, hattested]
    exact hattests.disclosed
  · intro u' r' v hst' hid hv
    obtain ⟨u₀, a, e₀, ha, hac, he₀, hv₁, hv₂⟩ := source_of_receipt hl hst' hv
    obtain ⟨hsame₁, hsame₂⟩ := sameAttestation_of_stored hl hst ha (hid.symm.trans hac.symm) he he₀
    exact ⟨hv₁.trans hsame₁, hv₂.trans hsame₂⟩

/-! ## A sample run -/

/-- 0G Compute is configured. -/
def attestedDeps : OrchestratorDeps :=
  { sampleDeps with
    compute := some
      { privateKey := js "0x1"
        rpcUrl := js "https://evmrpc-testnet.0g.ai"
        preferredProviderAddress := none } }

/-- A response with one choice. -/
def sampleResponse : Value Int :=
  (Value.ofJson? (.obj [(js "choices", .arr [.obj [(js "message",
    .obj [(js "content", .str (js "Please cancel my plan."))])]])])).getD .null

/-- A listed provider answers, and its response passes the check. -/
def attestedAnswers : List Choice :=
  [.ok, .services [⟨js "0xp1", []⟩, ⟨js "0xp2", js "TeeML"⟩], .ok, .ok,
    .metadata ⟨js "https://provider.test", js "model"⟩, .headers [],
    .response ⟨true, 200, some (js "chat-1")⟩, .json sampleResponse, .verdict (some true), sampleTime]

/-- A case is submitted with an attested analysis, approved and finalized. -/
def attestedMoves : List (Move Call Choice) :=
  .call (.submitCase attestedDeps (js "user_1") sampleInput) ::
    (sampleChoices.take 10 ++ attestedAnswers ++ sampleChoices.drop 10).map (.step 0) ++
  .call approveSample :: beginApproval 1 ++ continueApproval 1 ++ endApproval 1

set_option maxRecDepth 10000 in
theorem attestation_never_overstated_sample :
    ∃ p t r e v provider content,
      (agent samplePlatform).run (Pool.init World.empty) attestedMoves = some p ∧
      Stored p.history t r ∧ r.execution = some e ∧ r.receipt = some v ∧
      e.providerAddress = some provider ∧ v.execution.providerAddress = some provider ∧
      v.execution.teeAttested = true ∧ ∃ u, Vouched (own u p.history) provider content := by
  obtain ⟨p, t, r, hrun, -, hst, hr⟩ := stored_of_any attestedMoves (fun _ => true)
    (fun r => r.receipt.isSome && r.execution.any (·.teeAttested)) (by decide +kernel)
  obtain ⟨hreceipt, hexecution⟩ := (Bool.and_eq_true _ _).mp hr
  obtain ⟨v, hv⟩ := Option.isSome_iff_exists.mp hreceipt
  obtain ⟨e, he, hattested⟩ := (Option.any_eq_true _ _).mp hexecution
  obtain ⟨u, deps, ownerId, input, proposal, -, -, -, hiff, -, hreceipts⟩ :=
    attestation_never_overstated.2 attestedMoves p hrun t r e hst he
  obtain ⟨provider, content, hprovider, -, hvouched⟩ := hiff.mp hattested
  obtain ⟨hflag, hsame⟩ := hreceipts t r v hst rfl hv
  exact ⟨p, t, r, e, v, provider, content, hrun, hst, he, hv, hprovider, hsame.trans hprovider,
    hflag.trans hattested, u, hvouched⟩

end Clawback
