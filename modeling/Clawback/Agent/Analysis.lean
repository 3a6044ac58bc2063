import Clawback.Agent.Alone
import Clawback.Compute.Client

/-!
# An analysis that runs alone

An analysis never throws, whatever 0G Compute answers. Its message is a text, or else it is the
content of a response that nothing has refused.

* `ensures_analyze`: what an analysis asks, and what it returns.
-/

namespace Clawback

open Js Async

/-- The content of a response body. -/
def responseContent (data : Value Int) : Value Int := choiceContent (data.get? (js "choices"))

/-- A response whose content is not a text has been read, and no check of it has failed. -/
def Unreadable (l : Log) : Prop :=
  ∃ before a after data, l = before ++ a :: after ∧ a.entry = ⟨.responseJson, .ok data⟩ ∧
    (∀ text, (responseContent data).json ≠ .str text) ∧
    ∀ b ∈ after, ∀ provider chatId usage x,
      b.entry ≠ ⟨.processResponse provider chatId usage, .error x⟩

/-- The value is a text, or the calls have read what is not. -/
def Readable (content : Value Int) (l : Log) : Prop :=
  (∃ text, content.json = .str text) ∨ Unreadable l

theorem Unreadable.append {l : Log} (h : Unreadable l) (l' l'' : Log)
    (hquiet : ∀ b ∈ l'', ∀ provider chatId usage x,
      b.entry ≠ ⟨.processResponse provider chatId usage, .error x⟩) :
    Unreadable (l' ++ l ++ l'') := by
  obtain ⟨before, a, after, data, rfl, ha, hdata, hafter⟩ := h
  refine ⟨l' ++ before, a, after ++ l'', data, by simp, ha, hdata, fun b hb => ?_⟩
  rcases List.mem_append.mp hb with hb | hb
  · exact hafter b hb
  · exact hquiet b hb

theorem Readable.append {content : Value Int} {l : Log} (h : Readable content l) (l' l'' : Log)
    (hquiet : ∀ b ∈ l'', ∀ provider chatId usage x,
      b.entry ≠ ⟨.processResponse provider chatId usage, .error x⟩) :
    Readable content (l' ++ l ++ l'') :=
  h.imp_right fun hl => hl.append l' l'' hquiet

/-- What an analysis has asked in order to return `analysis`. -/
structure Analysed (sha256Hex : Str → Str) (input : SubscriptionCaseInput)
    (analysis : AnalysisResult) (since : Log) : Prop where
  asks : ∀ a ∈ since, a.entry.effect.isAnalysis = true
  commits : analysis.Commits sha256Hex input
  times : times since = analysis.attestation.toList.map TeeAttestationEvidence.verifiedAt
  readable : Readable analysis.message since

section Rules

variable {K α : Type} {sys : System K Effect Effect.Answer JsError World Choice α}
  {G : Log → World → Effect → Prop} {l : Log} {w : World}

theorem readMember_eq_ok {key : Str} {data : Value Int} {v : Option (Value Int)}
    (h : readMember key data = .ok v) : v = data.get? key := by
  unfold readMember at h
  split at h
  · cases h
  · cases h
    rfl

theorem readable_of_response {data : Value Int} {rest : Log}
    (hrest : ∀ b ∈ rest, ∀ provider chatId usage x,
      b.entry ≠ ⟨.processResponse provider chatId usage, .error x⟩) :
    Readable (responseContent data) (asked w .responseJson (.ok data) :: rest) := by
  by_cases htext : ∃ text, (responseContent data).json = .str text
  · exact .inl htext
  · refine .inr ⟨[], _, rest, data, rfl, rfl, fun text h => htext ⟨text, h⟩, hrest⟩

/-- What a chat, or a part of it, has done: it asks only 0G Compute, and the content it returns
is a text, or nothing has refused it. -/
def ChatPost (l : Log) (w : World) (r : Except JsError AttestedChatResult) (l' : Log)
    (w' : World) : Prop :=
  w' = w ∧ ∃ since, l' = l ++ since ∧ (∀ a ∈ since, a.entry.effect.isCompute = true) ∧
    ∀ result, r = .ok result → Readable result.content since

theorem ChatPost.after {r : Except JsError AttestedChatResult} {since l' : Log} {w' : World}
    (hsince : ∀ a ∈ since, a.entry.effect.isCompute = true) (h : ChatPost (l ++ since) w r l' w') :
    ChatPost l w r l' w' := by
  obtain ⟨rfl, rest, rfl, hrest, hread⟩ := h
  refine ⟨rfl, since ++ rest, List.append_assoc _ _ _,
    List.forall_mem_append.mpr ⟨hsince, hrest⟩, ?_⟩
  · intro result hr
    have happend := (hread result hr).append since []
      fun b hb => (List.not_mem_nil hb).elim
    rwa [List.append_nil] at happend

theorem ChatPost.error {x : JsError} {since : Log}
    (hsince : ∀ a ∈ since, a.entry.effect.isCompute = true) :
    ChatPost l w (.error x) (l ++ since) w :=
  ⟨rfl, since, rfl, hsince, fun _ h => nomatch h⟩

theorem ensures_readResponse (hsys : sys.exec = exec)
    (hG : ∀ l w e, e.isCompute = true → G l w e) (provider model : Str) (resKey : Option Str) :
    Ensures sys G (ChatPost l w)
      (readResponse provider model resKey) l w := by
  unfold readResponse
  refine Ensures.bind (ensures_external hsys rfl (hG _ _ _ rfl) fun r => ?_)
  have hread : ∀ a ∈ [asked w .responseJson r], a.entry.effect.isCompute = true := by
    intro a ha
    rw [List.mem_singleton.mp ha]
    rfl
  cases r with
  | error x => exact ⟨rfl, _, rfl, hread, fun _ h => nomatch h⟩
  | ok data =>
    refine Ensures.bind (Ensures.lift ?_)
    cases readChatId resKey data with
    | error x => exact ⟨rfl, _, rfl, hread, fun _ h => nomatch h⟩
    | ok chatId =>
      refine Ensures.bind (Ensures.lift ?_)
      cases hchoices : readMember (js "choices") data with
      | error x => exact ⟨rfl, _, rfl, hread, fun _ h => nomatch h⟩
      | ok choices =>
        obtain rfl := readMember_eq_ok hchoices
        unfold checkResponse
        by_cases hchat : truthy chatId = true
        · rw [if_pos hchat]
          refine Ensures.bind (ensures_external hsys rfl (hG _ _ _ rfl) fun r => ?_)
          have hboth : ∀ a ∈ [asked w .responseJson (.ok data)] ++
              [asked w (.processResponse provider chatId (usageContent data)) r],
              a.entry.effect.isCompute = true := by
            intro a ha
            rcases List.mem_append.mp ha with ha | ha
            · exact hread a ha
            · rw [List.mem_singleton.mp ha]
              rfl
          cases r with
          | error x => exact ⟨rfl, _, List.append_assoc _ _ _, hboth, fun _ h => nomatch h⟩
          | ok verdict =>
            refine ⟨rfl, _, List.append_assoc _ _ _, hboth, ?_⟩
            rintro result ⟨⟩
            refine readable_of_response fun b hb provider' chatId' usage' x heq => ?_
            rw [List.mem_singleton.mp hb] at heq
            cases heq
        · rw [if_neg hchat]
          refine ⟨rfl, _, rfl, hread, ?_⟩
          rintro result ⟨⟩
          exact readable_of_response fun b hb => (List.not_mem_nil hb).elim

theorem ensures_runAttestedChat (hsys : sys.exec = exec)
    (hG : ∀ l w e, e.isCompute = true → G l w e) (provider : Str) (messages : List (Str × Str)) :
    Ensures sys G (ChatPost l w) (runAttestedChat provider messages) l w := by
  unfold runAttestedChat
  refine ensures_computing_bind hsys (ensureFunded_computing provider) hG
    (fun _ _ => ChatPost.error) fun _ since₁ _ hsince₁ => ?_
  refine Ensures.mono (fun _ _ _ => ChatPost.after hsince₁) ?_
  refine ensures_computing_bind hsys (perform_computing rfl) hG
    (fun _ _ => ChatPost.error) fun service since₂ _ hsince₂ => ?_
  refine Ensures.mono (fun _ _ _ => ChatPost.after hsince₂) ?_
  refine ensures_computing_bind hsys (perform_computing rfl) hG
    (fun _ _ => ChatPost.error) fun headers since₃ _ hsince₃ => ?_
  refine Ensures.mono (fun _ _ _ => ChatPost.after hsince₃) ?_
  refine ensures_computing_bind hsys (perform_computing rfl) hG
    (fun _ _ => ChatPost.error) fun response since₄ _ hsince₄ => ?_
  refine Ensures.mono (fun _ _ _ => ChatPost.after hsince₄) ?_
  by_cases hok : response.ok = true
  · rw [if_pos hok]
    exact ensures_readResponse hsys hG _ _ _
  · rw [if_neg hok]
    exact ensures_computing_bind hsys (perform_computing rfl) hG
      (fun _ _ => ChatPost.error) fun _ _ _ hsince => Ensures.throw (ChatPost.error hsince)

/-! ## The analysis -/

theorem isAnalysis_of_compute {l : Log} (h : ∀ a ∈ l, a.entry.effect.isCompute = true) :
    ∀ a ∈ l, a.entry.effect.isAnalysis = true :=
  fun a ha => Effect.isAnalysis_of_isCompute (h a ha)

/-- An analysis that is attested has read the clock once, at its end. -/
theorem ensures_analyzeAttested (hsys : sys.exec = exec)
    (hG : ∀ l w e, e.isAnalysis = true → G l w e) {sha256Hex : Str → Str} (config : ComputeConfig)
    (input : SubscriptionCaseInput) :
    Ensures sys G (fun r l' w' => w' = w ∧ ∃ since, l' = l ++ since ∧
      (∀ a ∈ since, a.entry.effect.isAnalysis = true) ∧
      (∀ x, r = .error x → times since = []) ∧
      ∀ analysis, r = .ok analysis → Analysed sha256Hex input analysis since)
      (analyzeAttested sha256Hex config input (analysedCommitment sha256Hex input)) l w := by
  have hG' : ∀ l w e, e.isCompute = true → G l w e :=
    fun l w e he => hG l w e (Effect.isAnalysis_of_isCompute he)
  have herr : ∀ (x : JsError) (since : Log), (∀ a ∈ since, a.entry.effect.isCompute = true) →
      w = w ∧ ∃ rest, l ++ since = l ++ rest ∧ (∀ a ∈ rest, a.entry.effect.isAnalysis = true) ∧
        (∀ y, (Except.error x : Except JsError AnalysisResult) = .error y → times rest = []) ∧
        ∀ analysis, (Except.error x : Except JsError AnalysisResult) = .ok analysis →
          Analysed sha256Hex input analysis rest :=
    fun x since hsince => ⟨rfl, since, rfl, isAnalysis_of_compute hsince,
      fun _ _ => times_of_compute hsince, fun _ h => nomatch h⟩
  unfold analyzeAttested
  refine ensures_computing_bind hsys (perform_computing rfl) hG' herr fun _ since₁ _ hsince₁ => ?_
  refine ensures_computing_bind hsys (selectProvider_computing _) hG' (fun x since hsince => ?_)
    fun provider since₂ _ hsince₂ => ?_
  · rw [List.append_assoc]
    exact herr x _ (List.forall_mem_append.mpr ⟨hsince₁, hsince⟩)
  refine Ensures.bind ((ensures_runAttestedChat hsys hG' _ _).mono ?_)
  rintro r _ w' ⟨rfl, since₃, rfl, hsince₃, hread⟩
  have hbefore :=
    List.forall_mem_append.mpr ⟨List.forall_mem_append.mpr ⟨hsince₁, hsince₂⟩, hsince₃⟩
  cases r with
  | error x =>
    rw [List.append_assoc, List.append_assoc, ← List.append_assoc since₁]
    exact herr x _ hbefore
  | ok result =>
    refine Ensures.bind (ensures_now hsys (hG _ _ _ rfl) fun verifiedAt => ?_)
    have hasks : ∀ a ∈ since₁ ++ since₂ ++ since₃ ++ [asked w' .now (.ok verifiedAt)],
        a.entry.effect.isAnalysis = true := by
      refine List.forall_mem_append.mpr ⟨isAnalysis_of_compute hbefore, fun a ha => ?_⟩
      rw [List.mem_singleton.mp ha]
      rfl
    refine ⟨rfl, _, ?_, hasks, ?_, ?_⟩
    · simp only [List.append_assoc]
    · exact fun x h => nomatch h
    · rintro analysis ⟨⟩
      refine ⟨hasks, ⟨rfl, rfl⟩, ?_, ?_⟩
      · rw [times_append, times_of_compute hbefore]
        rfl
      · refine (hread result rfl).append _ _ fun b hb provider chatId usage x heq => ?_
        rw [List.mem_singleton.mp hb] at heq
        cases heq

/-- An analysis never throws. -/
theorem ensures_analyze (hsys : sys.exec = exec)
    (hG : ∀ l w e, e.isAnalysis = true → G l w e) {sha256Hex : Str → Str}
    (config : Option ComputeConfig) (input : SubscriptionCaseInput) :
    Ensures sys G (fun r l' w' => w' = w ∧ ∃ analysis since, r = .ok analysis ∧ l' = l ++ since ∧
      Analysed sha256Hex input analysis since) (analyze sha256Hex config input) l w := by
  cases config with
  | none =>
    refine ⟨rfl, _, [], rfl, (List.append_nil l).symm, ?_, ⟨rfl, rfl⟩, rfl, .inl ⟨_, rfl⟩⟩
    exact fun a ha => (List.not_mem_nil ha).elim
  | some config =>
    refine Ensures.bind (Ensures.attempt ((ensures_analyzeAttested hsys hG config input).mono ?_))
    rintro r _ _ ⟨rfl, since, rfl, hsince, hthrew, hanalysed⟩
    cases r with
    | ok analysis => exact ⟨rfl, analysis, since, rfl, rfl, hanalysed analysis rfl⟩
    | error x =>
      exact ⟨rfl, _, since, rfl, rfl, hsince, ⟨rfl, rfl⟩, hthrew x rfl, .inl ⟨_, rfl⟩⟩

end Rules

end Clawback
