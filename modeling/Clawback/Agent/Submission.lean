import Clawback.Agent.Analysis
import Clawback.Agent.Orchestrator

/-!
# A submission that runs alone

What `submitCase` asks and stores when no other call interferes.

* `Submitting`: how far a submission can get, with the record it has stored last.
* `ensures_submitCase`: a submission ends where the store fails or where a message is not a
  text; otherwise it comes to `AWAITING_APPROVAL`.
-/

namespace Clawback

open Js Async

variable {env : Platform}

theorem ensures_pureMove {K α : Type} {sys : System K Effect Effect.Answer JsError World Choice α}
    {G : Log → World → Effect → Prop} {l : Log} {w : World} (hsys : sys.exec = exec)
    {Q : Except JsError CaseRecord → Log → World → Prop} {c : Str} {event : CaseEvent}
    {f : CaseRecord → CasePatch} {record : CaseRecord} {next : CaseState}
    (hG : ∀ l w e, e.isQuiet = false ∨ e.isSilent = true → G l w e)
    (hfound : w.store c = some record) (hid : record.caseId = c)
    (hnext : applyTransition record.state event = .ok next) (hchanges : (f record).caseId = none)
    (herr : ∀ x since, Cut w c since → Q (.error x) (l ++ since) w)
    (hok : ∀ time, Q (.ok (record.patched (f record) next time))
      (l ++ moveLog w c record (record.patched (f record) next time) time)
      (w.put (record.patched (f record) next time))) :
    Ensures sys G Q (transition c event (purePatch f)) l w := by
  have hmove := ensures_move hsys (fun record => .ok (f record)) hG hfound hid hnext rfl
    hchanges herr hok
  exact hmove

/-- What a submission asks before it creates its record. -/
def draftLog (w : World) (uuid startedAt : Str) (iv : Bytes) : Log :=
  [drew w uuid, asked (w.draw uuid) .now (.ok startedAt),
    asked (w.draw uuid) (.randomBytes 12) (.ok iv)]

/-- The evidence of an analysis. -/
def evidenceOf (analysis : AnalysisResult) (executionId caseId startedAt completedAt : Str) :
    ExecutionEvidence where
  executionId
  caseId
  startedAt
  completedAt := some completedAt
  succeeded := true
  teeAttested := analysis.teeAttested
  attestationEvidence := analysis.attestation
  providerAddress := analysis.providerAddress
  inputCommitment := analysis.inputCommitment
  outputCommitment := analysis.outputCommitment
  errorMessage := none

/-- The proposal that follows an analysis. -/
def proposalOf (input : SubscriptionCaseInput) (analysis : AnalysisResult)
    (uuid createdAt : Str) : ActionProposal where
  proposalId := js "proposal" ++ js "_" ++ uuid
  summary := summarize input
  exactMessage := messageText analysis.message
  estimatedRecoveryCents := estimateRecovery input
  createdAt

/-- What the patch of `PROPOSE_ACTION` draws and reads. -/
structure ProposeChoices where
  uuid : Str
  createdAt : Str
  iv : Bytes
  executionUuid : Str
  completedAt : Str
  updatedAt : Str

namespace ProposeChoices

variable (choices : ProposeChoices) (w : World) (r r' : CaseRecord)

/-- The world after the patch. -/
def world : World := (w.draw choices.uuid).draw choices.executionUuid

/-- What is asked from the end of the analysis up to the end of the patch. -/
def patchLog : Log :=
  [drew w choices.uuid, asked (w.draw choices.uuid) .now (.ok choices.createdAt),
    asked (w.draw choices.uuid) (.get r.caseId) (.ok r),
    asked (w.draw choices.uuid) (.randomBytes 12) (.ok choices.iv),
    drew (w.draw choices.uuid) choices.executionUuid,
    asked (choices.world w) .now (.ok choices.completedAt)]

/-- What is asked from the end of the analysis up to the end of the transition. -/
def log : Log :=
  choices.patchLog w r ++
    [asked (choices.world w) .now (.ok choices.updatedAt), saved (choices.world w) r']

/-- The record with the proposal. -/
def proposed (input : SubscriptionCaseInput) (analysis : AnalysisResult)
    (message : EncryptedPayload) : CaseRecord :=
  r.patched
    { proposal := some (some (proposalOf input analysis choices.uuid choices.createdAt))
      encryptedProposalMessage := some (some message)
      execution := some (some (evidenceOf analysis (js "exec" ++ js "_" ++ choices.executionUuid)
        r.caseId r.createdAt choices.completedAt))
      degradedReason := some analysis.degradedReason } .actionProposed choices.updatedAt

end ProposeChoices

/-- A submission has got to the world `w`, and the record it has stored last is `r`. -/
inductive Submitting (env : Platform) (deps : OrchestratorDeps) (ownerId : Str)
    (input : SubscriptionCaseInput) (w₀ : World) : CaseRecord → Log → World → Prop
  | created {uuid startedAt : Str} {iv : Bytes} {encryptedInput : EncryptedPayload}
    {d : CaseRecord} : uuid ∉ w₀.drawn →
    encryptAtRest env.gcm (.str (Json.stringify (toJson input : Json Int))) env.encryptionKey
      iv = .ok encryptedInput →
    d = draftRecord (js "case" ++ js "_" ++ uuid) ownerId encryptedInput deps.source startedAt →
    Submitting env deps ownerId input w₀ d
      (draftLog w₀ uuid startedAt iv ++ [created (w₀.draw uuid) d]) ((w₀.draw uuid).put d)
  | advanced {r : CaseRecord} {l : Log} {w : World} {event : CaseEvent} {time : Str} :
    Submitting env deps ownerId input w₀ r l w →
    event ∈ [.submit, .beginAnalysis, .requestApproval] →
    applyTransition r.state event = .ok event.target →
    Submitting env deps ownerId input w₀ (r.patched {} event.target time)
      (l ++ moveLog w r.caseId r (r.patched {} event.target time) time)
      (w.put (r.patched {} event.target time))
  | proposed {r : CaseRecord} {l since : Log} {w : World} {analysis : AnalysisResult}
    {message : EncryptedPayload} {choices : ProposeChoices} :
    Submitting env deps ownerId input w₀ r l w → r.state = .analyzing →
    Analysed env.sha256Hex input analysis since →
    encryptAtRest env.gcm analysis.message.json env.encryptionKey choices.iv = .ok message →
    Submitting env deps ownerId input w₀ (choices.proposed r input analysis message)
      (l ++ since ++ choices.log w r (choices.proposed r input analysis message))
      ((choices.world w).put (choices.proposed r input analysis message))

/-- How a submission ends. -/
inductive Submits (env : Platform) (deps : OrchestratorDeps) (ownerId : Str)
    (input : SubscriptionCaseInput) (w₀ : World) :
    Except JsError CaseSummary → Log → World → Prop
  /-- It has stored nothing. -/
  | unstored {x : JsError} {l : Log} {uuid : Str} : l.all harmless = true →
    Submits env deps ownerId input w₀ (.error x) l (w₀.draw uuid)
  /-- The store has failed, or the message is not a text. -/
  | cut {x : JsError} {l since : Log} {w w' : World} {r : CaseRecord} :
    Submitting env deps ownerId input w₀ r l w → since.all harmless = true →
    w'.store = w.store → w'.ledger = w.ledger → w.drawn ⊆ w'.drawn →
    (∃ a ∈ since, storeFails a = true) ∨ Unreadable since →
    Submits env deps ownerId input w₀ (.error x) (l ++ since) w'
  /-- The case awaits approval. -/
  | awaiting {result : Except JsError CaseSummary} {l since : Log} {w : World} {r : CaseRecord} :
    Submitting env deps ownerId input w₀ r l w → r.state = .awaitingApproval →
    since.all harmless = true → Submits env deps ownerId input w₀ result (l ++ since) w

/-! ## Milestones -/

section

variable {deps : OrchestratorDeps} {ownerId : Str} {input : SubscriptionCaseInput} {w₀ w : World}
  {r : CaseRecord} {l : Log}

theorem store_put (w : World) (r : CaseRecord) : (w.put r).store r.caseId = some r := if_pos rfl

/-- The record that is stored last is the one in the store. -/
theorem Submitting.found (h : Submitting env deps ownerId input w₀ r l w) :
    w.store r.caseId = some r := by
  cases h with
  | created _ _ _ => exact store_put _ _
  | advanced _ _ _ => exact store_put _ _
  | proposed _ _ _ _ => exact store_put _ _

/-- The encryption key is a key. -/
theorem Submitting.key (h : Submitting env deps ownerId input w₀ r l w) :
    ∃ key, loadKey env.encryptionKey = .ok key := by
  induction h with
  | created _ hencrypted _ =>
    obtain ⟨key, hkey, -⟩ := bind_eq_ok.mp hencrypted
    exact ⟨key, hkey⟩
  | advanced _ _ _ ih => exact ih
  | proposed _ _ _ _ ih => exact ih

/-- With a key, only what is not a text is refused. -/
theorem not_text_of_encryptAtRest {gcm : Gcm} {plaintext : Json Int} {keyHex : Str} {key iv : Bytes}
    {x : JsError} (hkey : loadKey keyHex = .ok key)
    (h : encryptAtRest gcm plaintext keyHex iv = .error x) : ∀ text, plaintext ≠ .str text := by
  rintro text rfl
  unfold encryptAtRest at h
  rw [hkey] at h
  cases h

end

section Rules

variable {K α : Type} {sys : System K Effect Effect.Answer JsError World Choice α}
  {G : Log → World → Effect → Prop} {deps : OrchestratorDeps} {ownerId : Str}
  {input : SubscriptionCaseInput} {w₀ w : World}

theorem ensures_now_bind (hsys : sys.exec = exec) {β : Type} {l : Log}
    {Q : Except JsError β → Log → World → Prop} {f : Str → Action β} (hG : G l w .now)
    (hok : ∀ time, Ensures sys G Q (f time) (l ++ [asked w .now (.ok time)]) w) :
    Ensures sys G Q (now >>= f) l w := Ensures.bind (ensures_now hsys hG hok)

theorem ensures_newId_bind (hsys : sys.exec = exec) {β : Type} {l : Log}
    {Q : Except JsError β → Log → World → Prop} {f : Str → Action β} {pre : Str}
    (hG : G l w .randomUUID)
    (hok : ∀ uuid, uuid ∉ w.drawn →
      Ensures sys G Q (f (pre ++ js "_" ++ uuid)) (l ++ [drew w uuid]) (w.draw uuid)) :
    Ensures sys G Q (newId pre >>= f) l w :=
  Ensures.bind (Ensures.bind (ensures_uuid hsys hG hok))

theorem ensures_encryptText_bind (hsys : sys.exec = exec) {β : Type} {l : Log}
    {Q : Except JsError β → Log → World → Prop} {f : EncryptedPayload → Action β}
    {plaintext : Json Int} (hG : G l w (.randomBytes 12))
    (herr : ∀ iv x, encryptAtRest env.gcm plaintext env.encryptionKey iv = .error x →
      Q (.error x) (l ++ [asked w (.randomBytes 12) (.ok iv)]) w)
    (hok : ∀ iv payload, encryptAtRest env.gcm plaintext env.encryptionKey iv = .ok payload →
      Ensures sys G Q (f payload) (l ++ [asked w (.randomBytes 12) (.ok iv)]) w) :
    Ensures sys G Q (encryptText env plaintext >>= f) l w := by
  refine Ensures.bind (Ensures.bind (ensures_bytes hsys hG fun iv => Ensures.lift ?_))
  cases hencrypted : encryptAtRest env.gcm plaintext env.encryptionKey iv with
  | error x => exact herr iv x hencrypted
  | ok payload => exact hok iv payload hencrypted

/-- One of the moves that change nothing but the state. -/
theorem ensures_advance (hsys : sys.exec = exec) {β : Type}
    (hG : ∀ l w e, e.isFee = false → G l w e)
    {Q : Except JsError β → Log → World → Prop} {event : CaseEvent} {r : CaseRecord} {l : Log}
    {c : Str} {f : CaseRecord → Action β} (h : Submitting env deps ownerId input w₀ r l w)
    (hid : r.caseId = c) (hevent : event ∈ [.submit, .beginAnalysis, .requestApproval])
    (hnext : applyTransition r.state event = .ok event.target)
    (herr : ∀ x since, Cut w c since → Q (.error x) (l ++ since) w)
    (hok : ∀ r' l' w', Submitting env deps ownerId input w₀ r' l' w' → r'.state = event.target →
      r'.caseId = c → r'.createdAt = r.createdAt → Ensures sys G Q (f r') l' w') :
    Ensures sys G Q (transition c event (purePatch fun _ => {}) >>= f) l w := by
  subst hid
  refine Ensures.bind (ensures_pureMove hsys (fun l w e he => hG l w e (Effect.isFee_eq_false he))
    h.found rfl hnext rfl herr fun time => ?_)
  exact hok _ _ _ (.advanced h hevent hnext) rfl rfl rfl

/-- The patch of `PROPOSE_ACTION`. -/
theorem ensures_proposalPatch (hsys : sys.exec = exec) (hG : ∀ l w e, e.isFee = false → G l w e)
    {Q : Except JsError CasePatch → Log → World → Prop} {l : Log} {proposal : ActionProposal}
    {analysis : AnalysisResult} {startedAt : Str} {r : CaseRecord}
    (herr : ∀ iv x, encryptAtRest env.gcm analysis.message.json env.encryptionKey iv = .error x →
      Q (.error x) (l ++ [asked w (.randomBytes 12) (.ok iv)]) w)
    (hok : ∀ iv message uuid completedAt,
      encryptAtRest env.gcm analysis.message.json env.encryptionKey iv = .ok message →
      Q (.ok { proposal := some (some proposal)
               encryptedProposalMessage := some (some message)
               execution := some (some (evidenceOf analysis (js "exec" ++ js "_" ++ uuid)
                 r.caseId startedAt completedAt))
               degradedReason := some analysis.degradedReason })
        (l ++ [asked w (.randomBytes 12) (.ok iv), drew w uuid,
          asked (w.draw uuid) .now (.ok completedAt)]) (w.draw uuid)) :
    Ensures sys G Q (proposalPatch env proposal analysis startedAt r) l w := by
  unfold proposalPatch
  refine ensures_encryptText_bind hsys (hG _ _ _ rfl) herr fun iv message hencrypted => ?_
  refine ensures_newId_bind hsys (hG _ _ _ rfl) fun uuid _ => ?_
  refine ensures_now_bind hsys (hG _ _ _ rfl) fun completedAt => ?_
  have hlog : ∀ a b c : Asked Effect Effect.Answer JsError World,
      l ++ [a] ++ [b] ++ [c] = l ++ [a, b, c] := fun a b c => by
    rw [List.append_assoc, List.append_assoc]
    rfl
  rw [hlog]
  exact hok iv message uuid completedAt hencrypted

/-- The analysis and the proposal that follows from it. -/
theorem ensures_propose (hsys : sys.exec = exec) {β : Type}
    (hG : ∀ l w e, e.isFee = false → G l w e)
    {Q : Except JsError β → Log → World → Prop} {r : CaseRecord} {l : Log} {c startedAt : Str}
    {next : Action β} (h : Submitting env deps ownerId input w₀ r l w)
    (hid : r.caseId = c) (hstate : r.state = .analyzing) (hcreatedAt : r.createdAt = startedAt)
    (herr : ∀ x since w', since.all harmless = true → w'.store = w.store →
      w'.ledger = w.ledger → w.drawn ⊆ w'.drawn →
      (∃ a ∈ since, storeFails a = true) ∨ Unreadable since → Q (.error x) (l ++ since) w')
    (hok : ∀ r' l' w', Submitting env deps ownerId input w₀ r' l' w' →
      r'.state = .actionProposed → r'.caseId = c → Ensures sys G Q next l' w') :
    Ensures sys G Q (do
      let analysis ← analyze env.sha256Hex deps.compute input
      let proposalId ← newId (js "proposal")
      let createdAt ← now
      let proposal : ActionProposal :=
        { proposalId
          summary := summarize input
          exactMessage := messageText analysis.message
          estimatedRecoveryCents := estimateRecovery input
          createdAt }
      let _ ← transition c .proposeAction (proposalPatch env proposal analysis startedAt)
      next) l w := by
  subst hid hcreatedAt
  refine Ensures.bind ((ensures_analyze hsys
    (fun l w e he => hG l w e (Effect.isFee_of_isAnalysis he)) _ _).mono ?_)
  rintro _ _ w' ⟨rfl, analysis, since, rfl, rfl, hanalysed⟩
  refine ensures_newId_bind hsys (hG _ _ _ rfl) fun uuid hfresh => ?_
  refine ensures_now_bind hsys (hG _ _ _ rfl) fun createdAt => ?_
  have hfound : (w'.draw uuid).store r.caseId = some r := h.found
  have hlegal : applyTransition r.state .proposeAction = .ok .actionProposed := by
    rw [hstate]
    rfl
  have hsince := harmless_of_analysis hanalysed.asks
  have hdrawn : ∀ uuid' : Str, w'.drawn ⊆ ((w'.draw uuid).draw uuid').drawn :=
    fun uuid' d hd => List.mem_cons_of_mem _ (List.mem_cons_of_mem _ hd)
  refine Ensures.bind (ensures_transition_found hsys
    (fun l w e he => hG l w e (Effect.isFee_eq_false he)) hfound hlegal (fun x => ?_) ?_)
  · have hthrow := herr x (since ++ [drew w' uuid, asked (w'.draw uuid) .now (.ok createdAt),
      asked (w'.draw uuid) (.get r.caseId) (.error x)]) (w'.draw uuid)
      (harmless_append hsince rfl) rfl rfl (fun d hd => List.mem_cons_of_mem _ hd)
      (.inl ⟨asked (w'.draw uuid) (.get r.caseId) (.error x), by simp,
        Option.isSome_iff_exists.mpr ⟨r, hfound⟩⟩)
    simpa only [List.append_assoc, List.cons_append, List.nil_append] using hthrow
  · refine ensures_proposalPatch hsys hG (fun iv x hencrypted => ?_)
      fun iv message executionUuid completedAt hencrypted updatedAt => ?_
    · obtain ⟨key, hkey⟩ := h.key
      have hunreadable : Unreadable since := hanalysed.readable.resolve_left fun ⟨text, htext⟩ =>
        not_text_of_encryptAtRest hkey hencrypted text htext
      have hafter := hunreadable.append [] [drew w' uuid,
        asked (w'.draw uuid) .now (.ok createdAt), asked (w'.draw uuid) (.get r.caseId) (.ok r),
        asked (w'.draw uuid) (.randomBytes 12) (.ok iv)] (by simp [drew, asked])
      have hthrow := herr x _ (w'.draw uuid) (harmless_append (harmless_append rfl hsince) rfl) rfl rfl
        (fun d hd => List.mem_cons_of_mem _ hd) (.inr hafter)
      simpa only [List.append_assoc, List.cons_append, List.nil_append] using hthrow
    · let choices : ProposeChoices := ⟨uuid, createdAt, iv, executionUuid, completedAt, updatedAt⟩
      let r' := choices.proposed r input analysis message
      refine ⟨fun x => ?_, ?_⟩
      · have hthrow := herr x (since ++ [drew w' uuid, asked (w'.draw uuid) .now (.ok createdAt),
          asked (w'.draw uuid) (.get r.caseId) (.ok r),
          asked (w'.draw uuid) (.randomBytes 12) (.ok iv), drew (w'.draw uuid) executionUuid,
          asked ((w'.draw uuid).draw executionUuid) .now (.ok completedAt),
          asked ((w'.draw uuid).draw executionUuid) .now (.ok updatedAt),
          asked ((w'.draw uuid).draw executionUuid) (.save r') (.error x)])
          ((w'.draw uuid).draw executionUuid)
          (harmless_append hsince rfl) rfl rfl (hdrawn executionUuid)
          (.inl ⟨_, List.mem_append_right _ (List.mem_of_getLast? rfl), rfl⟩)
        simp only [List.append_assoc, List.cons_append, List.nil_append] at hthrow ⊢
        exact hthrow
      · have hproposed : Submitting env deps ownerId input w₀ r' (l ++ since ++ choices.log w' r r')
            ((choices.world w').put r') :=
          .proposed h hstate hanalysed hencrypted
        have hnext := hok _ _ _ hproposed rfl rfl
        unfold ProposeChoices.log ProposeChoices.patchLog at hnext
        simp only [List.append_assoc, List.cons_append, List.nil_append] at hnext ⊢
        exact hnext

/-- **Submission.** How a submission that runs alone ends. -/
theorem ensures_submitCase (hsys : sys.exec = exec) (hG : ∀ l w e, e.isFee = false → G l w e)
    (deps : OrchestratorDeps) (ownerId : Str) (input : SubscriptionCaseInput) (w₀ : World) :
    Ensures sys G (Submits env deps ownerId input w₀) (submitCase env deps ownerId input) [] w₀ := by
  unfold submitCase
  refine ensures_newId_bind hsys (hG _ _ _ rfl) fun uuid hfresh => ?_
  refine ensures_now_bind hsys (hG _ _ _ rfl) fun startedAt => ?_
  refine ensures_encryptText_bind hsys (hG _ _ _ rfl) (fun iv x _ => .unstored rfl)
    fun iv encryptedInput hencrypted => ?_
  refine Ensures.bind (ensures_create hsys (hG _ _ _ rfl) (fun x => .unstored rfl) ?_)
  have hcreated : Submitting env deps ownerId input w₀
      (draftRecord (js "case" ++ js "_" ++ uuid) ownerId encryptedInput deps.source startedAt) _ _ :=
    .created hfresh hencrypted rfl
  have hcut : ∀ {r : CaseRecord} {l : Log} {w : World} {c : Str},
      Submitting env deps ownerId input w₀ r l w → ∀ (x : JsError) (since : Log), Cut w c since →
        Submits env deps ownerId input w₀ (.error x) (l ++ since) w := by
    intro r l w c h x since hcut
    obtain ⟨a, ha, hfails, -⟩ := hcut.fails
    exact .cut h hcut.harmless rfl rfl (fun _ hd => hd) (.inl ⟨a, ha, hfails⟩)
  apply ensures_advance hsys hG hcreated rfl (by simp) rfl (hcut hcreated)
  intro r₁ l₁ w₁ h₁ hstate₁ hid₁ hcreatedAt₁
  apply ensures_advance hsys hG h₁ hid₁ (by simp) (by rw [hstate₁]; rfl) (hcut h₁)
  intro r₂ l₂ w₂ h₂ hstate₂ hid₂ hcreatedAt₂
  refine ensures_propose hsys hG h₂ hid₂ hstate₂ (hcreatedAt₂.trans hcreatedAt₁) ?_ ?_
  · exact fun x since w' hharmless hstore hledger hdrawn hreason =>
      .cut h₂ hharmless hstore hledger hdrawn hreason
  intro r₃ l₃ w₃ h₃ hstate₃ hid₃
  apply ensures_advance hsys hG h₃ hid₃ (by simp) (by rw [hstate₃]; rfl) (hcut h₃)
  intro r₄ l₄ w₄ h₄ hstate₄ hid₄ _
  refine Ensures.bind (ensures_get hsys (hG _ _ _ rfl) (fun x => ?_) fun final _ => ?_)
  · exact .awaiting h₄ hstate₄ rfl
  · exact .awaiting h₄ hstate₄ rfl

end Rules

end Clawback
