import Clawback.Agent.Attestation

/-!
# Encrypted copies

What a stored record keeps encrypted, the input and the message of its proposal, and what comes
out when it is decrypted. The input is encrypted as JSON text, which escapes surrogates that stand
alone; the message is encrypted as it is.

* `sealed_of_stored`: the encrypted message of a record is the encryption of its proposal's.
* `encrypted_copies`: decryption gives the input back, and the message when it is well formed.
-/

namespace Clawback

open Js Async

variable {env : Platform}

/-- With what the call has drawn, the record holds its message encrypted. -/
def Sealed (env : Platform) (tr : CallTrace) (r : CaseRecord) : Prop :=
  ∃ proposal message iv, r.proposal = some proposal ∧ r.encryptedProposalMessage = some message ∧
    ⟨.randomBytes 12, .ok iv⟩ ∈ tr ∧
    encryptAtRest env.gcm (.str proposal.exactMessage) env.encryptionKey iv = .ok message

/-- A submission stores a proposal with its message encrypted. -/
def Sealing (env : Platform) : Call → CallTrace → Effect → Prop
  | .submitCase _ _ _, tr, .save r => r.state = .actionProposed → Sealed env tr r
  | _, _, _ => True

section Rules

variable {deps : OrchestratorDeps} {ownerId : Str} {input : SubscriptionCaseInput} {tr : CallTrace}
  {α β : Type}

theorem sealing_of_quiet {e : Effect} (h : e.isQuiet = true) :
    Sealing env (.submitCase deps ownerId input) tr e := by
  cases e with
  | save _ => cases h
  | _ => trivial

theorem sealing_quiet_bind {S : α → Prop} {p : Action α} {f : α → Action β} (hp : Quietly S p)
    (hnext : ∀ a tr', S a →
      Obeys (Sealing env (.submitCase deps ownerId input)) (fun _ _ => True) (f a) tr') :
    Obeys (Sealing env (.submitCase deps ownerId input)) (fun _ _ => True) (p >>= f) tr :=
  hp.obeys_bind (fun _ _ => sealing_of_quiet) (fun a _ hS _ => hnext a _ hS) fun _ _ => trivial

theorem sealing_perform_bind {e : Effect} {f : e.Answer → Action β}
    (he : Sealing env (.submitCase deps ownerId input) tr e)
    (hnext : ∀ a, Obeys (Sealing env (.submitCase deps ownerId input)) (fun _ _ => True) (f a)
      (tr ++ [⟨e, .ok a⟩])) :
    Obeys (Sealing env (.submitCase deps ownerId input)) (fun _ _ => True)
      (Prog.perform e >>= f) tr := by
  refine Obeys.bind (Obeys.perform he fun r => ?_)
  cases r with
  | ok a => exact hnext a
  | error x => trivial

theorem sealing_lift_bind {r : Except JsError α} {f : α → Action β}
    (hnext : ∀ a, r = .ok a →
      Obeys (Sealing env (.submitCase deps ownerId input)) (fun _ _ => True) (f a) tr) :
    Obeys (Sealing env (.submitCase deps ownerId input)) (fun _ _ => True)
      (Prog.lift r >>= f) tr :=
  Obeys.lift_bind hnext fun _ => trivial

/-- A transition that does not lead to `ACTION_PROPOSED`. -/
theorem sealing_advance {c : Str} {event : CaseEvent} {f : CaseRecord → Action β}
    (hevent : event.target ≠ .actionProposed)
    (hnext : ∀ r tr',
      Obeys (Sealing env (.submitCase deps ownerId input)) (fun _ _ => True) (f r) tr') :
    Obeys (Sealing env (.submitCase deps ownerId input)) (fun _ _ => True)
      (transition c event (purePatch fun _ => {}) >>= f) tr := by
  refine Obeys.bind (obeys_transition (S := fun _ _ => True) (fun _ _ _ _ => sealing_of_quiet)
    trivial (fun _ => Only.ret trivial) ?_ (fun _ r' _ _ _ _ _ => hnext r' _) fun _ _ _ => trivial)
  intro r r' changes tr' _ _ hmoved hstate
  exact absurd (hmoved.target.symm.trans hstate) hevent

/-- The transition that stores the proposal encrypts its message on the way. -/
theorem sealing_propose {c : Str} {proposal : ActionProposal} {analysis : AnalysisResult}
    {startedAt : Str} {f : CaseRecord → Action β}
    (hmessage : proposal.exactMessage = messageText analysis.message)
    (hnext : ∀ r tr',
      Obeys (Sealing env (.submitCase deps ownerId input)) (fun _ _ => True) (f r) tr') :
    Obeys (Sealing env (.submitCase deps ownerId input)) (fun _ _ => True)
      (transition c .proposeAction (proposalPatch env proposal analysis startedAt) >>= f) tr := by
  simp only [transition, proposalPatch, encryptText, newId, now, bind_assoc, pure_bind]
  refine sealing_perform_bind trivial fun current => ?_
  refine sealing_lift_bind fun next hnext' => ?_
  refine sealing_perform_bind trivial fun iv => ?_
  refine sealing_lift_bind fun message hencrypted => ?_
  refine sealing_perform_bind trivial fun uuid => ?_
  refine sealing_perform_bind trivial fun completedAt => ?_
  refine sealing_perform_bind trivial fun updatedAt => ?_
  refine sealing_perform_bind (fun _ => ⟨proposal, message, iv, rfl, rfl, by simp, ?_⟩)
    fun _ => hnext _ _
  obtain ⟨text, htext⟩ := str_of_encryptAtRest hencrypted
  rw [hmessage, messageText, htext]
  rw [htext] at hencrypted
  exact hencrypted

theorem submitCase_sealing :
    Obeys (Sealing env (.submitCase deps ownerId input)) (fun _ _ => True)
      (submitCase env deps ownerId input) [] := by
  unfold submitCase
  refine sealing_quiet_bind (newId_quietly _) fun caseId _ _ => ?_
  refine sealing_quiet_bind now_quietly fun startedAt _ _ => ?_
  refine sealing_quiet_bind (encryptText_quietly _) fun encryptedInput _ _ => ?_
  refine sealing_perform_bind trivial fun _ => ?_
  refine sealing_advance (by decide) fun _ _ => ?_
  refine sealing_advance (by decide) fun _ _ => ?_
  refine sealing_quiet_bind (analyze_quietly _ _) fun analysis _ _ => ?_
  refine sealing_quiet_bind (newId_quietly _) fun proposalId _ _ => ?_
  refine sealing_quiet_bind now_quietly fun createdAt _ _ => ?_
  refine sealing_propose rfl fun _ _ => ?_
  refine sealing_advance (by decide) fun _ _ => ?_
  exact sealing_perform_bind trivial fun _ => trivial

end Rules

theorem start_sealing (k : Call) : Obeys (Sealing env k) (fun _ _ => True) (start env k) [] := by
  cases k with
  | submitCase deps ownerId input => exact submitCase_sealing.wrap
  | _ => exact Obeys.free fun _ _ => trivial

/-! ## Every record -/

/-- A submission has stored `s` with a proposal, and `r` still has it and its encrypted message. -/
def KeepsSeal (h : AgentHistory) (s r : CaseRecord) : Prop :=
  (∃ t deps ownerId input, .called t (.submitCase deps ownerId input) ∈ h ∧
    .did t ⟨.save s, .ok ()⟩ ∈ h) ∧ s.state = .actionProposed ∧ r.proposal = s.proposal ∧
    r.encryptedProposalMessage = s.encryptedProposalMessage

theorem KeepsSeal.mono {h h' : AgentHistory} {s r : CaseRecord} (hs : KeepsSeal h s r)
    (hsub : h ⊆ h') : KeepsSeal h' s r := by
  obtain ⟨⟨t, deps, ownerId, input, hcalled, hsaved⟩, hkeeps⟩ := hs
  exact ⟨⟨t, deps, ownerId, input, hsub hcalled, hsub hsaved⟩, hkeeps⟩

/-- Only a submission changes the proposal or its encrypted message. -/
theorem seal_of_changes {k : Call} {c : Str} {before : CallTrace} {event : CaseEvent}
    {patch : CasePatch} {r r' : CaseRecord} (hchanges : Changes env k c before r event patch)
    (hmoved : Moved event patch r r') :
    (r'.proposal = r.proposal ∧ r'.encryptedProposalMessage = r.encryptedProposalMessage) ∨
      (∃ deps ownerId input, k = .submitCase deps ownerId input) ∧ event = .proposeAction := by
  obtain ⟨next, updatedAt, -, rfl⟩ := hmoved
  cases hchanges with
  | propose _ _ _ => exact .inr ⟨⟨_, _, _, rfl⟩, rfl⟩
  | _ => exact .inl ⟨rfl, rfl⟩

/-- A record with a proposal goes back to the submission that has stored it. -/
theorem keepsSeal_of_stored {h : AgentHistory} {w : World} (hl : AgentLawful env h w) {t : Nat}
    {r : CaseRecord} (hst : Stored h t r) (hproposal : r.proposal ≠ none) :
    ∃ s, KeepsSeal h s r := by
  refine stored_induction (I := fun h _ r => r.proposal ≠ none → ∃ s, KeepsSeal h s r)
    ?_ ?_ ?_ hl hst hproposal
  · intro h ev t r ih hr
    obtain ⟨s, hs⟩ := ih hr
    exact ⟨s, hs.mono (List.subset_append_left _ _)⟩
  · intro h w t k d _ _ hcreates hd
    cases hcreates
    exact absurd rfl hd
  · intro h w t k event patch r r' u _ hs _ ih hr'
    have hcalled := List.mem_append_left [.did t ⟨.save r', .ok ()⟩] hs.called
    obtain ⟨h₁, h₂, rfl, -, hchanges⟩ := hs.read
    rcases seal_of_changes hchanges hs.moved with ⟨hsame, hmessage⟩ | ⟨⟨deps, ownerId, input, rfl⟩, rfl⟩
    · rw [hsame] at hr'
      obtain ⟨s, hsub⟩ := ih hr'
      obtain ⟨hsaved, hstate, hbefore, hbefore'⟩ :=
        hsub.mono (List.subset_append_left _ [.did t ⟨.save r', .ok ()⟩])
      exact ⟨s, hsaved, hstate, hsame.trans hbefore, hmessage.trans hbefore'⟩
    · exact ⟨r', ⟨t, deps, ownerId, input, hcalled,
        List.mem_append_right _ (List.mem_singleton_self _)⟩, hs.moved.target, rfl, rfl⟩

/-- The encrypted message of a record is the encryption of the message of its proposal. -/
theorem sealed_of_stored {h : AgentHistory} {w : World} (hl : AgentLawful env h w)
    (hl' : Lawful (agent env) (Sealing env) World.empty h w) {t : Nat} {r : CaseRecord}
    (hst : Stored h t r) {proposal : ActionProposal} (hproposal : r.proposal = some proposal) :
    ∃ message iv, r.encryptedProposalMessage = some message ∧ iv.length = 12 ∧
      encryptAtRest env.gcm (.str proposal.exactMessage) env.encryptionKey iv = .ok message := by
  obtain ⟨s, ⟨u, deps, ownerId, input, hcalled, hsaved⟩, hstate, hkeeps, hkeeps'⟩ :=
    keepsSeal_of_stored hl hst (by rw [hproposal]; exact Option.some_ne_none proposal)
  obtain ⟨h₁, h₂, rfl⟩ := List.append_of_mem hsaved
  obtain ⟨k, c, w₁, w₂, hlbefore, hk, hsealing, -, -⟩ := hl'.split rfl
  obtain rfl := hl'.called_unique hcalled (List.mem_append_left _ hk)
  obtain ⟨proposal', message, iv, hproposal', hmessage, hiv, hencrypted⟩ := hsealing hstate
  obtain rfl := Option.some.inj ((hkeeps.symm.trans hproposal).symm.trans hproposal')
  refine ⟨message, iv, hkeeps'.trans hmessage, ?_, hencrypted⟩
  obtain ⟨g₁, g₂, rfl⟩ := List.append_of_mem (mem_own.mp hiv)
  obtain ⟨_, _, _, _, -, -, -, hexec, -⟩ := hlbefore.split rfl
  exact answered_bytes (answered_of_exec hexec)

/-- **Encrypted copies.** In every run, every stored record gives back exactly the input that
was submitted; and with a proposal it gives back the proposed message exactly if the message is
well formed. -/
theorem encrypted_copies (hgcm : env.gcm.Lawful) {moves : List (Move Call Choice)}
    {p : Pool Call Effect Effect.Answer JsError World CallResult}
    (hrun : (agent env).run (Pool.init World.empty) moves = some p) {t : Nat} {r : CaseRecord}
    (hst : Stored p.history t r) :
    (∃ u deps input d, .called u (.submitCase deps d.ownerId input) ∈ p.history ∧
      Created p.history u d ∧ SameCore d r ∧ decryptInput env r = .ok input) ∧
    ∀ proposal, r.proposal = some proposal →
      ∃ message, r.encryptedProposalMessage = some message ∧
        (decryptAtRest env.gcm message env.encryptionKey = .ok proposal.exactMessage ↔
          WellFormed proposal.exactMessage) := by
  have hl := (System.run_lawful start_obeys hrun).lawful
  have hl' := (System.run_lawful start_sealing hrun).lawful
  constructor
  · obtain ⟨u, input, d, hd, hcore, -⟩ := submitted_of_stored hl hst
    obtain ⟨deps, hcalled⟩ := hd.called
    exact ⟨u, deps, input, d, hcalled, hd.created, hcore, decryptInput_of_submitted hgcm hd hcore⟩
  · intro proposal hproposal
    obtain ⟨message, iv, hmessage, hiv, hencrypted⟩ := sealed_of_stored hl hl' hst hproposal
    refine ⟨message, hmessage, ?_⟩
    rw [decryptAtRest_toWellFormed hgcm hiv hencrypted, Except.ok.injEq, toWellFormed_eq_iff]

theorem encrypted_copies_sample :
    ∃ p t r, (agent samplePlatform).run (Pool.init World.empty) sampleMoves = some p ∧
      Stored p.history t r ∧ ∃ input, decryptInput samplePlatform r = .ok input := by
  obtain ⟨p, hrun, -, -, t, r, hst, -⟩ := sampleMoves_run
  have hrun := System.run_of_runInTurn hrun
  obtain ⟨⟨u, deps, input, d, -, -, -, hinput⟩, -⟩ := encrypted_copies sampleGcm_lawful hrun hst
  exact ⟨p, t, r, hrun, hst, input, hinput⟩

/-- A merchant whose name is half of a surrogate pair. -/
def loneInput : SubscriptionCaseInput := { sampleInput with merchantName := [0xD800] }

/-- AES-256-GCM as far as the run of that input uses it. -/
def loneGcm : Gcm := tableGcm
  (fun _ iv => if iv = sampleIv then sampleStream else if iv = sampleIv' then sampleStream' else [])
  fun _ iv =>
    if iv = sampleIv then blocks 16 [0x717035e6d29b486efc1f22e3e678425d]
    else blocks 16 [0xbb0fb64386c4e0708f69b81be15e1a42]

def lonePlatform : Platform := { samplePlatform with gcm := loneGcm }

/-- The record holds a message that does not come out as it is. -/
def garbled (r : CaseRecord) : Bool :=
  match r.proposal, r.encryptedProposalMessage with
  | some proposal, some message =>
    match decryptAtRest loneGcm message sampleKey with
    | .ok text => text != proposal.exactMessage
    | .error _ => false
  | _, _ => false

theorem garbled_spec {r : CaseRecord} (h : garbled r = true) :
    ∃ proposal message text, r.proposal = some proposal ∧
      r.encryptedProposalMessage = some message ∧
      decryptAtRest loneGcm message sampleKey = .ok text ∧ text ≠ proposal.exactMessage := by
  unfold garbled at h
  split at h
  · rename_i proposal message hproposal hmessage
    split at h
    · rename_i text htext
      exact ⟨proposal, message, text, hproposal, hmessage, htext, by simpa using h⟩
    · cases h
  · cases h

set_option maxRecDepth 10000 in
/-- The stored copy of a message with half of a surrogate pair is another text. -/
theorem message_garbled :
    ∃ p t r proposal message text,
      (agent lonePlatform).run (Pool.init World.empty) (submissionOf loneInput) = some p ∧
      Stored p.history t r ∧ r.proposal = some proposal ∧
      r.encryptedProposalMessage = some message ∧
      decryptAtRest lonePlatform.gcm message lonePlatform.encryptionKey = .ok text ∧
      text ≠ proposal.exactMessage := by
  have hany : (((agent lonePlatform).run (Pool.init World.empty) (submissionOf loneInput)).any
      fun p => ((caseRegister (js "case_1")).writes p.history).any fun tr => garbled tr.2) =
      true := by decide +kernel
  obtain ⟨p, hrun, hp⟩ := (Option.any_eq_true _ _).mp hany
  obtain ⟨⟨t, r⟩, hmem, hr⟩ := List.any_eq_true.mp hp
  obtain ⟨proposal, message, text, hproposal, hmessage, htext, hne⟩ := garbled_spec hr
  exact ⟨p, t, r, proposal, message, text, hrun, (mem_writes_iff.mp hmem).1, hproposal, hmessage,
    htext, hne⟩

end Clawback
