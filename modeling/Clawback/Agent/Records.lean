import Clawback.Agent.Histories

/-!
# What is stored of a case

Facts about every record that is ever stored, whatever the interleaving and the failures.
The induction is over the history: a saved record comes from one that its call has read,
and that one was stored before.

* `created_of_stored`: every record goes back to the one that `submitCase` has created, and
  agrees with it on what never changes.
* `created_unique`: a case is created once.
* `written_pairwise`: the records of one call go up in rank.
* `proposal_unique`: a case has one proposal.
-/

namespace Clawback

open Js Async

variable {env : Platform}

/-- At the time of `h`, the call `k` of thread `t` saves `r'`: it is `r`, which the call has
read, after a transition. -/
structure SavedFrom (env : Platform) (h : AgentHistory) (t : Nat) (k : Call)
    (event : CaseEvent) (patch : CasePatch) (r r' : CaseRecord) : Prop where
  called : .called t k ∈ h
  read : ∃ h₁ h₂, h = h₁ ++ .did t ⟨.get r.caseId, .ok r⟩ :: h₂ ∧ current r.caseId h₁ = some r ∧
    Changes env k r.caseId (own t h₁) r event patch
  settled : (caseRegister r.caseId).Settled (own t h) r
  moved : Moved event patch r r'
  below : Below r'.state.rank (own t h)

theorem savedFrom_of_saves {h : AgentHistory} {w : World} (hl : AgentLawful env h w) {t : Nat}
    {k : Call} (hk : .called t k ∈ h) {r' : CaseRecord} (hsaves : Saves env k (own t h) r') :
    ∃ event patch r, SavedFrom env h t k event patch r r' := by
  obtain ⟨hreading, hchanges, hmoved, hbelow⟩ := hsaves
  rename_i c before r event patch
  have hsettled := hreading.settled
  obtain ⟨since, hown, -⟩ := hreading
  obtain ⟨h₁, h₂, rfl, rfl, -⟩ := own_eq_append hown
  have hcur := current_of_get hl rfl
  obtain rfl := (stored_of_current hcur).2
  exact ⟨event, patch, r, hk, ⟨h₁, h₂, rfl, hcur, hchanges⟩, hsettled, hmoved, hbelow⟩

theorem SavedFrom.stored {h : AgentHistory} {t : Nat} {k : Call} {event : CaseEvent}
    {patch : CasePatch} {r r' : CaseRecord} (hs : SavedFrom env h t k event patch r r') :
    ∃ u, Stored h u r := by
  obtain ⟨h₁, h₂, rfl, hcur, -⟩ := hs.read
  obtain ⟨⟨u, hst⟩, -⟩ := stored_of_current hcur
  exact ⟨u, hst.mono (List.subset_append_left _ _)⟩

/-- What holds of the created records, and is kept by every transition, holds of every
record that is stored. -/
theorem stored_induction {I : AgentHistory → Nat → CaseRecord → Prop}
    (hmono : ∀ h ev t r, I h t r → I (h ++ [ev]) t r)
    (hcreate : ∀ h w t k d, AgentLawful env h w → .called t k ∈ h →
      Creates env k (own t h) d → I (h ++ [.did t ⟨.create d, .ok ()⟩]) t d)
    (hsave : ∀ h w t k event patch r r' u, AgentLawful env h w →
      SavedFrom env h t k event patch r r' → Stored h u r → I h u r →
      I (h ++ [.did t ⟨.save r', .ok ()⟩]) t r')
    {h : AgentHistory} {w : World} (hl : AgentLawful env h w) {t : Nat} {r : CaseRecord}
    (hst : Stored h t r) : I h t r := by
  induction hl generalizing t r with
  | nil => rcases hst with hst | hst <;> cases hst
  | called _ _ ih => exact hmono _ _ _ _ (ih hst.of_called)
  | did hl hk hallowed hexec ih =>
    rcases hst.of_did with hold | ⟨rfl, hnew | hnew⟩
    · exact hmono _ _ _ _ (ih hold)
    · cases hnew
      exact hcreate _ _ _ _ _ hl hk hallowed
    · cases hnew
      obtain ⟨event, patch, r₀, hs⟩ := savedFrom_of_saves hl hk hallowed
      obtain ⟨u, hu⟩ := hs.stored
      exact hsave _ _ _ _ _ _ _ _ _ hl hs hu (ih hu)

/-! ## What never changes -/

/-- The fields of a record that no transition changes. -/
structure SameCore (r r' : CaseRecord) : Prop where
  caseId : r'.caseId = r.caseId
  ownerId : r'.ownerId = r.ownerId
  category : r'.category = r.category
  encryptedInput : r'.encryptedInput = r.encryptedInput
  settlement : r'.settlement = r.settlement
  environment : r'.environment = r.environment
  createdAt : r'.createdAt = r.createdAt

theorem SameCore.refl (r : CaseRecord) : SameCore r r := ⟨rfl, rfl, rfl, rfl, rfl, rfl, rfl⟩

theorem SameCore.symm {r r' : CaseRecord} (h : SameCore r r') : SameCore r' r :=
  ⟨h.caseId.symm, h.ownerId.symm, h.category.symm, h.encryptedInput.symm, h.settlement.symm,
    h.environment.symm, h.createdAt.symm⟩

theorem SameCore.trans {r r' r'' : CaseRecord} (h : SameCore r r') (h' : SameCore r' r'') :
    SameCore r r'' :=
  ⟨h'.caseId.trans h.caseId, h'.ownerId.trans h.ownerId, h'.category.trans h.category,
    h'.encryptedInput.trans h.encryptedInput, h'.settlement.trans h.settlement,
    h'.environment.trans h.environment, h'.createdAt.trans h.createdAt⟩

theorem sameCore_of_changes {k : Call} {c : Str} {before : CallTrace} {event : CaseEvent}
    {patch : CasePatch} {r r' : CaseRecord} (hchanges : Changes env k c before r event patch)
    (hmoved : Moved event patch r r') : SameCore r r' := by
  obtain ⟨next, updatedAt, -, rfl⟩ := hmoved
  cases hchanges with
  | propose _ _ hproposes =>
    obtain ⟨degradedReason, rfl⟩ := hproposes.patch_eq
    exact ⟨rfl, rfl, rfl, rfl, rfl, rfl, rfl⟩
  | _ => exact ⟨rfl, rfl, rfl, rfl, rfl, rfl, rfl⟩

theorem SavedFrom.sameCore {h : AgentHistory} {t : Nat} {k : Call} {event : CaseEvent}
    {patch : CasePatch} {r r' : CaseRecord} (hs : SavedFrom env h t k event patch r r') :
    SameCore r r' := by
  obtain ⟨h₁, h₂, -, -, hchanges⟩ := hs.read
  exact sameCore_of_changes hchanges hs.moved

/-- `submitCase` in thread `t` has created the record `d`. -/
def Created (h : AgentHistory) (t : Nat) (d : CaseRecord) : Prop :=
  .did t ⟨.create d, .ok ()⟩ ∈ h

/-- Every record goes back to a created one. -/
theorem created_of_stored {h : AgentHistory} {w : World} (hl : AgentLawful env h w) {t : Nat}
    {r : CaseRecord} (hst : Stored h t r) : ∃ u d, Created h u d ∧ SameCore d r := by
  refine stored_induction (I := fun h _ r => ∃ u d, Created h u d ∧ SameCore d r)
    ?_ ?_ ?_ hl hst
  · rintro h ev t r ⟨u, d, hd, hcore⟩
    exact ⟨u, d, List.mem_append_left _ hd, hcore⟩
  · intro h w t k d _ _ _
    exact ⟨t, d, List.mem_append_right _ (List.mem_singleton_self _), .refl d⟩
  · rintro h w t k event patch r r' u _ hs _ ⟨v, d, hd, hcore⟩
    exact ⟨v, d, List.mem_append_left _ hd, hcore.trans hs.sameCore⟩

theorem creates_uuid {k : Call} {tr : CallTrace} {d : CaseRecord} (h : Creates env k tr d) :
    ∃ uuid, ⟨.randomUUID, .ok uuid⟩ ∈ tr ∧ d.caseId = js "case" ++ js "_" ++ uuid := by
  obtain ⟨-, huuid, -, -⟩ := h
  exact ⟨_, huuid, rfl⟩

theorem creates_quiet {k : Call} {tr : CallTrace} {d : CaseRecord} (h : Creates env k tr d) :
    ∀ a ∈ tr, a.effect.isQuiet = true := by
  obtain ⟨hquiet, -, -, -⟩ := h
  exact hquiet

/-- A case that is created has not been stored before. -/
theorem not_stored_of_creates {h : AgentHistory} {w : World} (hl : AgentLawful env h w)
    {t : Nat} {k : Call} {d : CaseRecord} (hcreates : Creates env k (own t h) d) {u : Nat}
    {r : CaseRecord} (hst : Stored h u r) : r.caseId ≠ d.caseId := by
  intro hid
  obtain ⟨v, d', hd', hcore⟩ := created_of_stored hl hst
  obtain ⟨h₁, h₂, rfl⟩ := List.append_of_mem hd'
  obtain ⟨k', c, w₁, w₂, -, -, hallowed, -, -⟩ := hl.split rfl
  obtain ⟨uuid, hdrawn, heq⟩ := creates_uuid hcreates
  obtain ⟨uuid', hdrawn', heq'⟩ := creates_uuid hallowed
  have htext := (hcore.caseId.symm.trans hid).symm
  rw [heq, heq'] at htext
  obtain rfl := List.append_cancel_left htext
  obtain rfl := uuid_unique hl (mem_own.mp hdrawn)
    (List.mem_append_left _ (mem_own.mp hdrawn'))
  cases creates_quiet hcreates _ (mem_own.mpr hd')

/-- A case is created once. -/
theorem created_unique {h : AgentHistory} {w : World} (hl : AgentLawful env h w) {t u : Nat}
    {d d' : CaseRecord} (hd : Created h t d) (hd' : Created h u d')
    (hid : d.caseId = d'.caseId) : t = u ∧ d = d' := by
  obtain ⟨h₁, h₂, heq⟩ := List.append_of_mem hd
  obtain ⟨g₁, g₂, heq'⟩ := List.append_of_mem hd'
  obtain ⟨k, c, w₁, w₂, hl₁, -, hallowed, -, -⟩ := hl.split heq
  obtain ⟨k', c', w₁', w₂', hl₁', -, hallowed', -, -⟩ := hl.split heq'
  rcases append_cases (heq.symm.trans heq') with ⟨-, hsame, -⟩ | hbefore | hbefore
  · cases hsame
    exact ⟨rfl, rfl⟩
  · exact absurd hid (not_stored_of_creates hl₁' hallowed' (.inl hbefore))
  · exact absurd hid.symm (not_stored_of_creates hl₁ hallowed (.inl hbefore))

/-- Two records of one case agree on what never changes. -/
theorem sameCore_of_stored {h : AgentHistory} {w : World} (hl : AgentLawful env h w)
    {t u : Nat} {r r' : CaseRecord} (hst : Stored h t r) (hst' : Stored h u r')
    (hid : r.caseId = r'.caseId) : SameCore r r' := by
  obtain ⟨v, d, hd, hcore⟩ := created_of_stored hl hst
  obtain ⟨v', d', hd', hcore'⟩ := created_of_stored hl hst'
  obtain ⟨-, rfl⟩ := created_unique hl hd hd' (hcore.caseId.symm.trans (hid.trans hcore'.caseId))
  exact hcore.symm.trans hcore'

/-! ## The records of one call -/

/-- The records of one call go up in rank. -/
theorem written_pairwise {h : AgentHistory} {w : World} (hl : AgentLawful env h w) (t : Nat) :
    (written (own t h)).Pairwise fun a b => a.state.rank < b.state.rank := by
  induction hl with
  | nil => exact .nil
  | called _ _ ih =>
    rw [own_append, own_called, List.append_nil]
    exact ih
  | @did h w w' u k e c r _ _ hallowed _ ih =>
    by_cases hu : u = t
    · subst hu
      rw [own_append, own_did_self, written_append]
      refine List.pairwise_append.mpr ⟨ih, ?_, ?_⟩
      · rw [written, List.pairwise_filterMap]
        exact List.pairwise_singleton _ _
      · intro a ha b hb
        rcases mem_written.mp hb with hb | hb
        · cases List.mem_singleton.mp hb
          rw [written_eq_nil_of_quiet (creates_quiet hallowed)] at ha
          cases ha
        · cases List.mem_singleton.mp hb
          obtain ⟨-, -, -, hbelow⟩ := hallowed
          exact hbelow a ha
    · rw [own_append, own_did_ne hu, List.append_nil]
      exact ih

/-- A call stores one record at most in each state. -/
theorem stored_state_unique {h : AgentHistory} {w : World} (hl : AgentLawful env h w) {t : Nat}
    {r r' : CaseRecord} (hst : Stored h t r) (hst' : Stored h t r') (heq : r.state = r'.state) :
    r = r' := by
  refine eq_of_pairwise (written_pairwise hl t) (mem_written_own.mpr hst)
    (mem_written_own.mpr hst') ?_ ?_
  · rw [heq]
    exact Nat.lt_irrefl _
  · rw [heq]
    exact Nat.lt_irrefl _

/-- A record that `submitCase` stores belongs to the case it has created. -/
theorem created_of_changes {h : AgentHistory} {t : Nat} {deps : OrchestratorDeps} {ownerId : Str}
    {input : SubscriptionCaseInput} {c : Str} {event : CaseEvent} {patch : CasePatch}
    {r : CaseRecord} (hchanges : Changes env (.submitCase deps ownerId input) c (own t h) r
      event patch) : ∃ d, Created h t d ∧ d.caseId = c := by
  cases hchanges with
  | advance hcreated hid _ => exact ⟨_, mem_own.mp hcreated, hid⟩
  | propose hcreated hid _ => exact ⟨_, mem_own.mp hcreated, hid⟩

/-- The case that a decision is about. -/
def Call.decides : Call → Option Str
  | rejectProposal caseId _ | approveAndExecute _ caseId _ _ => some caseId
  | _ => none

/-- A decision stores records of its own case. -/
theorem caseId_of_decides {h : AgentHistory} {w : World} (hl : AgentLawful env h w) {t : Nat}
    {k : Call} (hk : .called t k ∈ h) {c : Str} (hc : k.decides = some c) {r : CaseRecord}
    (hsaved : .did t ⟨.save r, .ok ()⟩ ∈ h) : r.caseId = c := by
  obtain ⟨h₁, h₂, rfl⟩ := List.append_of_mem hsaved
  obtain ⟨k', _, _, _, hl₁, hk', hallowed, -, -⟩ := hl.split rfl
  obtain rfl := hl.called_unique hk (List.mem_append_left _ hk')
  obtain ⟨event, patch, r₀, hs⟩ := savedFrom_of_saves hl₁ hk' hallowed
  obtain ⟨g₁, g₂, -, -, hchanges⟩ := hs.read
  rw [hs.sameCore.caseId]
  cases hchanges with
  | advance _ _ _ | propose _ _ _ => cases hc
  | _ => exact Option.some.inj hc

/-! ## Proposals -/

/-- `submitCase` has stored the proposal of a case in thread `t`. -/
structure Proposed (h : AgentHistory) (t : Nat) (c : Str) (proposal : ActionProposal) : Prop where
  created : ∃ d, Created h t d ∧ d.caseId = c
  stored : ∃ s, Stored h t s ∧ s.state = .actionProposed ∧ s.proposal = some proposal

theorem Proposed.mono {h h' : AgentHistory} {t : Nat} {c : Str} {proposal : ActionProposal}
    (hp : Proposed h t c proposal) (hsub : h ⊆ h') : Proposed h' t c proposal := by
  obtain ⟨⟨d, hd, hid⟩, s, hs, hstate, hproposal⟩ := hp
  exact ⟨⟨d, hsub hd, hid⟩, s, hs.mono hsub, hstate, hproposal⟩

theorem proposal_of_changes {k : Call} {c : Str} {before : CallTrace} {event : CaseEvent}
    {patch : CasePatch} {r r' : CaseRecord} (hchanges : Changes env k c before r event patch)
    (hmoved : Moved event patch r r') :
    r'.proposal = r.proposal ∨
      (∃ deps ownerId input, k = .submitCase deps ownerId input) ∧ event = .proposeAction := by
  obtain ⟨next, updatedAt, -, rfl⟩ := hmoved
  cases hchanges with
  | propose _ _ _ => exact .inr ⟨⟨_, _, _, rfl⟩, rfl⟩
  | _ => exact .inl rfl

/-- Every proposal goes back to the one that `submitCase` has stored. -/
theorem proposed_of_stored {h : AgentHistory} {w : World} (hl : AgentLawful env h w) {t : Nat}
    {r : CaseRecord} (hst : Stored h t r) {proposal : ActionProposal}
    (hr : r.proposal = some proposal) : ∃ u, Proposed h u r.caseId proposal := by
  refine stored_induction (I := fun h _ r => ∀ proposal, r.proposal = some proposal →
    ∃ u, Proposed h u r.caseId proposal) ?_ ?_ ?_ hl hst proposal hr
  · intro h ev t r ih proposal hr
    obtain ⟨u, hu⟩ := ih proposal hr
    exact ⟨u, hu.mono (List.subset_append_left _ _)⟩
  · intro h w t k d _ _ hcreates proposal hd
    cases hcreates
    cases hd
  · intro h w t k event patch r r' u _ hs _ ih proposal hr'
    obtain ⟨h₁, h₂, rfl, -, hchanges⟩ := hs.read
    rcases proposal_of_changes hchanges hs.moved with hsame | ⟨⟨deps, ownerId, input, rfl⟩, rfl⟩
    · obtain ⟨v, hv⟩ := ih proposal (hsame ▸ hr')
      rw [hs.sameCore.caseId]
      exact ⟨v, hv.mono (List.subset_append_left _ _)⟩
    · have hstate := hs.moved.target
      have hid := hs.sameCore.caseId
      obtain ⟨d, hd, hdc⟩ := created_of_changes hchanges
      refine ⟨t, ⟨d, ?_, hdc.trans hid.symm⟩, r', .inr ?_, hstate, hr'⟩
      · exact List.mem_append_left _ (List.mem_append_left _ hd)
      · exact List.mem_append_right _ (List.mem_singleton_self _)

/-- A case has one proposal. -/
theorem proposal_unique {h : AgentHistory} {w : World} (hl : AgentLawful env h w) {t u : Nat}
    {r r' : CaseRecord} (hst : Stored h t r) (hst' : Stored h u r')
    (hid : r.caseId = r'.caseId) {proposal proposal' : ActionProposal}
    (hr : r.proposal = some proposal) (hr' : r'.proposal = some proposal') :
    proposal = proposal' := by
  obtain ⟨v, ⟨d, hd, hdc⟩, s, hs, hstate, hproposal⟩ := proposed_of_stored hl hst hr
  obtain ⟨v', ⟨d', hd', hdc'⟩, s', hs', hstate', hproposal'⟩ := proposed_of_stored hl hst' hr'
  obtain ⟨rfl, -⟩ := created_unique hl hd hd' (hdc.trans (hid.trans hdc'.symm))
  obtain rfl := stored_state_unique hl hs hs' (hstate.trans hstate'.symm)
  exact Option.some.inj (hproposal.symm.trans hproposal')

end Clawback
