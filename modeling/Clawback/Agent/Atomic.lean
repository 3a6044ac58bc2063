import Clawback.Agent.Approval

/-!
# Atomic updates

`BaseCaseStore.transition` reads a record, checks the event and writes the record back,
without a lock or a version check. What follows holds of the runs in which no update is
lost: every save of a record of the case replaces the record that its call has read.

* `later_of_atomic`: the records of a case come one after the other.
* `atomicUpdates_of_inTurn`: calls that take turns lose no update.
* `action_once`: at most one action is sent for a case, and none after a rejection.
* `action_sent_twice`: without atomic updates this is false.
-/

namespace Clawback

open Js Async

/-- No update of the case is lost: each of its records replaces the one that the storing
call has read. -/
def AtomicUpdates (c : Str) (h : AgentHistory) : Prop := (caseRegister c).Atomic none h

variable {env : Platform}

theorem lastRead_of_quiet {c : Str} {tr : CallTrace} (h : ∀ a ∈ tr, a.effect.isQuiet = true) :
    (caseRegister c).lastRead tr = none := by
  have hnil : tr.filterMap (caseRegister c).read = [] := by
    rw [List.filterMap_eq_nil_iff]
    rintro ⟨e, r⟩ ha
    have hquiet := h _ ha
    cases e <;> first | rfl | cases hquiet
  rw [Register.lastRead, hnil]
  rfl

/-- What a call stores comes by a legal move from what it has read. -/
def Succeeds (_ : Nat) (old : Option CaseRecord) (r : CaseRecord) : Prop :=
  ∀ r₀, old = some r₀ → Arrow r₀.state r.state

theorem succeeds_of_stored {h : AgentHistory} {w : World} (hl : AgentLawful env h w) {c : Str}
    {h₁ h₂ : AgentHistory} {t : Nat} {a : Entry Effect Effect.Answer JsError} {r : CaseRecord}
    (heq : h = h₁ ++ .did t a :: h₂) (hwrite : (caseRegister c).write a = some r) :
    Succeeds t ((caseRegister c).lastRead (own t h₁)) r := by
  intro r₀ hread
  obtain ⟨hid, rfl | rfl⟩ := write_cases hwrite
  · obtain ⟨k, _, _, _, -, -, hallowed, -, -⟩ := hl.split heq
    rw [lastRead_of_quiet (creates_quiet hallowed)] at hread
    cases hread
  · obtain ⟨k, _, _, _, hl₁, hk, hallowed, -, -⟩ := hl.split heq
    obtain ⟨event, patch, r', hs⟩ := savedFrom_of_saves hl₁ hk hallowed
    have hsettled := hs.settled.lastRead
    rw [← hs.sameCore.caseId, hid, hread] at hsettled
    obtain rfl := Option.some.inj hsettled
    obtain ⟨next, updatedAt, hnext, rfl⟩ := hs.moved
    exact ⟨event, mem_of_applyTransition hnext⟩

/-- The records of a case come one after the other. -/
theorem later_of_atomic {h : AgentHistory} {w : World} (hl : AgentLawful env h w) {c : Str}
    (hatomic : AtomicUpdates c h) :
    ((caseRegister c).writes h).Pairwise fun a b => Later a.2.state b.2.state := by
  have hserial : Register.Serial Succeeds none ((caseRegister c).writes h) :=
    Register.Atomic.serial hatomic fun h₁ t a h₂ v heq hwrite => succeeds_of_stored hl heq hwrite
  have htrans : ∀ a b d : CaseRecord, Later a.state b.state → Later b.state d.state →
      Later a.state d.state := fun _ _ _ hab hbd => hab.trans hbd
  exact (hserial.pairwise htrans fun _ a _ hstep => .single (hstep a rfl)).2

/-- Two records of a case of which neither comes later are stored by one call, and equal. -/
theorem stored_once {h : AgentHistory} {w : World} (hl : AgentLawful env h w) {c : Str}
    (hatomic : AtomicUpdates c h) {t u : Nat} {r r' : CaseRecord} (hst : Stored h t r)
    (hst' : Stored h u r') (hid : r.caseId = c) (hid' : r'.caseId = c)
    (hlater : ¬Later r.state r'.state) (hlater' : ¬Later r'.state r.state) :
    t = u ∧ r = r' := by
  have hsame := eq_of_pairwise (later_of_atomic hl hatomic) (mem_writes_iff.mpr ⟨hst, hid⟩)
    (mem_writes_iff.mpr ⟨hst', hid'⟩) hlater hlater'
  exact ⟨congrArg Prod.fst hsame, congrArg Prod.snd hsame⟩

/-! ## Calls that take turns -/

/-- Calls that take turns lose no update. -/
theorem atomicUpdates_of_inTurn {h : AgentHistory} {w : World} (hl : AgentLawful env h w)
    (hturn : InTurn h) (c : Str) : AtomicUpdates c h := by
  refine Register.atomic_of_inTurn hturn ?_ ?_
  · intro h₁ t a h₂ r heq hread
    obtain rfl := read_cases hread
    exact current_of_get hl heq
  · intro h₁ t a h₂ r heq hwrite
    obtain ⟨hid, rfl | rfl⟩ := write_cases hwrite
    · left
      obtain ⟨k, _, _, _, hl₁, -, hallowed, -, -⟩ := hl.split heq
      rw [lastRead_of_quiet (creates_quiet hallowed)]
      cases hcur : (caseRegister c).current none h₁ with
      | none => rfl
      | some r' =>
        obtain ⟨⟨u, hst⟩, hid'⟩ := stored_of_current hcur
        exact absurd (hid'.trans hid.symm) (not_stored_of_creates hl₁ hallowed hst)
    · right
      obtain ⟨k, _, _, _, hl₁, hk, hallowed, -, -⟩ := hl.split heq
      obtain ⟨event, patch, r₀, hs⟩ := savedFrom_of_saves hl₁ hk hallowed
      have hsettled := hs.settled
      rw [← hs.sameCore.caseId, hid] at hsettled
      exact ⟨r₀, hsettled⟩

/-! ## Actions -/

/-- The call that sends an action has stored the record in `EXECUTING` before. -/
theorem executing_of_sends {h : AgentHistory} {w : World} (hl : AgentLawful env h w) {t : Nat}
    {k : Call} (hk : .called t k ∈ h) {request : ProviderActionRequest}
    (hsends : Sends env k (own t h) request) :
    ∃ r, Stored h t r ∧ r.caseId = request.caseId ∧ r.state = .executing := by
  obtain ⟨-, -, -, hexecuting, hstate, -⟩ := hsends
  have hsaved := mem_own.mp hexecuting
  exact ⟨_, .inr hsaved, caseId_of_decides hl hk rfl hsaved, hstate⟩

theorem executing_of_sent {h : AgentHistory} {w : World} (hl : AgentLawful env h w) {c : Str}
    {t : Nat} {request : ProviderActionRequest} (hmem : (t, request) ∈ sent c h) :
    ∃ r, Stored h t r ∧ r.caseId = c ∧ r.state = .executing := by
  obtain ⟨res, hev, rfl⟩ := mem_sent hmem
  obtain ⟨h₁, h₂, rfl⟩ := List.append_of_mem hev
  obtain ⟨k, _, _, _, hl₁, hk, hallowed, -, -⟩ := hl.split rfl
  obtain ⟨r, hst, hid, hstate⟩ := executing_of_sends hl₁ hk hallowed
  exact ⟨r, hst.mono (List.subset_append_left _ _), hid, hstate⟩

/-- With atomic updates, at most one action is sent for a case. -/
theorem sent_length_le_one {h : AgentHistory} {w : World} (hl : AgentLawful env h w) {c : Str}
    (hatomic : AtomicUpdates c h) : (sent c h).length ≤ 1 := by
  induction hl with
  | nil => exact Nat.zero_le _
  | called _ _ ih =>
    rw [sent_append, sent_called, List.append_nil]
    exact ih hatomic.of_append
  | @did h w w' t k e ch r hl hk hallowed _ ih =>
    rw [sent_append]
    rcases sent_did c t ⟨e, r⟩ with hnone | ⟨request, res, heq, hid, hone⟩
    · rw [hnone, List.append_nil]
      exact ih hatomic.of_append
    · cases heq
      obtain ⟨x, hx, hxid, hxstate⟩ := executing_of_sends hl hk hallowed
      obtain ⟨-, -, -, -, -, hunsent⟩ := hallowed
      have hfirst : sent c h = [] := by
        rw [List.eq_nil_iff_forall_not_mem]
        rintro ⟨u, request'⟩ hmem
        obtain ⟨y, hy, hyid, hystate⟩ := executing_of_sent hl hmem
        have hlater : ¬Later x.state y.state := by
          rw [hxstate, hystate]
          exact not_later_self _
        have hlater' : ¬Later y.state x.state := by
          rw [hxstate, hystate]
          exact not_later_self _
        obtain ⟨rfl, -⟩ := stored_once hl hatomic.of_append hx hy (hxid.trans hid) hyid hlater
          hlater'
        obtain ⟨res', hev, -⟩ := mem_sent hmem
        exact hunsent _ (mem_own.mpr hev) request' rfl
      rw [hfirst, hone]
      exact Nat.le_refl _

/-- With atomic updates, no action is sent for a case that is rejected. -/
theorem sent_eq_nil_of_rejected {h : AgentHistory} {w : World} (hl : AgentLawful env h w)
    {c : Str} (hatomic : AtomicUpdates c h) {t : Nat} {r : CaseRecord} (hst : Stored h t r)
    (hid : r.caseId = c) (hstate : r.state = .rejected) : sent c h = [] := by
  rw [List.eq_nil_iff_forall_not_mem]
  rintro ⟨u, request⟩ hmem
  obtain ⟨x, hx, hxid, hxstate⟩ := executing_of_sent hl hmem
  have hlater : ¬Later r.state x.state := by
    rw [hstate]
    exact not_later_of_terminal rfl
  have hlater' : ¬Later x.state r.state := by
    rw [hxstate, hstate]
    exact fun hrejected => absurd hrejected.rejected (by decide)
  obtain ⟨-, rfl⟩ := stored_once hl hatomic hst hx hid hxid hlater hlater'
  cases hstate.symm.trans hxstate

/-- **At most one action.** In every interleaving of calls in which no update of the case is
lost, at most one action is sent for it, and none when a rejection of it has returned. -/
theorem action_once {env : Platform} {moves : List (Move Call Choice)}
    {p : Pool Call Effect Effect.Answer JsError World CallResult}
    (hrun : (agent env).run (Pool.init World.empty) moves = some p) {c : Str}
    (hatomic : AtomicUpdates c p.history) :
    (sent c p.history).length ≤ 1 ∧
      ∀ t ownerId summary, .called t (.rejectProposal c ownerId) ∈ p.history →
        p.result? t = some (.ok summary) → sent c p.history = [] := by
  have hsound := System.run_lawful start_obeys hrun
  have hl := hsound.lawful
  refine ⟨sent_length_le_one hl hatomic, ?_⟩
  intro t ownerId summary hk hresult
  obtain ⟨⟨k, q⟩, hthread, hq⟩ := Option.bind_eq_some_iff.mp hresult
  obtain rfl := hl.called_unique hk (hsound.called t k q hthread)
  obtain ⟨r, hsaved, hstate⟩ := hsound.result hthread hq
  have hmem := mem_own.mp hsaved
  exact sent_eq_nil_of_rejected hl hatomic (.inr hmem) (caseId_of_decides hl hk rfl hmem) hstate

theorem action_once_sample :
    ∃ p, (agent samplePlatform).run (Pool.init World.empty) sampleMoves = some p ∧
      AtomicUpdates (js "case_1") p.history ∧ (sent (js "case_1") p.history).length = 1 := by
  obtain ⟨p, hrun, -, hsent, -⟩ := sampleMoves_run
  have hturn := System.runInTurn_inTurn hrun
  have hrun := System.run_of_runInTurn hrun
  have hatomic := atomicUpdates_of_inTurn (System.run_lawful start_obeys hrun).lawful hturn
    (js "case_1")
  exact ⟨p, hrun, hatomic, Nat.le_antisymm (action_once hrun hatomic).1
    (List.length_pos_iff.mpr hsent)⟩

/-! ## Updates that are lost -/

/-- Two approvals, each of which reads the case before the other stores its approval. -/
def overlappingApprovals : List (Move Call Choice) :=
  sampleSubmission ++ .call approveSample :: .call approveSample :: beginApproval 1 ++
    beginApproval 2 ++ continueApproval 1 ++ continueApproval 2

/-- A rejection that is stored after an approval has read the case. -/
def overlappingRejection : List (Move Call Choice) :=
  sampleSubmission ++ .call approveSample :: .call (.rejectProposal (js "case_1") (js "user_1")) ::
    beginApproval 1 ++ [.ok, .ok, sampleTime, .ok].map (.step 2) ++ continueApproval 1

set_option maxRecDepth 10000 in
/-- When an update is lost, an action may be sent twice, and may be sent for a case whose
rejection has returned. -/
theorem action_sent_twice :
    (∃ p, (agent samplePlatform).run (Pool.init World.empty) overlappingApprovals = some p ∧
      (sent (js "case_1") p.history).length = 2) ∧
    ∃ p, (agent samplePlatform).run (Pool.init World.empty) overlappingRejection = some p ∧
      .called 2 (.rejectProposal (js "case_1") (js "user_1")) ∈ p.history ∧
      p.returned 2 = true ∧ (sent (js "case_1") p.history).length = 1 := by
  have htwice : (((agent samplePlatform).run (Pool.init World.empty) overlappingApprovals).any
      fun p => (sent (js "case_1") p.history).length == 2) = true := by decide +kernel
  have hrejected : (((agent samplePlatform).run (Pool.init World.empty) overlappingRejection).any
      fun p => p.returned 2 && (sent (js "case_1") p.history).length == 1) = true := by
    decide +kernel
  obtain ⟨p, hrun, hp⟩ := (Option.any_eq_true _ _).mp htwice
  obtain ⟨q, hrun', hq⟩ := (Option.any_eq_true _ _).mp hrejected
  rw [Bool.and_eq_true] at hq
  refine ⟨⟨p, hrun, eq_of_beq hp⟩, q, hrun', ?_, hq.1, eq_of_beq hq.2⟩
  have hcall : (q.threads.map Prod.fst)[2]? =
      some (.rejectProposal (js "case_1") (js "user_1")) := by
    rw [System.calls_of_run hrun']
    rfl
  obtain ⟨⟨k, prog⟩, hthread, rfl⟩ := Option.map_eq_some_iff.mp (List.getElem?_map ▸ hcall)
  exact (System.run_lawful start_obeys hrun').called 2 _ prog hthread

end Clawback
