import Clawback.Agent.Histories

/-!
# Transitions of one case

Calls to `transition` on one case, with any events and any patches that leave the id of the
case alone. A transition reads the record and saves it later, so two calls that overlap may
both move the case on from the same state.

* `returned_iff_written`: the calls that have returned are those that have saved a record.
* `transitions_serialisable`: when every save replaces the record that its call has read,
  the calls that have returned can be put in an order.
* `overlapping_transitions`: without this they cannot.
-/

namespace Clawback

open Js Async

/-- An event, with a patch that may throw and leaves the id of the case alone. -/
structure Transition where
  event : CaseEvent
  patch : CaseRecord → Except JsError CasePatch
  caseId_patch : ∀ r changes, patch r = .ok changes → changes.caseId.getD r.caseId = r.caseId

/-- Calls to `transition` on one case. -/
def transitionsOn (c : Str) :
    System Transition Effect Effect.Answer JsError World Choice CaseRecord where
  start k := transition c k.event fun r => Prog.lift (k.patch r)
  exec := exec

abbrev StoreHistory := History Transition Effect Effect.Answer JsError

abbrev StorePool := Pool Transition Effect Effect.Answer JsError World CaseRecord

/-- `r'` is `r` after the transition, at some time. -/
def Transition.Applies (k : Transition) (r r' : CaseRecord) : Prop :=
  ∃ changes, k.patch r = .ok changes ∧ Moved k.event changes r r'

theorem Transition.Applies.caseId {k : Transition} {r r' : CaseRecord} (h : k.Applies r r') :
    r'.caseId = r.caseId := by
  obtain ⟨changes, hchanges, next, updatedAt, -, rfl⟩ := h
  exact k.caseId_patch r changes hchanges

theorem Transition.Applies.arrow {k : Transition} {r r' : CaseRecord} (h : k.Applies r r') :
    Arrow r.state r'.state := by
  obtain ⟨changes, -, next, updatedAt, hnext, rfl⟩ := h
  exact ⟨k.event, mem_of_applyTransition hnext⟩

theorem Transition.Applies.target {k : Transition} {r r' : CaseRecord} (h : k.Applies r r') :
    r'.state = k.event.target := by
  obtain ⟨changes, -, next, updatedAt, hnext, rfl⟩ := h
  exact target_of_applyTransition hnext

/-! ## What a call does -/

/-- A call saves once, and what it saves is the record it has read, after its transition. -/
def Updates (c : Str) (k : Transition) (tr : CallTrace) (e : Effect) : Prop :=
  written tr = [] ∧ match e with
    | .create _ => False
    | .save r' => ∃ r, Reading c [] r tr ∧ k.Applies r r'
    | _ => True

/-- A call that has returned has saved the record it returns, and one that has thrown has
saved nothing. -/
def Done (_ : Transition) (result : Except JsError CaseRecord) (tr : CallTrace) : Prop :=
  match result with
  | .ok r => written tr = [r]
  | .error _ => written tr = []

theorem updates_of_quiet {c : Str} {k : Transition} {tr : CallTrace} {e : Effect}
    (htr : written tr = []) (he : e.isQuiet = true) : Updates c k tr e := by
  refine ⟨htr, ?_⟩
  cases e <;> trivial

theorem transition_updates (c : Str) (k : Transition) :
    Obeys (Updates c k) (Done k) ((transitionsOn c).start k) [] := by
  have hpatch : ∀ r, Quietly (fun changes => k.patch r = .ok changes) (Prog.lift (k.patch r)) :=
    fun r => Only.lift fun _ hchanges => hchanges
  refine obeys_transition (fun r tr e hreading he => updates_of_quiet hreading.written he)
    ⟨rfl, trivial⟩ hpatch ?_ ?_ ?_
  · intro r r' changes tr hreading hchanges hmoved
    exact ⟨hreading.written, r, hreading, changes, hchanges, hmoved⟩
  · intro r r' changes tr hreading hchanges hmoved
    change written _ = _
    rw [written_append, hreading.written]
    rfl
  · exact fun x tr hwritten => hwritten

/-! ## What is stored -/

section Sound

variable {r₀ : CaseRecord} {p : StorePool}

/-- The pools that calls lead to from a store with one record. -/
abbrev StoreSound (r₀ : CaseRecord) (p : StorePool) : Prop :=
  System.Sound (transitionsOn r₀.caseId) (Updates r₀.caseId) Done (World.empty.put r₀) p

theorem put_store_self (r : CaseRecord) : (World.empty.put r).store r.caseId = some r :=
  if_pos rfl

/-- The record of the case after a history. -/
def currentFrom (r₀ : CaseRecord) (h : StoreHistory) : Option CaseRecord :=
  (caseRegister r₀.caseId).current (some r₀) h

theorem store_eq_currentFrom (hp : StoreSound r₀ p) :
    p.world.store r₀.caseId = currentFrom r₀ p.history := by
  rw [store_eq_register rfl hp.lawful, put_store_self, currentFrom]

theorem caseId_of_currentFrom {h : StoreHistory} {r : CaseRecord}
    (hcur : currentFrom r₀ h = some r) : r.caseId = r₀.caseId := by
  rcases Register.latest_mem hcur with hfirst | ⟨t, hmem⟩
  · rw [Option.some.inj hfirst]
  · obtain ⟨a, -, ha⟩ := Register.mem_writes.mp hmem
    exact (write_cases ha).1

/-- What is saved is what the call has read, after its transition. -/
theorem applies_of_save {h h₁ h₂ : StoreHistory} {w : World} {t : Nat} {r' : CaseRecord}
    (hl : Lawful (transitionsOn r₀.caseId) (Updates r₀.caseId) (World.empty.put r₀) h w)
    (heq : h = h₁ ++ .did t ⟨.save r', .ok ()⟩ :: h₂) :
    ∃ k r, .called t k ∈ h₁ ∧ (caseRegister r₀.caseId).Settled (own t h₁) r ∧
      r.caseId = r₀.caseId ∧ k.Applies r r' := by
  obtain ⟨k, _, _, _, hl₁, hk, ⟨-, r, hreading, happlies⟩, -, -⟩ := hl.split heq
  have hsettled := hreading.settled
  obtain ⟨since, hown, -⟩ := hreading
  obtain ⟨g₁, g₂, hsplit, -, -⟩ := own_eq_append hown
  have hcur := register_of_get rfl hl₁ hsplit
  rw [put_store_self] at hcur
  exact ⟨k, r, hk, hsettled, caseId_of_currentFrom hcur, happlies⟩

/-- The calls that have returned are those that have saved a record. -/
theorem returned_iff_written (hp : StoreSound r₀ p) {t : Nat} {r : CaseRecord} :
    p.result? t = some (.ok r) ↔ (t, r) ∈ (caseRegister r₀.caseId).writes p.history := by
  rw [Register.mem_writes]
  constructor
  · intro hresult
    obtain ⟨⟨k, q⟩, hthread, hq⟩ := Option.bind_eq_some_iff.mp hresult
    have hdone : written (own t p.history) = [r] := hp.result hthread hq
    rcases mem_written.mp (hdone ▸ List.mem_singleton_self r) with hmem | hmem
    · obtain ⟨h₁, h₂, heq⟩ := List.append_of_mem (mem_own.mp hmem)
      obtain ⟨_, _, _, _, -, -, hupdates, -, -⟩ := hp.lawful.split heq
      exact hupdates.2.elim
    · obtain ⟨h₁, h₂, heq⟩ := List.append_of_mem (mem_own.mp hmem)
      obtain ⟨k', r', -, -, hid, happlies⟩ := applies_of_save hp.lawful heq
      exact ⟨_, mem_own.mp hmem, if_pos (happlies.caseId.trans hid)⟩
  · rintro ⟨a, hmem, ha⟩
    have hwritten : r ∈ written (own t p.history) := by
      obtain ⟨-, rfl | rfl⟩ := write_cases ha
      · exact mem_written.mpr (.inl (mem_own.mpr hmem))
      · exact mem_written.mpr (.inr (mem_own.mpr hmem))
    obtain ⟨⟨k, q⟩, hthread⟩ : ∃ kq, p.threads[t]? = some kq :=
      ⟨_, List.getElem?_eq_getElem (hp.numbered _ hmem)⟩
    have hobeys := hp.obeys t k q hthread
    rw [Pool.result?, hthread, Option.bind_some]
    cases q with
    | pure r' =>
      have hdone : written (own t p.history) = [r'] := hobeys
      rw [hdone] at hwritten
      rw [List.mem_singleton.mp hwritten]
      rfl
    | throw x =>
      have hdone : written (own t p.history) = [] := hobeys
      rw [hdone] at hwritten
      cases hwritten
    | await e next =>
      have hdone : written (own t p.history) = [] := hobeys.1.1
      rw [hdone] at hwritten
      cases hwritten

end Sound

/-! ## Serial orders -/

/-- Call `t` is applied to the record `old`, at some time. -/
def AppliedBy (p : StorePool) (t : Nat) (old : Option CaseRecord) (r' : CaseRecord) : Prop :=
  ∃ k q r, p.threads[t]? = some (k, q) ∧ old = some r ∧ k.Applies r r'

/-- There is an order of the calls that have returned in which each is legal on the record
that the ones before it leave, and the last one leaves the stored record. -/
def Serialisable (r₀ : CaseRecord) (p : StorePool) : Prop :=
  ∃ order : List (Nat × CaseRecord),
    (order.map Prod.fst).Nodup ∧ (∀ t, t ∈ order.map Prod.fst ↔ p.returned t = true) ∧
    Register.Serial (AppliedBy p) (some r₀) order ∧
    p.world.store r₀.caseId = Register.latest (some r₀) order

/-- In a serial order every record comes later than the ones before it. -/
theorem later_of_serial {p : StorePool} {v₀ : Option CaseRecord} {order : List (Nat × CaseRecord)}
    (hserial : Register.Serial (AppliedBy p) v₀ order) :
    (∀ v, v₀ = some v → ∀ tv ∈ order, Later v.state tv.2.state) ∧
      order.Pairwise fun a b => Later a.2.state b.2.state := by
  have htrans : ∀ a b d : CaseRecord, Later a.state b.state → Later b.state d.state →
      Later a.state d.state := fun _ _ _ hab hbd => hab.trans hbd
  apply hserial.pairwise htrans
  rintro t a b ⟨k, q, r, -, heq, happlies⟩
  rw [Option.some.inj heq]
  exact .single happlies.arrow

/-- In a serial order every call leaves the case in the state its event leads to. -/
theorem target_of_serial {p : StorePool} {v₀ : Option CaseRecord}
    {order : List (Nat × CaseRecord)} (hserial : Register.Serial (AppliedBy p) v₀ order) {t : Nat}
    {r : CaseRecord} (hmem : (t, r) ∈ order) {k : Transition}
    (hk : (p.threads.map Prod.fst)[t]? = some k) : r.state = k.event.target := by
  obtain ⟨old, k', q, r', hthread, -, happlies⟩ := hserial.step_of_mem hmem
  rw [List.getElem?_map, hthread] at hk
  obtain rfl := Option.some.inj hk
  exact happlies.target

/-- When every save replaces the record its call has read, the records come one from the
other. -/
theorem serial_of_atomic {r₀ : CaseRecord} {p : StorePool} (hp : StoreSound r₀ p)
    (hatomic : (caseRegister r₀.caseId).Atomic (some r₀) p.history) :
    Register.Serial (AppliedBy p) (some r₀) ((caseRegister r₀.caseId).writes p.history) := by
  refine hatomic.serial fun h₁ t a h₂ r' heq hwrite => ?_
  obtain ⟨-, rfl | rfl⟩ := write_cases hwrite
  · obtain ⟨_, _, _, _, -, -, hupdates, -, -⟩ := hp.lawful.split heq
    exact hupdates.2.elim
  · obtain ⟨k, r, hk, hsettled, -, happlies⟩ := applies_of_save hp.lawful heq
    have hmem : Event.did t ⟨.save r', .ok ()⟩ ∈ p.history := by
      rw [heq]
      exact List.mem_append_right _ List.mem_cons_self
    obtain ⟨⟨k', q⟩, hthread⟩ : ∃ kq, p.threads[t]? = some kq :=
      ⟨_, List.getElem?_eq_getElem (hp.numbered _ hmem)⟩
    have hk' : .called t k ∈ p.history := by
      rw [heq]
      exact List.mem_append_left _ hk
    obtain rfl := hp.lawful.called_unique hk' (hp.called t k' q hthread)
    exact ⟨k, q, r, hthread, hsettled.lastRead, happlies⟩

/-- **Serial transitions.** When every save replaces the record that its call has read, the
calls that have returned can be applied one after another, each legally, with the same final
record; and a record in a terminal state stays as it is. -/
theorem transitions_serialisable {r₀ : CaseRecord} {moves : List (Move Transition Choice)}
    {p : StorePool}
    (hrun : (transitionsOn r₀.caseId).run (Pool.init (World.empty.put r₀)) moves = some p)
    (hatomic : (caseRegister r₀.caseId).Atomic (some r₀) p.history) :
    Serialisable r₀ p ∧
      ∀ h₁ h₂ r, p.history = h₁ ++ h₂ → currentFrom r₀ h₁ = some r →
        isTerminal r.state = true → p.world.store r₀.caseId = some r := by
  have hp : StoreSound r₀ p := System.run_lawful (transition_updates r₀.caseId) hrun
  have hserial := serial_of_atomic hp hatomic
  have hstore := store_eq_currentFrom hp
  refine ⟨⟨(caseRegister r₀.caseId).writes p.history, ?_, ?_, hserial, hstore⟩, ?_⟩
  · refine List.pairwise_map.mpr ((later_of_serial hserial).2.imp_of_mem ?_)
    intro a b ha hb hlater hsame
    have hresult := (returned_iff_written hp).mpr ha
    have hresult' := (returned_iff_written hp).mpr hb
    rw [hsame, hresult'] at hresult
    rw [Except.ok.inj (Option.some.inj hresult)] at hlater
    exact not_later_self _ hlater
  · intro t
    rw [Pool.returned_iff, List.mem_map]
    constructor
    · rintro ⟨⟨u, r⟩, hmem, rfl⟩
      exact ⟨r, (returned_iff_written hp).mpr hmem⟩
    · rintro ⟨r, hresult⟩
      exact ⟨(t, r), (returned_iff_written hp).mp hresult, rfl⟩
  · intro h₁ h₂ r heq hcur hterminal
    rw [heq, Register.writes_append] at hserial
    have hrest := (later_of_serial hserial.of_append).1 r hcur
    have hnil : (caseRegister r₀.caseId).writes h₂ = [] :=
      List.eq_nil_iff_forall_not_mem.mpr fun tv hmem =>
        not_later_of_terminal hterminal (hrest tv hmem)
    rw [hstore, heq, currentFrom, Register.current, Register.writes_append, hnil,
      List.append_nil]
    exact hcur

/-! ## Calls that take turns, and calls that overlap -/

/-- When the calls take turns, every save replaces the record that its call has read. -/
theorem atomic_of_runInTurn {r₀ : CaseRecord} {moves : List (Move Transition Choice)}
    {p : StorePool}
    (hrun : (transitionsOn r₀.caseId).runInTurn (Pool.init (World.empty.put r₀)) moves = some p) :
    (caseRegister r₀.caseId).Atomic (some r₀) p.history := by
  have hp : StoreSound r₀ p :=
    System.run_lawful (transition_updates r₀.caseId) (System.run_of_runInTurn hrun)
  refine Register.atomic_of_inTurn (System.runInTurn_inTurn hrun) ?_ ?_
  · intro h₁ t a h₂ r heq hread
    obtain rfl := read_cases hread
    have hcur := register_of_get rfl hp.lawful heq
    rwa [put_store_self] at hcur
  · intro h₁ t a h₂ r' heq hwrite
    obtain ⟨-, rfl | rfl⟩ := write_cases hwrite
    · obtain ⟨_, _, _, _, -, -, hupdates, -, -⟩ := hp.lawful.split heq
      exact hupdates.2.elim
    · obtain ⟨k, r, -, hsettled, -, -⟩ := applies_of_save hp.lawful heq
      exact .inr ⟨r, hsettled⟩

/-- An event without a patch. -/
def Transition.bare (event : CaseEvent) : Transition := ⟨event, fun _ => .ok {}, by
  intro r changes h
  cases h
  rfl⟩

/-- A case that waits for its owner. -/
def awaiting : CaseRecord :=
  { draftRecord (js "case_1") (js "user_1") ⟨[], [], []⟩ .sandbox (js "1") with
    state := .awaitingApproval }

/-- The moves of one transition. -/
def transitionMoves (t : Nat) : List (Move Transition Choice) :=
  [.step t .ok, .step t (.text (js "2")), .step t .ok]

/-- Two transitions one after the other. -/
def transitionsInTurn : List (Move Transition Choice) :=
  .call (.bare .approve) :: transitionMoves 0 ++
    .call (.bare .beginExecution) :: transitionMoves 1

theorem transitions_serialisable_inTurn :
    ∃ p, (transitionsOn awaiting.caseId).run (Pool.init (World.empty.put awaiting))
      transitionsInTurn = some p ∧ p.returned 0 = true ∧ p.returned 1 = true ∧
      Serialisable awaiting p := by
  have hany : (((transitionsOn awaiting.caseId).runInTurn (Pool.init (World.empty.put awaiting))
      transitionsInTurn).any fun p => p.returned 0 && p.returned 1) = true := by decide +kernel
  obtain ⟨p, hrun, hreturned⟩ := (Option.any_eq_true _ _).mp hany
  rw [Bool.and_eq_true] at hreturned
  exact ⟨p, System.run_of_runInTurn hrun, hreturned.1, hreturned.2,
    (transitions_serialisable (System.run_of_runInTurn hrun) (atomic_of_runInTurn hrun)).1⟩

/-- An approval and a rejection of one case, each of which reads the record before the other
saves it. -/
def overlapping : List (Move Transition Choice) :=
  [.call (.bare .approve), .call (.bare .reject),
    .step 0 .ok, .step 0 (.text (js "2")), .step 1 .ok, .step 1 (.text (js "3")),
    .step 1 .ok, .step 0 .ok]

/-- Transitions that overlap need not be serialisable: both calls return, and neither could
have come after the other. -/
theorem overlapping_transitions :
    ∃ p, (transitionsOn awaiting.caseId).run (Pool.init (World.empty.put awaiting))
      overlapping = some p ∧ p.returned 0 = true ∧ p.returned 1 = true ∧
      ¬Serialisable awaiting p := by
  have hany : (((transitionsOn awaiting.caseId).run (Pool.init (World.empty.put awaiting))
      overlapping).any fun p => p.returned 0 && p.returned 1) = true := by decide +kernel
  obtain ⟨p, hrun, hreturned⟩ := (Option.any_eq_true _ _).mp hany
  rw [Bool.and_eq_true] at hreturned
  refine ⟨p, hrun, hreturned.1, hreturned.2, ?_⟩
  rintro ⟨order, -, hall, hserial, -⟩
  have hcalls : p.threads.map Prod.fst = [.bare .approve, .bare .reject] := System.calls_of_run hrun
  obtain ⟨⟨t, r⟩, hr, ht⟩ := List.mem_map.mp ((hall 0).mpr hreturned.1)
  obtain ⟨⟨u, r'⟩, hr', hu⟩ := List.mem_map.mp ((hall 1).mpr hreturned.2)
  obtain rfl : t = 0 := ht
  obtain rfl : u = 1 := hu
  have happroved : r.state = .approved :=
    target_of_serial hserial hr (k := .bare .approve) (by rw [hcalls]; rfl)
  have hrejected : r'.state = .rejected :=
    target_of_serial hserial hr' (k := .bare .reject) (by rw [hcalls]; rfl)
  have hlater : ¬Later r.state r'.state := by
    rw [happroved, hrejected]
    exact fun h => absurd h.rejected (by decide)
  have hlater' : ¬Later r'.state r.state := by
    rw [hrejected]
    exact not_later_of_terminal rfl
  cases eq_of_pairwise (later_of_serial hserial).2 hr hr' hlater hlater'

end Clawback
