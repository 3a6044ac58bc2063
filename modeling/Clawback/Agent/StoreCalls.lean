import Clawback.Agent.Alone

/-!
# Calls to the case store

`create` and `transition` as a caller of the store can use them: with any record and with any
patch, one call after another. What a patch returns is spread over the record, and the record
is saved under the `caseId` it has then; `create` overwrites what is stored.

* `storeStep_of_completes`: a call throws and changes nothing, or stores one record.
* `machineKept_of_guarded`: calls that do not misuse this keep to the state machine.
* `store_bypasses_machine`: calls that do, with a patch or with `create`.
-/

namespace Clawback

open Js Async

inductive StoreCall where
  | create (record : CaseRecord)
  | transition (caseId : Str) (event : CaseEvent) (patch : CaseRecord → Except JsError CasePatch)

/-- The program of a call; `create` returns nothing. -/
def startStore : StoreCall → Action (Option CaseRecord)
  | .create record => do
    Prog.perform (Effect.create record)
    return none
  | .transition caseId event patch => do
    let record ← transition caseId event fun record => Prog.lift (patch record)
    return some record

/-- The store and its callers. -/
def caseStore : System StoreCall Effect Effect.Answer JsError World Choice (Option CaseRecord) where
  start := startStore
  exec := exec

/-- A call to the store that has ended. -/
abbrev StoreEnded := Ended StoreCall Effect Effect.Answer JsError World (Option CaseRecord)

/-- The records that a call has stored. -/
def writtenBy (e : StoreEnded) : List CaseRecord := written (e.asked.map Asked.entry)

/-- The records that were stored under a key, in the order in which they were stored. -/
def storedUnder (c : Str) (l : List StoreEnded) : List CaseRecord :=
  (l.flatMap writtenBy).filter fun r => r.caseId = c

/-! ## What a call does -/

/-- What a call that runs alone does: it throws and changes nothing, or it stores one record. -/
inductive StoreStep (e : StoreEnded) : Prop
  | threw (x : JsError) : e.result = .error x → writtenBy e = [] → e.after = e.before → StoreStep e
  | created (record : CaseRecord) : e.call = .create record → e.result = .ok none →
    writtenBy e = [record] → e.after = e.before.put record → StoreStep e
  | moved (c : Str) (event : CaseEvent) (patch : CaseRecord → Except JsError CasePatch)
    (r : CaseRecord) (next : CaseState) (changes : CasePatch) (time : Str) :
    e.call = .transition c event patch → e.before.store c = some r →
    applyTransition r.state event = .ok next → patch r = .ok changes →
    e.result = .ok (some (r.patched changes next time)) →
    writtenBy e = [r.patched changes next time] →
    e.after = e.before.put (r.patched changes next time) → StoreStep e

theorem ensures_store_create (record : CaseRecord) (w : World) :
    Ensures caseStore (fun _ _ _ => True)
      (fun r l w' => (∃ x, r = .error x ∧ written (l.map Asked.entry) = [] ∧ w' = w) ∨
        (r = .ok none ∧ written (l.map Asked.entry) = [record] ∧ w' = w.put record))
      (startStore (.create record)) [] w := by
  refine Ensures.bind (ensures_create rfl trivial (fun x => ?_) ?_)
  · exact .inl ⟨x, rfl, rfl, rfl⟩
  · exact .inr ⟨rfl, rfl, rfl⟩

theorem ensures_store_transition (c : Str) (event : CaseEvent)
    (patch : CaseRecord → Except JsError CasePatch) (w : World) :
    Ensures caseStore (fun _ _ _ => True)
      (fun r l w' => (∃ x, r = .error x ∧ written (l.map Asked.entry) = [] ∧ w' = w) ∨
        ∃ record next changes time, w.store c = some record ∧
          applyTransition record.state event = .ok next ∧ patch record = .ok changes ∧
          r = .ok (some (record.patched changes next time)) ∧
          written (l.map Asked.entry) = [record.patched changes next time] ∧
          w' = w.put (record.patched changes next time))
      (startStore (.transition c event patch)) [] w := by
  refine Ensures.bind (ensures_transition_lift rfl _ (fun _ _ _ _ => trivial) ?_ ?_)
  · intro x since hstopped
    refine .inl ⟨x, rfl, ?_, rfl⟩
    cases hstopped <;> rfl
  · intro record next changes time hfound hnext hchanges
    exact .inr ⟨record, next, changes, time, hfound, hnext, hchanges, rfl, rfl, rfl⟩

theorem storeStep_of_completes {e : StoreEnded} (he : caseStore.Completes e) : StoreStep e := by
  obtain ⟨call, before, asked, result, after⟩ := e
  cases call with
  | create record =>
    obtain ⟨⟨x, hresult, hwritten, hafter⟩ | ⟨hresult, hwritten, hafter⟩, -⟩ :=
      (ensures_store_create record before).completes he
    · exact .threw x hresult hwritten hafter
    · exact .created record rfl hresult hwritten hafter
  | transition c event patch =>
    obtain ⟨⟨x, hresult, hwritten, hafter⟩ | ⟨r, next, changes, time, hfound, hnext, hchanges,
      hresult, hwritten, hafter⟩, -⟩ := (ensures_store_transition c event patch before).completes he
    · exact .threw x hresult hwritten hafter
    · exact .moved c event patch r next changes time rfl hfound hnext hchanges hresult hwritten
        hafter

/-! ## Calls that keep to the state machine -/

/-- The call does not use the store in a way that its contract does not foresee: it creates no
record over one whose state could not move there, and its patch does not change who the record
belongs to. -/
def Guarded (e : StoreEnded) : Prop :=
  match e.call with
  | .create record => ∀ r, e.before.store record.caseId = some r → Arrow r.state record.state
  | .transition c event patch => ∀ r next changes, e.before.store c = some r →
    applyTransition r.state event = .ok next → patch r = .ok changes →
    changes.caseId.getD r.caseId = r.caseId ∧ changes.ownerId.getD r.ownerId = r.ownerId

/-- What the contract of the store promises of a sequence of calls. -/
structure MachineKept (l : List StoreEnded) : Prop where
  path : ∀ c, (storedUnder c l).IsChain fun r r' => Arrow r.state r'.state
  frame : ∀ e ∈ l, ∀ c event patch, e.call = .transition c event patch →
    (∀ c', c' ≠ c → e.after.store c' = e.before.store c') ∧
      ∀ r, e.before.store c = some r → ∃ r', e.after.store c = some r' ∧
        r'.caseId = r.caseId ∧ r'.ownerId = r.ownerId
  threw : ∀ e ∈ l, ∀ x, e.result = .error x → e.after.store = e.before.store

theorem storedUnder_concat (c : Str) (l : List StoreEnded) (e : StoreEnded) :
    storedUnder c (l ++ [e]) =
      storedUnder c l ++ (writtenBy e).filter fun r => r.caseId = c := by
  unfold storedUnder
  rw [List.flatMap_append, List.flatMap_singleton, List.filter_append]

/-- The record that is stored last under its key comes by a legal move. -/
theorem isChain_concat {c : Str} {l : List StoreEnded} {record : CaseRecord} {w : World}
    (hpath : (storedUnder c l).IsChain fun r r' => Arrow r.state r'.state)
    (hstore : w.store c = (storedUnder c l).getLast?)
    (harrow : ∀ r, w.store record.caseId = some r → Arrow r.state record.state) :
    (storedUnder c l ++ [record].filter fun r => r.caseId = c).IsChain
        (fun r r' => Arrow r.state r'.state) ∧
      (w.put record).store c =
        (storedUnder c l ++ [record].filter fun r => r.caseId = c).getLast? := by
  by_cases hid : record.caseId = c
  · have hone : ([record].filter fun r => r.caseId = c) = [record] := by
      rw [List.filter_cons_of_pos (by exact decide_eq_true hid), List.filter_nil]
    rw [hone]
    refine ⟨List.isChain_append.mpr ⟨hpath, .singleton _, ?_⟩, ?_⟩
    · rintro r hr r' hr'
      cases hr'
      rw [← hstore, ← hid] at hr
      exact harrow r hr
    · rw [List.getLast?_append, List.getLast?_singleton]
      exact if_pos hid.symm
  · have hnone : ([record].filter fun r => r.caseId = c) = [] := by
      rw [List.filter_cons_of_neg (by simpa using hid), List.filter_nil]
    rw [hnone, List.append_nil]
    exact ⟨hpath, (if_neg (Ne.symm hid)).trans hstore⟩

/-- What the calls so far have kept, and that the store holds what was stored last. -/
structure StoreInvariant (l : List StoreEnded) (w : World) : Prop where
  kept : MachineKept l
  last : ∀ c, w.store c = (storedUnder c l).getLast?

theorem StoreInvariant.keyed {l : List StoreEnded} {w : World} (h : StoreInvariant l w) {c : Str}
    {r : CaseRecord} (hr : w.store c = some r) : r.caseId = c := by
  rw [h.last c] at hr
  have hmem := List.mem_of_getLast? hr
  exact of_decide_eq_true (List.mem_filter.mp hmem).2

theorem MachineKept.concat {l : List StoreEnded} {e : StoreEnded} (h : MachineKept l)
    (hpath : ∀ c, (storedUnder c (l ++ [e])).IsChain fun r r' => Arrow r.state r'.state)
    (hframe : ∀ c event patch, e.call = .transition c event patch →
      (∀ c', c' ≠ c → e.after.store c' = e.before.store c') ∧
        ∀ r, e.before.store c = some r → ∃ r', e.after.store c = some r' ∧
          r'.caseId = r.caseId ∧ r'.ownerId = r.ownerId)
    (hthrew : ∀ x, e.result = .error x → e.after.store = e.before.store) :
    MachineKept (l ++ [e]) := by
  refine ⟨hpath, fun e' he' => ?_, fun e' he' => ?_⟩
  · rcases List.mem_append.mp he' with hold | hnew
    · exact h.frame e' hold
    · rw [List.mem_singleton.mp hnew]
      exact hframe
  · rcases List.mem_append.mp he' with hold | hnew
    · exact h.threw e' hold
    · rw [List.mem_singleton.mp hnew]
      exact hthrew

theorem StoreInvariant.unchanged {l : List StoreEnded} {e : StoreEnded}
    (h : StoreInvariant l e.before) (hwritten : writtenBy e = []) (hafter : e.after = e.before) :
    StoreInvariant (l ++ [e]) e.after := by
  have hstored : ∀ c, storedUnder c (l ++ [e]) = storedUnder c l := by
    intro c
    rw [storedUnder_concat, hwritten, List.filter_nil, List.append_nil]
  refine ⟨h.kept.concat (fun c => ?_) (fun c event patch _ => ?_) (fun _ _ => ?_), fun c => ?_⟩
  · rw [hstored]
    exact h.kept.path c
  · rw [hafter]
    exact ⟨fun _ _ => rfl, fun r hr => ⟨r, hr, rfl, rfl⟩⟩
  · rw [hafter]
  · rw [hafter, hstored]
    exact h.last c

/-- A call that keeps to the state machine, after calls that have done so. -/
theorem storeInvariant_step {l : List StoreEnded} {e : StoreEnded}
    (h : StoreInvariant l e.before) (he : caseStore.Completes e) (hguarded : Guarded e) :
    StoreInvariant (l ++ [e]) e.after := by
  unfold Guarded at hguarded
  cases storeStep_of_completes he with
  | threw x _ hwritten hafter => exact h.unchanged hwritten hafter
  | created record hcall hresult hwritten hafter =>
    rw [hcall] at hguarded
    have hstored := fun c => isChain_concat (h.kept.path c) (h.last c) hguarded
    refine ⟨h.kept.concat (fun c => ?_) (fun c event patch hmove => ?_) (fun x hx => ?_),
      fun c => ?_⟩
    · rw [storedUnder_concat, hwritten]
      exact (hstored c).1
    · rw [hcall] at hmove
      cases hmove
    · rw [hresult] at hx
      cases hx
    · rw [hafter, storedUnder_concat, hwritten]
      exact (hstored c).2
  | moved c event patch r next changes time hcall hfound hnext hchanges hresult hwritten hafter =>
    rw [hcall] at hguarded
    obtain ⟨hid, howner⟩ := hguarded r next changes hfound hnext hchanges
    have hkey : (r.patched changes next time).caseId = c := hid.trans (h.keyed hfound)
    have harrow : ∀ r₀, e.before.store (r.patched changes next time).caseId = some r₀ →
        Arrow r₀.state (r.patched changes next time).state := by
      intro r₀ hr₀
      rw [hkey, hfound] at hr₀
      cases hr₀
      exact ⟨event, mem_of_applyTransition hnext⟩
    have hstored := fun c => isChain_concat (h.kept.path c) (h.last c) harrow
    refine ⟨h.kept.concat (fun c' => ?_) (fun c' event' patch' hmove => ?_) (fun x hx => ?_),
      fun c' => ?_⟩
    · rw [storedUnder_concat, hwritten]
      exact (hstored c').1
    · rw [hcall] at hmove
      cases hmove
      rw [hafter]
      refine ⟨fun c' hc' => if_neg (hkey ▸ hc'), fun r₀ hr₀ => ?_⟩
      rw [hfound] at hr₀
      cases hr₀
      exact ⟨_, if_pos hkey.symm, hid, howner⟩
    · rw [hresult] at hx
      cases hx
    · rw [hafter, storedUnder_concat, hwritten]
      exact (hstored c').2

/-- In every sequence of calls, with any records and patches, in which no call misuses the
store, the states under each key follow the table of the legal moves, a transition reaches no
other record and keeps the case and its owner, and a call that throws changes nothing. -/
theorem machineKept_of_guarded {script : List (StoreCall × List Choice)} {l : List StoreEnded}
    (h : caseStore.runCalls World.empty script = some l) (hguarded : ∀ e ∈ l, Guarded e) :
    MachineKept l := by
  have hstart : StoreInvariant [] World.empty := by
    refine ⟨⟨fun c => .nil, ?_, ?_⟩, fun c => rfl⟩
    · exact fun e he => (List.not_mem_nil he).elim
    · exact fun e he => (List.not_mem_nil he).elim
  have hall := System.runCalls_invariant
    (I := fun l w => (∀ e ∈ l, Guarded e) → StoreInvariant l w) (fun _ => hstart) ?_ h
  · exact (hall hguarded).kept
  · intro script l e _ _ hl he hguarded
    have hpast := hl fun e' he' => hguarded e' (List.mem_append_left _ he')
    exact storeInvariant_step hpast he
      (hguarded e (List.mem_append_right _ (List.mem_singleton_self e)))

/-! ## Calls that do not -/

/-- A record of a case without a proposal. -/
def bareRecord (caseId : Str) (state : CaseState) : CaseRecord where
  caseId
  ownerId := js "user_1"
  category := .subscriptionCancellation
  state
  encryptedInput := ⟨[], [], []⟩
  proposal := none
  encryptedProposalMessage := none
  approval := none
  execution := none
  outcome := none
  receipt := none
  settlement := none
  environment := .sandbox
  degradedReason := none
  createdAt := js "2026-01-01T00:00:00.000Z"
  updatedAt := js "2026-01-01T00:00:00.000Z"

def submitChoices : List Choice := [.ok, .text (js "2026-01-02T00:00:00.000Z"), .ok]

/-- A case is created and submitted. -/
def submittedOnce : List (StoreCall × List Choice) :=
  [(.create (bareRecord (js "a") .draft), [.ok]),
    (.transition (js "a") .submit fun _ => .ok {}, submitChoices)]

theorem machineKept_of_guarded_sample :
    ∃ l, caseStore.runCalls World.empty submittedOnce = some l ∧
      (storedUnder (js "a") l).map CaseRecord.state = [.draft, .submitted] ∧ MachineKept l := by
  have hrun : caseStore.runCalls World.empty submittedOnce = some _ := rfl
  refine ⟨_, hrun, rfl, machineKept_of_guarded hrun fun e he => ?_⟩
  rcases List.mem_cons.mp he with rfl | he
  · intro r hr
    cases hr
  · rw [List.mem_singleton.mp he]
    intro r next changes hr _ hchanges
    cases hchanges
    exact ⟨rfl, rfl⟩

/-- A patch that gives the record of one case the `caseId` of another, and a record that is
created under a `caseId` that is in use. -/
def patchedAway : List (StoreCall × List Choice) :=
  [(.create (bareRecord (js "a") .draft), [.ok]),
    (.create (bareRecord (js "b") .verifiedSuccess), [.ok]),
    (.transition (js "a") .submit fun _ => .ok { caseId := some (js "b") }, submitChoices)]

def createdTwice : List (StoreCall × List Choice) :=
  [(.create (bareRecord (js "b") .verifiedSuccess), [.ok]),
    (.create (bareRecord (js "b") .submitted), [.ok])]

theorem not_machineKept_of_left {c : Str} {l : List StoreEnded}
    (h : (storedUnder c l).map CaseRecord.state = [.verifiedSuccess, .submitted]) :
    ¬MachineKept l := by
  intro hkept
  have hpath := hkept.path c
  rw [← List.isChain_map (f := CaseRecord.state) (R := Arrow), h] at hpath
  obtain ⟨event, hmem⟩ := List.isChain_pair.mp hpath
  cases hmem

/-- Both bypass the state machine: a case that is finalized comes back to `SUBMITTED`. -/
theorem store_bypasses_machine :
    (∃ l, caseStore.runCalls World.empty patchedAway = some l ∧ ¬MachineKept l) ∧
      ∃ l, caseStore.runCalls World.empty createdTwice = some l ∧ ¬MachineKept l :=
  ⟨⟨_, rfl, not_machineKept_of_left (c := js "b") rfl⟩,
    _, rfl, not_machineKept_of_left (c := js "b") rfl⟩

end Clawback
