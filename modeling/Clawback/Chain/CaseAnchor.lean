import Mathlib.Data.BitVec
import Mathlib.Data.List.Basic

/-!
# The contract CaseAnchor

The storage of the contract, its two external functions, and what a sequence of
transactions leaves behind. A transaction that reverts changes nothing.

* `after_eq_first`: an anchor is what the first call with a non-zero commitment wrote.
* `anchors_write_once`: whatever comes later reverts, and no call reaches another case.
* `verify_iff_anchored`: `verify` tells what was anchored, unless it is asked for the zero
  commitment of a case that nobody has anchored.
-/

namespace Clawback

abbrev Bytes32 := BitVec 256

abbrev Address := BitVec 160

namespace CaseAnchor

structure Anchor where
  receiptCommitment : Bytes32
  previousCommitment : Bytes32
  anchoredBy : Address
  anchoredAt : BitVec 64
deriving DecidableEq

/-- What storage that was never written reads as. -/
def Anchor.zero : Anchor := ⟨0, 0, 0, 0⟩

/-- `mapping(bytes32 => Anchor) private anchors` -/
abbrev Anchors := Bytes32 → Anchor

/-- The storage of a contract that was just deployed. -/
def deployed : Anchors := fun _ => .zero

structure ReceiptAnchored where
  caseId : Bytes32
  receiptCommitment : Bytes32
  previousCommitment : Bytes32
  anchoredBy : Address
  anchoredAt : BitVec 64
deriving DecidableEq

inductive AnchorError where
  | alreadyAnchored (caseId : Bytes32)
  | emptyCommitment
deriving DecidableEq

/-- A transaction that calls `anchor`: its arguments, `msg.sender` and `block.timestamp`. -/
structure AnchorCall where
  caseId : Bytes32
  receiptCommitment : Bytes32
  previousCommitment : Bytes32
  sender : Address
  timestamp : BitVec 256
deriving DecidableEq

/-- What a call stores when it succeeds. -/
def AnchorCall.stored (call : AnchorCall) : Anchor where
  receiptCommitment := call.receiptCommitment
  previousCommitment := call.previousCommitment
  anchoredBy := call.sender
  anchoredAt := call.timestamp.setWidth 64

def anchor (anchors : Anchors) (call : AnchorCall) :
    Except AnchorError (Anchors × ReceiptAnchored) :=
  if call.receiptCommitment = 0 then .error .emptyCommitment
  else if (anchors call.caseId).anchoredAt ≠ 0 then .error (.alreadyAnchored call.caseId)
  else .ok
    (fun c => if c = call.caseId then call.stored else anchors c,
      { caseId := call.caseId
        receiptCommitment := call.receiptCommitment
        previousCommitment := call.previousCommitment
        anchoredBy := call.sender
        anchoredAt := call.timestamp.setWidth 64 })

def verify (anchors : Anchors) (caseId expectedReceiptCommitment : Bytes32) : Bool :=
  (anchors caseId).receiptCommitment == expectedReceiptCommitment

def getAnchor (anchors : Anchors) (caseId : Bytes32) : Anchor := anchors caseId

/-! ## Sequences of calls -/

/-- The storage after a transaction. -/
def step (anchors : Anchors) (call : AnchorCall) : Anchors :=
  match anchor anchors call with
  | .ok (anchors', _) => anchors'
  | .error _ => anchors

/-- The storage after a sequence of transactions. -/
def after (anchors : Anchors) (calls : List AnchorCall) : Anchors := calls.foldl step anchors

/-- The time of a block fits in 64 bits and is not zero. -/
def AnchorCall.Timely (call : AnchorCall) : Prop :=
  1 ≤ call.timestamp.toNat ∧ call.timestamp.toNat < 2 ^ 64

/-- A call that can write the anchor of a case. -/
def AnchorCall.Names (caseId : Bytes32) (call : AnchorCall) : Prop :=
  call.caseId = caseId ∧ call.receiptCommitment ≠ 0

instance (caseId : Bytes32) : DecidablePred (AnchorCall.Names caseId) :=
  fun _ => inferInstanceAs (Decidable (_ ∧ _))

/-- The first call of a sequence that can write the anchor of a case. -/
def first (caseId : Bytes32) (calls : List AnchorCall) : Option AnchorCall :=
  calls.find? fun call => call.Names caseId

/-- Some call `anchor(caseId, commitment, _)` of a sequence succeeded. -/
def Succeeded (calls : List AnchorCall) (caseId commitment : Bytes32) : Prop :=
  ∃ before call rest, calls = before ++ call :: rest ∧ call.caseId = caseId ∧
    call.receiptCommitment = commitment ∧ ∃ result, anchor (after deployed before) call = .ok result

@[simp] theorem after_nil (anchors : Anchors) : after anchors [] = anchors := rfl

theorem after_append (anchors : Anchors) (calls more : List AnchorCall) :
    after anchors (calls ++ more) = after (after anchors calls) more := List.foldl_append

theorem after_concat (anchors : Anchors) (calls : List AnchorCall) (call : AnchorCall) :
    after anchors (calls ++ [call]) = step (after anchors calls) call := after_append _ _ _

theorem AnchorCall.Timely.anchoredAt_toNat {call : AnchorCall} (h : call.Timely) :
    call.stored.anchoredAt.toNat = call.timestamp.toNat := by
  unfold AnchorCall.stored
  rw [BitVec.toNat_setWidth]
  exact Nat.mod_eq_of_lt h.2

theorem AnchorCall.Timely.anchoredAt_ne {call : AnchorCall} (h : call.Timely) :
    call.stored.anchoredAt ≠ 0 := by
  intro hzero
  have hnat := h.anchoredAt_toNat
  rw [hzero] at hnat
  have hpos := h.1
  simp only [BitVec.ofNat_eq_ofNat, BitVec.toNat_ofNat, Nat.zero_mod] at hnat
  omega

/-! ## What one call does -/

theorem anchor_of_empty {anchors : Anchors} {call : AnchorCall}
    (h : call.receiptCommitment = 0) : anchor anchors call = .error .emptyCommitment := by
  unfold anchor
  rw [if_pos h]

theorem anchor_of_anchored {anchors : Anchors} {call : AnchorCall}
    (hcommitment : call.receiptCommitment ≠ 0)
    (h : (anchors call.caseId).anchoredAt ≠ 0) :
    anchor anchors call = .error (.alreadyAnchored call.caseId) := by
  unfold anchor
  rw [if_neg hcommitment, if_pos h]

theorem anchor_ok_iff {anchors : Anchors} {call : AnchorCall} :
    (∃ result, anchor anchors call = .ok result) ↔
      call.receiptCommitment ≠ 0 ∧ (anchors call.caseId).anchoredAt = 0 := by
  constructor
  · rintro ⟨result, h⟩
    by_cases hcommitment : call.receiptCommitment = 0
    · rw [anchor_of_empty hcommitment] at h
      cases h
    · by_cases hanchored : (anchors call.caseId).anchoredAt = 0
      · exact ⟨hcommitment, hanchored⟩
      · rw [anchor_of_anchored hcommitment hanchored] at h
        cases h
  · rintro ⟨hcommitment, hanchored⟩
    unfold anchor
    rw [if_neg hcommitment, if_neg (not_not.mpr hanchored)]
    exact ⟨_, rfl⟩

/-- A call writes the anchor of its case, or nothing. -/
theorem step_apply (anchors : Anchors) (call : AnchorCall) (c : Bytes32) :
    step anchors call c =
      if c = call.caseId ∧ call.receiptCommitment ≠ 0 ∧ (anchors c).anchoredAt = 0
      then call.stored else anchors c := by
  unfold step
  by_cases hcommitment : call.receiptCommitment = 0
  · rw [anchor_of_empty hcommitment, if_neg fun h => h.2.1 hcommitment]
  · by_cases hanchored : (anchors call.caseId).anchoredAt = 0
    · unfold anchor
      rw [if_neg hcommitment, if_neg (not_not.mpr hanchored)]
      dsimp only
      by_cases hc : c = call.caseId
      · rw [if_pos hc, if_pos ⟨hc, hcommitment, hc ▸ hanchored⟩]
      · rw [if_neg hc, if_neg fun h => hc h.1]
    · have hkept : ¬(c = call.caseId ∧ call.receiptCommitment ≠ 0 ∧ (anchors c).anchoredAt = 0) := by
        rintro ⟨rfl, -, hzero⟩
        exact hanchored hzero
      rw [anchor_of_anchored hcommitment hanchored, if_neg hkept]

theorem step_of_ne {anchors : Anchors} {call : AnchorCall} {c : Bytes32}
    (h : c ≠ call.caseId) : step anchors call c = anchors c := by
  rw [step_apply, if_neg fun hwrite => h hwrite.1]

/-- What is anchored stays as it is. -/
theorem step_of_anchored {anchors : Anchors} {call : AnchorCall} {c : Bytes32}
    (h : (anchors c).anchoredAt ≠ 0) : step anchors call c = anchors c := by
  rw [step_apply, if_neg fun hwrite => h hwrite.2.2]

/-! ## Write once -/

theorem first_some {c : Bytes32} {calls : List AnchorCall} {call : AnchorCall}
    (h : first c calls = some call) : call ∈ calls ∧ call.Names c := by
  unfold first at h
  have hnames := List.find?_some h
  exact ⟨List.mem_of_find?_eq_some h, of_decide_eq_true hnames⟩

theorem first_eq_none_iff {c : Bytes32} {calls : List AnchorCall} :
    first c calls = none ↔ ∀ call ∈ calls, ¬call.Names c := by
  unfold first
  rw [List.find?_eq_none]
  simp only [decide_eq_true_eq]

theorem first_cons_of_names {c : Bytes32} {call : AnchorCall} (h : call.Names c)
    (calls : List AnchorCall) : first c (call :: calls) = some call := by
  unfold first
  exact List.find?_cons_of_pos (decide_eq_true h)

theorem first_append (c : Bytes32) (calls more : List AnchorCall) :
    first c (calls ++ more) = (first c calls).or (first c more) := List.find?_append

/-- An anchor is what the first call with a non-zero commitment wrote. -/
theorem after_eq_first {calls : List AnchorCall} (htime : ∀ call ∈ calls, call.Timely)
    (c : Bytes32) :
    after deployed calls c = ((first c calls).map AnchorCall.stored).getD .zero := by
  induction calls using List.reverseRecOn with
  | nil => rfl
  | append_singleton calls call ih =>
    have hcalls := ih fun earlier hmem => htime earlier (List.mem_append_left _ hmem)
    rw [after_concat, step_apply, hcalls, first_append]
    cases hfirst : first c calls with
    | some earlier =>
      have hearlier := htime earlier (List.mem_append_left _ (first_some hfirst).1)
      have hanchored : ¬(earlier.stored.anchoredAt = 0) := hearlier.anchoredAt_ne
      rw [if_neg fun h => hanchored h.2.2]
      rfl
    | none =>
      have hzero : ((none.map AnchorCall.stored).getD Anchor.zero).anchoredAt = 0 := rfl
      by_cases hnames : call.Names c
      · rw [if_pos ⟨hnames.1.symm, hnames.2, hzero⟩, first_cons_of_names hnames]
        rfl
      · have hnone : first c [call] = none := by
          rw [first_eq_none_iff]
          intro other hother
          rwa [List.mem_singleton.mp hother]
        rw [if_neg fun h => hnames ⟨h.1.symm, h.2.1⟩, hnone]
        rfl

theorem anchored_iff_first {calls : List AnchorCall} (htime : ∀ call ∈ calls, call.Timely)
    {c : Bytes32} : (after deployed calls c).anchoredAt = 0 ↔ first c calls = none := by
  rw [after_eq_first htime]
  cases hfirst : first c calls with
  | none => exact iff_of_true rfl rfl
  | some call =>
    have htimely := htime call (first_some hfirst).1
    exact iff_of_false htimely.anchoredAt_ne (Option.some_ne_none call)

/-- The anchor of a case is the data of the first call for it with a non-zero commitment;
every other call reverts, and no call changes the anchor of another case. -/
theorem anchors_write_once (calls : List AnchorCall) (htime : ∀ call ∈ calls, call.Timely) :
    (∀ c call, first c calls = some call →
      (after deployed calls c).receiptCommitment = call.receiptCommitment ∧
      (after deployed calls c).previousCommitment = call.previousCommitment ∧
      (after deployed calls c).anchoredBy = call.sender ∧
      (after deployed calls c).anchoredAt.toNat = call.timestamp.toNat) ∧
    (∀ c, first c calls = none → after deployed calls c = .zero) ∧
    (∀ before call rest, calls = before ++ call :: rest →
      (call.receiptCommitment = 0 →
        anchor (after deployed before) call = .error .emptyCommitment) ∧
      (first call.caseId before ≠ none →
        ∃ error, anchor (after deployed before) call = .error error) ∧
      (call.receiptCommitment ≠ 0 → first call.caseId before = none →
        ∃ result, anchor (after deployed before) call = .ok result) ∧
      ∀ c, c ≠ call.caseId → after deployed (before ++ [call]) c = after deployed before c) := by
  refine ⟨fun c call hfirst => ?_, fun c hfirst => ?_, fun before call rest heq => ?_⟩
  · have htimely := htime call (first_some hfirst).1
    have hstored : after deployed calls c = call.stored := by
      rw [after_eq_first htime, hfirst]
      rfl
    rw [hstored]
    exact ⟨rfl, rfl, rfl, htimely.anchoredAt_toNat⟩
  · rw [after_eq_first htime, hfirst]
    rfl
  · have hbefore : ∀ earlier ∈ before, earlier.Timely :=
      fun earlier hmem => htime earlier (heq ▸ List.mem_append_left _ hmem)
    refine ⟨anchor_of_empty, fun hfirst => ?_, fun hcommitment hfirst => ?_, fun c hc => ?_⟩
    · by_cases hcommitment : call.receiptCommitment = 0
      · exact ⟨_, anchor_of_empty hcommitment⟩
      · have hanchored := mt (anchored_iff_first hbefore).mp hfirst
        exact ⟨_, anchor_of_anchored hcommitment hanchored⟩
    · have hanchored := (anchored_iff_first hbefore).mpr hfirst
      exact anchor_ok_iff.mpr ⟨hcommitment, hanchored⟩
    · rw [after_concat]
      exact step_of_ne hc

/-- Two parties anchor one case, the first of them after an empty commitment. -/
def sampleCalls : List AnchorCall :=
  [⟨7, 0, 0, 1, 10⟩, ⟨7, 5, 0, 1, 11⟩, ⟨7, 6, 0, 2, 12⟩]

theorem sampleCalls_timely : ∀ call ∈ sampleCalls, call.Timely := by
  unfold AnchorCall.Timely
  decide

theorem sample_anchors_write_once :
    (after deployed sampleCalls 7).anchoredAt.toNat = (11 : BitVec 256).toNat :=
  ((anchors_write_once sampleCalls sampleCalls_timely).1 7 ⟨7, 5, 0, 1, 11⟩ rfl).2.2.2

/-! ## What verify tells -/

theorem succeeded_iff_first {calls : List AnchorCall} (htime : ∀ call ∈ calls, call.Timely)
    {c e : Bytes32} :
    Succeeded calls c e ↔ ∃ call, first c calls = some call ∧ call.receiptCommitment = e := by
  constructor
  · rintro ⟨before, call, rest, rfl, rfl, rfl, hok⟩
    obtain ⟨hcommitment, hanchored⟩ := anchor_ok_iff.mp hok
    have hbefore : ∀ earlier ∈ before, earlier.Timely :=
      fun earlier hmem => htime earlier (List.mem_append_left _ hmem)
    have hfirst := (anchored_iff_first hbefore).mp hanchored
    refine ⟨call, ?_, rfl⟩
    rw [first_append, hfirst, first_cons_of_names ⟨rfl, hcommitment⟩]
    rfl
  · rintro ⟨call, hfirst, rfl⟩
    have hnames := (first_some hfirst).2
    obtain ⟨-, before, rest, heq, hbefore⟩ := List.find?_eq_some_iff_append.mp hfirst
    have hnone : first call.caseId before = none := by
      rw [hnames.1, first_eq_none_iff]
      intro earlier hmem hearlier
      have hnot := hbefore earlier hmem
      rw [decide_eq_true hearlier] at hnot
      cases hnot
    have hanchored := (anchored_iff_first fun earlier hmem =>
      htime earlier (heq ▸ List.mem_append_left _ hmem)).mpr hnone
    exact ⟨before, call, rest, heq, hnames.1, rfl, anchor_ok_iff.mpr ⟨hnames.2, hanchored⟩⟩

/-- `verify` says what was anchored exactly when it is asked for a non-zero commitment, or
about a case for which there was a call with a non-zero commitment. -/
theorem verify_iff_anchored (calls : List AnchorCall) (htime : ∀ call ∈ calls, call.Timely)
    (c e : Bytes32) :
    (verify (after deployed calls) c e = true ↔ Succeeded calls c e) ↔
      (e ≠ 0 ∨ ∃ call ∈ calls, call.caseId = c ∧ call.receiptCommitment ≠ 0) := by
  have hverify : verify (after deployed calls) c e = true ↔
      (((first c calls).map AnchorCall.stored).getD .zero).receiptCommitment = e := by
    unfold verify
    rw [after_eq_first htime]
    exact beq_iff_eq
  rw [hverify, succeeded_iff_first htime]
  cases hfirst : first c calls with
  | some call =>
    have hnames := first_some hfirst
    refine iff_of_true ⟨fun h => ⟨call, rfl, h⟩, ?_⟩ (.inr ⟨call, hnames⟩)
    rintro ⟨_, ⟨⟩, h⟩
    exact h
  | none =>
    have hnone : ¬∃ call ∈ calls, call.caseId = c ∧ call.receiptCommitment ≠ 0 := by
      rintro ⟨call, hmem, hnames⟩
      exact first_eq_none_iff.mp hfirst call hmem hnames
    have hanchored : ¬∃ call : AnchorCall, none = some call ∧ call.receiptCommitment = e := by
      rintro ⟨_, ⟨⟩, -⟩
    rw [iff_false_right hanchored, or_iff_left hnone]
    exact not_congr eq_comm

theorem sample_verify_iff_anchored :
    (verify (after deployed sampleCalls) 7 5 = true ↔ Succeeded sampleCalls 7 5) ↔
      ((5 : Bytes32) ≠ 0 ∨
        ∃ call ∈ sampleCalls, call.caseId = 7 ∧ call.receiptCommitment ≠ 0) :=
  verify_iff_anchored sampleCalls sampleCalls_timely 7 5

/-- Before any transaction `verify` confirms the zero commitment of a case. -/
theorem verify_unanchored :
    ¬(verify (after deployed []) 7 0 = true ↔ Succeeded [] 7 0) := by
  intro h
  have hverify : verify (after deployed []) 7 0 = true := rfl
  obtain ⟨before, call, rest, heq, -⟩ := h.mp hverify
  cases before <;> cases heq

end CaseAnchor

end Clawback
