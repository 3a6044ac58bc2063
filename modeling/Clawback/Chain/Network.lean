import Clawback.Chain.CaseAnchor
import Clawback.Js.Runtime

/-!
# Chain and storage

What the agent shares with everyone else: the contract CaseAnchor, and a storage network in which
a root hash stands for one content. Third parties call `anchor` with any arguments and upload any
content.

* `Network.Keeps`: what is anchored and what is stored stays as it is.
* `Network.Anchored.mono`, `Network.keeps_of_applyAll`: so it does whatever third parties do.
-/

namespace Clawback

open Js

/-- The 32 bytes that a text stands for as an argument of the contract: `0x` and 64 hexadecimal
digits. -/
def bytes32 : Str → Option Bytes32
  | zero :: x :: digits =>
    let bytes := ofHexText digits
    if [zero, x] = js "0x" ∧ digits.length = 64 ∧ bytes.length = 32 then
      some (BitVec.ofNat 256 (bytes.foldl (fun n b => 256 * n + b.toNat) 0))
    else none
  | _ => none

/-- `previousCommitment ?? ethers.ZeroHash` -/
def previousBytes32 : Option Str → Option Bytes32
  | some previousCommitment => bytes32 previousCommitment
  | none => some 0

/-- The transaction that `AnchorClient.anchorReceipt` sends. -/
def anchorCall (caseId receiptCommitment : Str) (previousCommitment : Option Str)
    (sender : Address) (timestamp : BitVec 256) : Option CaseAnchor.AnchorCall := do
  let caseId ← bytes32 caseId
  let receiptCommitment ← bytes32 receiptCommitment
  let previousCommitment ← previousBytes32 previousCommitment
  return { caseId, receiptCommitment, previousCommitment, sender, timestamp }

instance (call : CaseAnchor.AnchorCall) : Decidable call.Timely :=
  inferInstanceAs (Decidable (_ ∧ _))

/-- The storage of the contract, and the content under each root hash. -/
structure Network where
  anchors : CaseAnchor.Anchors
  storage : Str → Option Str

/-- What third parties do. A transaction that reverts is among them, and so is an upload or an
anchor of the agent itself that has taken effect although the call for it was rejected. -/
inductive Foreign where
  | anchor (call : CaseAnchor.AnchorCall)
  | upload (rootHash content : Str)

namespace Network

/-- A root hash stands for one content. -/
def upload (n : Network) (rootHash content : Str) : Option Network :=
  match n.storage rootHash with
  | some held => if held = content then some n else none
  | none =>
    some { n with storage := fun root => if root = rootHash then some content else n.storage root }

/-- A transaction that succeeds. -/
def anchor (n : Network) (call : CaseAnchor.AnchorCall) : Option Network :=
  if call.Timely then
    match CaseAnchor.anchor n.anchors call with
    | .ok (anchors, _) => some { n with anchors }
    | .error _ => none
  else none

/-- The network after a deed of a third party; `none` when it is impossible. -/
def apply (n : Network) : Foreign → Option Network
  | .anchor call =>
    if call.Timely then some { n with anchors := CaseAnchor.step n.anchors call } else none
  | .upload rootHash content => n.upload rootHash content

def applyAll (n : Network) : List Foreign → Option Network
  | [] => some n
  | deed :: deeds => (n.apply deed).bind fun n' => n'.applyAll deeds

/-! ## What stays as it is -/

/-- What is anchored and what is stored in `n` is so in `n'`. -/
structure Keeps (n n' : Network) : Prop where
  anchors : ∀ c, (n.anchors c).anchoredAt ≠ 0 → n'.anchors c = n.anchors c
  storage : ∀ root content, n.storage root = some content → n'.storage root = some content

theorem Keeps.refl (n : Network) : Keeps n n := ⟨fun _ _ => rfl, fun _ _ h => h⟩

theorem Keeps.trans {n n' n'' : Network} (h : Keeps n n') (h' : Keeps n' n'') : Keeps n n'' := by
  refine ⟨fun c hc => ?_, fun root content hroot => h'.storage root content (h.storage root content hroot)⟩
  have hsame := h.anchors c hc
  exact (h'.anchors c (hsame.symm ▸ hc)).trans hsame

variable {n n' : Network}

theorem upload_spec {rootHash content : Str} (h : n.upload rootHash content = some n') :
    Keeps n n' ∧ n'.storage rootHash = some content := by
  unfold upload at h
  split at h
  · rename_i held hheld
    split at h
    · rename_i hsame
      cases h
      exact ⟨.refl n, hsame ▸ hheld⟩
    · cases h
  · rename_i hnone
    cases h
    refine ⟨⟨fun _ _ => rfl, fun root other hroot => ?_⟩, if_pos rfl⟩
    by_cases hsame : root = rootHash
    · rw [hsame, hnone] at hroot
      cases hroot
    · exact (if_neg hsame).trans hroot

/-- The contract has anchored the commitment for the case, both given as texts. -/
def Anchored (n : Network) (caseId receiptCommitment : Str) : Prop :=
  ∃ c e, bytes32 caseId = some c ∧ bytes32 receiptCommitment = some e ∧
    (n.anchors c).anchoredAt ≠ 0 ∧ (n.anchors c).receiptCommitment = e

theorem Anchored.mono {caseId receiptCommitment : Str} (h : n.Anchored caseId receiptCommitment)
    (hkeeps : Keeps n n') : n'.Anchored caseId receiptCommitment := by
  obtain ⟨c, e, hc, he, hanchored, hcommitment⟩ := h
  have hsame := hkeeps.anchors c hanchored
  exact ⟨c, e, hc, he, hsame.symm ▸ hanchored, hsame.symm ▸ hcommitment⟩

theorem keeps_step (n : Network) (call : CaseAnchor.AnchorCall) :
    Keeps n { n with anchors := CaseAnchor.step n.anchors call } :=
  ⟨fun _ hc => CaseAnchor.step_of_anchored hc, fun _ _ h => h⟩

theorem anchorCall_spec {caseId receiptCommitment : Str} {previousCommitment : Option Str}
    {sender : Address} {timestamp : BitVec 256} {call : CaseAnchor.AnchorCall}
    (h : anchorCall caseId receiptCommitment previousCommitment sender timestamp = some call) :
    bytes32 caseId = some call.caseId ∧
      bytes32 receiptCommitment = some call.receiptCommitment := by
  obtain ⟨c, hc, h⟩ := Option.bind_eq_some_iff.mp h
  obtain ⟨e, he, h⟩ := Option.bind_eq_some_iff.mp h
  obtain ⟨previous, -, h⟩ := Option.bind_eq_some_iff.mp h
  cases h
  exact ⟨hc, he⟩

/-- A transaction that succeeds anchors its commitment. -/
theorem anchor_spec {call : CaseAnchor.AnchorCall} (h : n.anchor call = some n') :
    Keeps n n' ∧ n'.anchors call.caseId = call.stored ∧ call.Timely := by
  obtain ⟨htimely, h⟩ := Option.ite_none_right_eq_some.mp h
  split at h
  · rename_i anchors event hanchor
    cases h
    have hstep : CaseAnchor.step n.anchors call = anchors := by
      unfold CaseAnchor.step
      rw [hanchor]
    have hok := CaseAnchor.anchor_ok_iff.mp ⟨_, hanchor⟩
    have hstored : CaseAnchor.step n.anchors call call.caseId = call.stored := by
      rw [CaseAnchor.step_apply, if_pos ⟨rfl, hok⟩]
    rw [hstep] at hstored
    exact ⟨hstep ▸ keeps_step n call, hstored, htimely⟩
  · cases h

theorem anchored_of_anchor {caseId receiptCommitment : Str} {previousCommitment : Option Str}
    {sender : Address} {timestamp : BitVec 256} {call : CaseAnchor.AnchorCall}
    (hcall : anchorCall caseId receiptCommitment previousCommitment sender timestamp = some call)
    (h : n.anchor call = some n') : n'.Anchored caseId receiptCommitment := by
  obtain ⟨hcase, hcommitment⟩ := anchorCall_spec hcall
  obtain ⟨-, hstored, htimely⟩ := anchor_spec h
  refine ⟨call.caseId, call.receiptCommitment, hcase, hcommitment, ?_, ?_⟩
  · rw [hstored]
    exact htimely.anchoredAt_ne
  · rw [hstored]
    rfl

theorem keeps_of_apply {deed : Foreign} (h : n.apply deed = some n') : Keeps n n' := by
  cases deed with
  | anchor call =>
    obtain ⟨-, h⟩ := Option.ite_none_right_eq_some.mp h
    cases h
    exact keeps_step n call
  | upload rootHash content => exact (upload_spec h).1

/-- Whatever third parties do, what is anchored and what is stored stays as it is. -/
theorem keeps_of_applyAll {deeds : List Foreign} (h : n.applyAll deeds = some n') : Keeps n n' := by
  induction deeds generalizing n with
  | nil =>
    cases h
    exact .refl _
  | cons deed deeds ih =>
    obtain ⟨m, hm, hrest⟩ := Option.bind_eq_some_iff.mp h
    exact (keeps_of_apply hm).trans (ih hrest)

end Network

end Clawback
