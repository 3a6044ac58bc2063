import Clawback.Crypto.HashChain
import Clawback.Receipts.Verifier

/-!
# What a receipt binds

The commitments of a receipt are a hash chain over its stages. The builder and the
verifier spell the artifact of each stage out separately; both are the artifacts of one
layout (`stageLayout`), so the chain of the library applies to both.

* `committed_eq`: without a collision among the texts involved, the receipt commitment
  binds the artifacts of all five stages.
-/

namespace Clawback

open Js

section

variable {N : Type}

/-! ## The artifact of each stage -/

/-- What the case commitment is about. -/
structure CaseArtifact where
  caseId : Str
  category : CaseCategory
  merchantName : Str
  accountLast4 : Str

def CaseArtifact.keys : List Str := ["caseId", "category", "merchantName", "accountLast4"].map js

def CaseArtifact.members (a : CaseArtifact) : List (Str × Json N) :=
  [(js "caseId", .str a.caseId), (js "category", .str a.category.text),
    (js "merchantName", .str a.merchantName), (js "accountLast4", .str a.accountLast4)]

def CaseArtifact.json (a : CaseArtifact) : Json N := .obj a.members

/-- What the commitments behind it are about; savings that are not finite are left out. -/
inductive StageArtifact (N : Type) where
  | action (proposalId exactMessage approvalId approvedAt : Str)
  | execution (executionId inputCommitment outputCommitment : Str) (teeAttested : Bool)
      (providerAddress : Option Str)
  | outcome (outcomeType : OutcomeType) (claimedSavingsCents verifiedSavingsCents : Option N)
  | receipt (receiptId : Str) (status : ReceiptStatus)

/-- The kinds of stages behind the case. -/
inductive Stage where
  | action | execution | outcome | receipt

def Stage.keys : Stage → List Str
  | action => ["proposalId", "exactMessage", "approvalId", "approvedAt"].map js
  | execution =>
    ["executionId", "inputCommitment", "outputCommitment", "teeAttested",
      "providerAddress"].map js
  | outcome => ["outcomeType", "claimedSavingsCents", "verifiedSavingsCents"].map js
  | receipt => ["receiptId", "status"].map js

theorem Stage.keys_nodup (k : Stage) : k.keys.Nodup := by
  cases k <;> decide +kernel

theorem Stage.eq_of_keys_perm {k k' : Stage} (h : k.keys.Perm k'.keys) : k = k' := by
  cases k <;> cases k' <;> first | rfl | exact absurd h (by decide +kernel)

namespace StageArtifact

def stage : StageArtifact N → Stage
  | action .. => .action
  | execution .. => .execution
  | outcome .. => .outcome
  | receipt .. => .receipt

def members : StageArtifact N → List (Str × Json N)
  | action proposalId exactMessage approvalId approvedAt =>
    [(js "proposalId", .str proposalId), (js "exactMessage", .str exactMessage),
      (js "approvalId", .str approvalId), (js "approvedAt", .str approvedAt)]
  | execution executionId inputCommitment outputCommitment teeAttested providerAddress =>
    [(js "executionId", .str executionId), (js "inputCommitment", .str inputCommitment),
      (js "outputCommitment", .str outputCommitment), (js "teeAttested", .bool teeAttested),
      (js "providerAddress", .ofOption .str providerAddress)]
  | outcome outcomeType claimedSavingsCents verifiedSavingsCents =>
    [(js "outcomeType", .str outcomeType.text),
      (js "claimedSavingsCents", .ofOption .num claimedSavingsCents),
      (js "verifiedSavingsCents", .ofOption .num verifiedSavingsCents)]
  | receipt receiptId status =>
    [(js "receiptId", .str receiptId), (js "status", .str status.text)]

def json (a : StageArtifact N) : Json N := .obj a.members

theorem members_keys (a : StageArtifact N) : a.members.map Prod.fst = a.stage.keys := by
  cases a <;> rfl

end StageArtifact

/-! ## Artifacts are read back from their canonical texts -/

theorem uniqueKeys_ofOption {α : Type} {f : α → Json N} (hf : ∀ a, (f a).UniqueKeys)
    (x : Option α) : (Json.ofOption f x).UniqueKeys := by
  cases x with
  | none => trivial
  | some a => exact hf a

theorem ofOption_str_injective {x y : Option Str}
    (h : Json.KeyPerm (.ofOption .str x : Json N) (.ofOption .str y)) : x = y :=
  Json.keyPerm_ofOption (by simp) (by simp) h

theorem ofOption_num_injective {x y : Option N}
    (h : Json.KeyPerm (.ofOption .num x : Json N) (.ofOption .num y)) : x = y :=
  Json.keyPerm_ofOption (by simp) (by simp) h

theorem OutcomeType.text_injective : Function.Injective OutcomeType.text := by
  intro a b
  cases a <;> cases b <;> decide

theorem ReceiptStatus.text_injective : Function.Injective ReceiptStatus.text := by
  intro a b
  cases a <;> cases b <;> decide

theorem StageArtifact.uniqueKeys (a : StageArtifact N) : a.json.UniqueKeys := by
  refine ⟨a.members_keys ▸ a.stage.keys_nodup, ?_⟩
  have hstr : ∀ s : Str, (Json.str s : Json N).UniqueKeys := fun _ => trivial
  have hnum : ∀ n : N, (Json.num n).UniqueKeys := fun _ => trivial
  cases a with
  | action => exact ⟨trivial, trivial, trivial, trivial, trivial⟩
  | execution => exact ⟨trivial, trivial, trivial, trivial, uniqueKeys_ofOption hstr _, trivial⟩
  | outcome =>
    exact ⟨trivial, uniqueKeys_ofOption hnum _, uniqueKeys_ofOption hnum _, trivial⟩
  | receipt => exact ⟨trivial, trivial, trivial⟩

theorem CaseArtifact.uniqueKeys (a : CaseArtifact) : (a.json : Json N).UniqueKeys :=
  ⟨(by decide +kernel : CaseArtifact.keys.Nodup), trivial, trivial, trivial, trivial, trivial⟩

theorem CaseArtifact.eq_of_keyPerm {a b : CaseArtifact}
    (h : Json.KeyPerm (a.json : Json N) b.json) : a = b := by
  have hmembers := Json.KeyPerm.members h rfl (a.uniqueKeys (N := N)).1
  obtain ⟨caseId, category, merchantName, accountLast4⟩ := a
  obtain ⟨caseId', category', merchantName', accountLast4'⟩ := b
  simp only [members, Json.keyPermMembers_cons, Json.keyPermMembers_nil, Json.keyPerm_str,
    true_and, and_true] at hmembers
  obtain ⟨rfl, rfl, rfl⟩ := hmembers
  -- there is only one category
  rfl

theorem StageArtifact.eq_of_keyPerm {a b : StageArtifact N} (h : Json.KeyPerm a.json b.json) :
    a = b := by
  have hstage : a.stage = b.stage := by
    apply Stage.eq_of_keys_perm
    rw [← a.members_keys, ← b.members_keys]
    exact h.keys_perm
  have hmembers := Json.KeyPerm.members h
    (by rw [a.members_keys, b.members_keys, hstage]) a.uniqueKeys.1
  cases a <;> cases b <;> try cases hstage
  all_goals
    simp only [members, Json.keyPermMembers_cons, Json.keyPerm_str, Json.keyPerm_bool,
      Json.keyPermMembers_nil, true_and, and_true] at hmembers
  · obtain ⟨rfl, rfl, rfl, rfl⟩ := hmembers
    rfl
  · obtain ⟨rfl, rfl, rfl, rfl, haddress⟩ := hmembers
    rw [ofOption_str_injective haddress]
  · obtain ⟨htype, hclaimed, hverified⟩ := hmembers
    rw [OutcomeType.text_injective htype, ofOption_num_injective hclaimed,
      ofOption_num_injective hverified]
  · obtain ⟨rfl, hstatus⟩ := hmembers
    rw [ReceiptStatus.text_injective hstatus]

/-! ## The chain of stages -/

theorem chained_eq_of_keyPerm {d d' : Str} {a b : Json N}
    (h : Json.KeyPerm (chained (some d) a) (chained (some d') b)) :
    d = d' ∧ Json.KeyPerm a b := by
  rw [chained, chained] at h
  have hmembers := Json.KeyPerm.members h rfl
    (by decide : [js "previous", js "artifact"].Nodup)
  simp only [Json.keyPermMembers_cons, Json.keyPermMembers_nil, Json.ofOption,
    Json.keyPerm_str, true_and, and_true] at hmembers
  exact hmembers

theorem uniqueKeys_chained {a : Json N} (h : a.UniqueKeys) (d : Option Str) :
    (chained d a).UniqueKeys :=
  ⟨(by decide : [js "previous", js "artifact"].Nodup),
    uniqueKeys_ofOption (f := Json.str) (fun _ => trivial) d, h, trivial⟩

/-- The texts a receipt's commitments are the digests of. -/
def stageLayout [NumberText N] : HashChain.Layout Str Str CaseArtifact (StageArtifact N) where
  root a := canonicalize (a.json : Json N)
  link d a := canonicalize (chained (some d) a.json)
  root_injective a b h :=
    CaseArtifact.eq_of_keyPerm ((canonicalize_eq_iff a.uniqueKeys b.uniqueKeys).mp h)
  link_injective d d' a b h := by
    have hkeyPerm := (canonicalize_eq_iff (uniqueKeys_chained a.uniqueKeys _)
      (uniqueKeys_chained b.uniqueKeys _)).mp h
    obtain ⟨hd, hab⟩ := chained_eq_of_keyPerm hkeyPerm
    exact ⟨hd, StageArtifact.eq_of_keyPerm hab⟩
  root_ne_link a d b h := by
    have hkeyPerm := (canonicalize_eq_iff a.uniqueKeys (uniqueKeys_chained b.uniqueKeys _)).mp h
    exact absurd hkeyPerm.keys_perm
      (by decide +kernel : ¬ CaseArtifact.keys.Perm [js "previous", js "artifact"])

/-- `"0x" + sha256(text)` -/
def textDigest (sha256Hex : Str → Str) (text : Str) : Str := js "0x" ++ sha256Hex text

/-- The commitments of a case and its stages, newest first. -/
def stageCommitments [NumberText N] (sha256Hex : Str → Str) (a : CaseArtifact)
    (stages : List (StageArtifact N)) : Commitments :=
  let digest n := HashChain.digest (textDigest sha256Hex) stageLayout a (stages.drop n)
  { caseCommitment := digest 4
    actionCommitment := digest 3
    executionCommitment := digest 2
    outcomeCommitment := digest 1
    receiptCommitment := digest 0 }

end

section Stages

variable {C N : Type} [NumberText N] [Amount C N] (sha256Hex : Str → Str)
  (receipt : ClawbackReceipt C) (artifacts : Artifacts C)

def Artifacts.caseArtifact : CaseArtifact where
  caseId := receipt.caseId
  category := receipt.category
  merchantName := artifacts.input.merchantName
  accountLast4 := artifacts.input.accountIdentifierLast4

/-- The later stages, newest first. -/
def Artifacts.stages : List (StageArtifact N) :=
  [.receipt receipt.receiptId receipt.status,
    .outcome artifacts.outcome.outcomeType (Amount.finite? artifacts.outcome.claimedSavingsCents)
      (artifacts.outcome.verifiedSavingsCents.bind Amount.finite?),
    .execution artifacts.execution.executionId artifacts.execution.inputCommitment
      artifacts.execution.outputCommitment artifacts.execution.teeAttested
      artifacts.execution.providerAddress,
    .action artifacts.proposal.proposalId artifacts.proposal.exactMessage
      artifacts.approval.actionCommitment artifacts.approval.approvedAt]

/-- The five texts that are hashed when the commitments of a receipt are computed. -/
def committedTexts : List Str :=
  HashChain.texts (textDigest sha256Hex) stageLayout (artifacts.caseArtifact receipt)
    (artifacts.stages receipt)

/-- The hash function has no collision among the texts of two receipts. -/
def NoCollision (receipt' : ClawbackReceipt C) (artifacts' : Artifacts C) : Prop :=
  Set.InjOn sha256Hex {text | text ∈ committedTexts sha256Hex receipt artifacts ∨
    text ∈ committedTexts sha256Hex receipt' artifacts'}

end Stages

variable {C N : Type} [NumberText N] [Amount C N] {sha256Hex : Str → Str}
  {receipt receipt' : ClawbackReceipt C} {artifacts artifacts' : Artifacts C}

/-- The commitments depend on the receipt and the artifacts only through the stages. -/
theorem recomputedCommitments_eq :
    recomputedCommitments sha256Hex receipt artifacts =
      stageCommitments sha256Hex (artifacts.caseArtifact receipt)
        (artifacts.stages receipt) := rfl

theorem NoCollision.chain (h : NoCollision sha256Hex receipt artifacts receipt' artifacts') :
    HashChain.NoCollision (textDigest sha256Hex) stageLayout (artifacts.caseArtifact receipt)
      (artifacts.stages receipt) (artifacts'.caseArtifact receipt')
      (artifacts'.stages receipt') :=
  fun _ ht _ ht' heq => h ht ht' (List.append_cancel_left heq)

/-- Without a collision, the receipt commitment binds the artifacts of all five stages. -/
theorem committed_eq (hno : NoCollision sha256Hex receipt artifacts receipt' artifacts')
    (h : recomputedReceiptCommitment sha256Hex receipt artifacts =
      recomputedReceiptCommitment sha256Hex receipt' artifacts') :
    artifacts.caseArtifact receipt = artifacts'.caseArtifact receipt' ∧
      artifacts.stages receipt = artifacts'.stages receipt' :=
  (HashChain.digest_eq_iff hno.chain).mp h

end Clawback
