import Clawback.Crypto.Sha256
import Clawback.Shared.Types

/-!
# Deterministic commitments

A commitment is the SHA-256 of the canonical text of an artifact; `chain` commits to an
artifact together with the commitment before it. The hash function is a parameter,
`sha256Hex`: the hexadecimal digest of a text in UTF-8.

* `canonicalize_eq`: the canonical text is the JSON text of the artifact with the members
  of every object sorted by key.
* `canonicalize_eq_iff`: two artifacts have one canonical text exactly when they are equal
  up to the order of keys.
* `commit_faithful`: so have their commitments, if the hash function has no collision on
  the two texts.
-/

namespace Clawback

open Js

section Canonical

variable {N : Type} [NumberText N]

mutual

/-- The canonical text of a value: the members of every object sorted by key. -/
def canonicalize : Json N → Str
  | .arr xs => js "[" ++ join (js ",") (canonicalizeElements xs) ++ js "]"
  | .obj members =>
    js "\x7b" ++ join (js ",") ((Json.sortMembers (canonicalizeMembers members)).map
      fun entry => quote entry.1 ++ js ":" ++ entry.2) ++ js "\x7d"
  | v => Json.stringify v

def canonicalizeElements : List (Json N) → List Str
  | [] => []
  | v :: vs => canonicalize v :: canonicalizeElements vs

def canonicalizeMembers : List (Str × Json N) → List (Str × Str)
  | [] => []
  | (key, v) :: rest => (key, canonicalize v) :: canonicalizeMembers rest

end

/-! ## The canonical text as a JSON text -/

mutual

/-- The canonical text is the JSON text of the value with sorted keys. -/
theorem canonicalize_eq : ∀ v : Json N, canonicalize v = Json.stringify v.sortKeys
  | .null => rfl
  | .bool _ => rfl
  | .num _ => rfl
  | .str _ => rfl
  | .arr xs => by
    rw [canonicalize, Json.sortKeys, Json.stringify_arr, canonicalizeElements_eq]
  | .obj members => by
    rw [canonicalize, Json.sortKeys, Json.stringify_obj, canonicalizeMembers_eq, Json.sortMembers_map,
      List.map_map]
    rfl

theorem canonicalizeElements_eq : ∀ vs : List (Json N),
    canonicalizeElements vs = (Json.sortKeysList vs).map Json.stringify
  | [] => rfl
  | v :: vs => by
    rw [canonicalizeElements, Json.sortKeysList, List.map_cons, canonicalize_eq v,
      canonicalizeElements_eq vs]

theorem canonicalizeMembers_eq : ∀ members : List (Str × Json N),
    canonicalizeMembers members =
      (Json.sortKeysMembers members).map fun m => (m.1, Json.stringify m.2)
  | [] => rfl
  | (key, v) :: rest => by
    rw [canonicalizeMembers, Json.sortKeysMembers, List.map_cons, canonicalize_eq v,
      canonicalizeMembers_eq rest]

end

/-- Two values have one canonical text exactly when they are equal up to the order of
keys. -/
theorem canonicalize_eq_iff {v w : Json N} (hv : v.UniqueKeys) (hw : w.UniqueKeys) :
    canonicalize v = canonicalize w ↔ Json.KeyPerm v w := by
  rw [canonicalize_eq, canonicalize_eq, ← Json.sortKeys_eq_iff hv]
  exact ⟨Json.stringify_injective (Json.uniqueKeys_sortKeys v hv) (Json.uniqueKeys_sortKeys w hw),
    fun h => by rw [h]⟩

end Canonical

/-! ## The first key of an object -/

/-- The key that comes first in the canonical text of an object with these keys. -/
def firstKey (keys : List Str) : Option Str :=
  (Json.sortMembers (keys.map fun key => (key, ()))).head?.map Prod.fst

theorem firstKey_eq {β : Type} (members : List (Str × β)) :
    (Json.sortMembers members).head?.map Prod.fst = firstKey (members.map Prod.fst) := by
  have hkeys : (members.map Prod.fst).map (fun key => (key, ())) =
      members.map fun m => (m.1, ()) := by
    rw [List.map_map]
    rfl
  rw [firstKey, hkeys, Json.sortMembers_map (fun _ => ()), List.head?_map, Option.map_map]
  rfl

/-- The members of an object, as they stand in a canonical text. -/
def entriesText (entries : List (Str × Str)) : Str :=
  join (js ",") (entries.map fun entry => quote entry.1 ++ js ":" ++ entry.2) ++ js "\x7d"

theorem entriesText_cons (entry : Str × Str) (entries : List (Str × Str)) :
    ∃ rest, entriesText (entry :: entries) = quote entry.1 ++ rest := by
  cases entries with
  | nil => exact ⟨js ":" ++ entry.2 ++ js "\x7d", by simp [entriesText]⟩
  | cons entry' entries =>
    refine ⟨js ":" ++ entry.2 ++ js "," ++ entriesText (entry' :: entries), ?_⟩
    simp [entriesText]

theorem head_eq_of_entriesText {entries entries' : List (Str × Str)}
    (h : entriesText entries = entriesText entries') :
    entries.head?.map Prod.fst = entries'.head?.map Prod.fst := by
  -- a closing bracket is no quotation mark
  have hnil : ∀ (k rest : Str), entriesText [] ≠ quote k ++ rest := fun _ _ heq =>
    absurd (List.cons.inj heq).1 (by decide)
  cases entries with
  | nil =>
    cases entries' with
    | nil => rfl
    | cons entry' entries' =>
      obtain ⟨rest, hrest⟩ := entriesText_cons entry' entries'
      exact absurd (h.trans hrest) (hnil _ _)
  | cons entry entries =>
    obtain ⟨rest, hrest⟩ := entriesText_cons entry entries
    cases entries' with
    | nil => exact absurd (h.symm.trans hrest) (hnil _ _)
    | cons entry' entries' =>
      obtain ⟨rest', hrest'⟩ := entriesText_cons entry' entries'
      rw [hrest, hrest'] at h
      rw [List.head?_cons, List.head?_cons, Option.map_some, Option.map_some,
        (quote_append_inj h).1]

/-- One text has one first key, whatever the numbers of the values are. -/
theorem firstKey_eq_of_canonicalize {M N : Type} [NumberText M] [NumberText N]
    {members : List (Str × Json M)} {members' : List (Str × Json N)}
    (h : canonicalize (.obj members) = canonicalize (.obj members')) :
    firstKey (members.map Prod.fst) = firstKey (members'.map Prod.fst) := by
  have hkeys : ∀ {L : Type} [NumberText L] (ms : List (Str × Json L)),
      (canonicalizeMembers ms).map Prod.fst = ms.map Prod.fst := by
    intro L _ ms
    rw [canonicalizeMembers_eq, List.map_map]
    exact Json.keys_sortKeysMembers ms
  rw [canonicalize, canonicalize, List.append_assoc, List.append_assoc] at h
  have hhead := head_eq_of_entriesText (List.append_cancel_left h)
  rwa [firstKey_eq, firstKey_eq, hkeys, hkeys] at hhead

/-! ## Commitments -/

section Commit

variable {N : Type} [NumberText N] (sha256Hex : Str → Str)

def commit (artifact : Json N) : Str := js "0x" ++ sha256Hex (canonicalize artifact)

theorem commit_ne_nil (artifact : Json N) : commit sha256Hex artifact ≠ [] := by
  rw [commit]
  exact List.append_ne_nil_of_left_ne_nil (by decide) _

def verifyCommitment (artifact : Json N) (expectedCommitment : Str) : Bool :=
  commit sha256Hex artifact == expectedCommitment

/-- The artifact `chain` commits to. -/
def chained (previousCommitment : Option Str) (artifact : Json N) : Json N :=
  .obj [(js "previous", .ofOption .str previousCommitment), (js "artifact", artifact)]

def chain (previousCommitment : Option Str) (artifact : Json N) : Str :=
  commit sha256Hex (chained previousCommitment artifact)

end Commit

/-- The canonical encoding is faithful, and so is a commitment if the hash function has no
collision on the two texts. -/
theorem commit_faithful {N : Type} [NumberText N] (sha256Hex : Str → Str) (v w : Value N) :
    (canonicalize v.json = canonicalize w.json ↔ Json.KeyPerm v.json w.json) ∧
    (Set.InjOn sha256Hex {canonicalize v.json, canonicalize w.json} →
      (commit sha256Hex v.json = commit sha256Hex w.json ↔ Json.KeyPerm v.json w.json)) := by
  have htext := canonicalize_eq_iff v.uniqueKeys w.uniqueKeys
  refine ⟨htext, fun hinj => ?_⟩
  rw [← htext]
  constructor
  · intro h
    exact hinj (Or.inl rfl) (Or.inr rfl) (List.append_cancel_left h)
  · intro h
    rw [commit, commit, h]

/-- `{ b: n, a: [null] }` -/
def amountOf (n : Int) : Value Int :=
  ⟨.obj [(js "b", .num n), (js "a", .arr [.null])],
    (by decide : [js "b", js "a"].Nodup), trivial, ⟨trivial, trivial⟩, trivial⟩

theorem commit_faithful_amountOf :
    commit Sha256.hex (amountOf 10).json = commit Sha256.hex (amountOf 100).json ↔
      Json.KeyPerm (amountOf 10).json (amountOf 100).json :=
  (commit_faithful Sha256.hex (amountOf 10) (amountOf 100)).2
    (Set.injOn_pair.mpr (by decide +kernel))

end Clawback
