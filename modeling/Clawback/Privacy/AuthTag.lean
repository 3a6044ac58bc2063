import Clawback.Privacy.Encryption

/-!
# Authentication tags

`decryptAtRest` never asks how long the tag is that it was given. Node compares the bytes it
has, if there are 4, 8 or 12 to 16 of them.

* `decryptAtRest_eq_ok_iff`: which payloads are decrypted, and to what.
* `fails_closed_iff`: which of them carry the whole tag.
-/

namespace Clawback

open Js

variable {gcm : Gcm} {payload : EncryptedPayload} {keyHex : Str}

/-- The tag of the payload's data under a key. -/
def EncryptedPayload.fullTag (payload : EncryptedPayload) (gcm : Gcm) (key : Bytes) : Bytes :=
  gcm.tag key (ofHexText payload.iv) (ofHexText payload.ciphertext)

/-- What is decrypted carries the whole tag. -/
def FailsClosed (gcm : Gcm) (payload : EncryptedPayload) (keyHex : Str) : Prop :=
  ∀ text, decryptAtRest gcm payload keyHex = .ok text →
    ∃ key, loadKey keyHex = .ok key ∧ ofHexText payload.authTag = payload.fullTag gcm key ∧
      (ofHexText payload.authTag).length = 16

/-- The payload carries only a beginning of its tag, as long as a tag may be. -/
def Truncated (gcm : Gcm) (payload : EncryptedPayload) (keyHex : Str) : Prop :=
  ∃ key, loadKey keyHex = .ok key ∧ ofHexText payload.iv ≠ [] ∧
    (ofHexText payload.iv).length ≤ 128 ∧ ofHexText payload.authTag <+: payload.fullTag gcm key ∧
    (ofHexText payload.authTag).length ∈ [4, 8, 12, 13, 14, 15]

theorem checkTagLength_eq_ok_iff {tag : Bytes} :
    checkTagLength tag = .ok () ↔ tag.length ∈ [4, 8, 12, 13, 14, 15, 16] := by
  have hlengths : (tag.length = 4 ∨ tag.length = 8 ∨ (12 ≤ tag.length ∧ tag.length ≤ 16)) ↔
      tag.length ∈ [4, 8, 12, 13, 14, 15, 16] := by
    simp only [List.mem_cons, List.not_mem_nil, or_false]
    omega
  rw [checkTagLength, ← hlengths]
  split
  · rename_i h
    exact ⟨fun _ => h, fun _ => rfl⟩
  · rename_i h
    exact ⟨fun herror => (nomatch herror), fun h' => absurd h' h⟩

/-- A payload is decrypted when its key and its initialisation vector can be used and its tag
begins the tag of its data. -/
theorem decryptAtRest_eq_ok_iff {text : Str} : decryptAtRest gcm payload keyHex = .ok text ↔
    ∃ key, loadKey keyHex = .ok key ∧ ofHexText payload.iv ≠ [] ∧
      (ofHexText payload.iv).length ≤ 128 ∧
      (ofHexText payload.authTag).length ∈ [4, 8, 12, 13, 14, 15, 16] ∧
      ofHexText payload.authTag <+: payload.fullTag gcm key ∧
      text = utf8Decode (gcm.crypt key (ofHexText payload.iv) (ofHexText payload.ciphertext)) := by
  constructor
  · intro h
    obtain ⟨key, hkey, h⟩ := bind_eq_ok.mp h
    refine ⟨key, hkey, ?_⟩
    by_cases hiv : ofHexText payload.iv = [] ∨ 128 < (ofHexText payload.iv).length
    · simp only [if_pos hiv] at h
      cases h
    · simp only [if_neg hiv] at h
      obtain ⟨hne, hshort⟩ := not_or.mp hiv
      obtain ⟨_, hlength, h⟩ := bind_eq_ok.mp h
      split at h
      · rename_i htag
        have hprefix : ofHexText payload.authTag <+: payload.fullTag gcm key := by
          rw [← htag]
          exact List.take_prefix _ _
        cases h
        exact ⟨hne, not_lt.mp hshort, checkTagLength_eq_ok_iff.mp hlength, hprefix, rfl⟩
      · cases h
  · rintro ⟨key, hkey, hne, hshort, hlength, hprefix, rfl⟩
    have hiv : ¬(ofHexText payload.iv = [] ∨ 128 < (ofHexText payload.iv).length) :=
      not_or.mpr ⟨hne, not_lt.mpr hshort⟩
    have htag : (payload.fullTag gcm key).take (ofHexText payload.authTag).length =
        ofHexText payload.authTag := (List.prefix_iff_eq_take.mp hprefix).symm
    refine bind_eq_ok.mpr ⟨key, hkey, ?_⟩
    simp only [if_neg hiv]
    refine bind_eq_ok.mpr ⟨(), checkTagLength_eq_ok_iff.mpr hlength, ?_⟩
    exact if_pos htag

/-- Decryption fails closed exactly on the payloads that do not carry a beginning of their
tag. -/
theorem fails_closed_iff (hgcm : gcm.Lawful) (payload : EncryptedPayload) (keyHex : Str) :
    FailsClosed gcm payload keyHex ↔ ¬Truncated gcm payload keyHex := by
  have hfull : ∀ key, (payload.fullTag gcm key).length = 16 := fun key => hgcm.tag_length _ _ _
  constructor
  · rintro hclosed ⟨key, hkey, hiv, hshort, hprefix, hlength⟩
    have hdecrypts := decryptAtRest_eq_ok_iff.mpr ⟨key, hkey, hiv, hshort,
      List.mem_append_left [16] hlength, hprefix, rfl⟩
    obtain ⟨key', -, -, hsixteen⟩ := hclosed _ hdecrypts
    rw [hsixteen] at hlength
    revert hlength
    decide
  · intro hwhole text h
    obtain ⟨key, hkey, hiv, hiv', hlength, hprefix, -⟩ := decryptAtRest_eq_ok_iff.mp h
    have hsixteen : (ofHexText payload.authTag).length = 16 := by
      have hcases : (ofHexText payload.authTag).length ∈ [4, 8, 12, 13, 14, 15] ++ [16] := hlength
      rcases List.mem_append.mp hcases with hshort | hlong
      · exact absurd ⟨key, hkey, hiv, hiv', hprefix, hshort⟩ hwhole
      · exact List.mem_singleton.mp hlong
    exact ⟨key, hkey, hprefix.eq_of_length (hsixteen.trans (hfull key).symm), hsixteen⟩

/-- AES-256-GCM under the key and the initialisation vector of zeros, on sixteen bytes. -/
def zeroGcm : Gcm := tableGcm
  (fun _ _ => ofHexText (js "cea7403d4d606b6e074ec5d3baf39d18"))
  fun _ _ => ofHexText (js "d0d1c8a799996bf0265b98b5d48ab919")

theorem zeroGcm_lawful : zeroGcm.Lawful := tableGcm_lawful fun _ _ => by rfl

def zeroKey : Str := List.replicate 64 (unit '0')

/-- Four bytes of the tag of sixteen zeros. -/
def truncatedPayload : EncryptedPayload where
  iv := js "000000000000000000000000"
  authTag := js "d0d1c8a7"
  ciphertext := js "cea7403d4d606b6e074ec5d3baf39d18"

theorem fails_closed_iff_zero :
    FailsClosed zeroGcm truncatedPayload zeroKey ↔ ¬Truncated zeroGcm truncatedPayload zeroKey :=
  fails_closed_iff zeroGcm_lawful truncatedPayload zeroKey

theorem truncated_decrypted :
    decryptAtRest zeroGcm truncatedPayload zeroKey = .ok (List.replicate 16 0) ∧
      ¬FailsClosed zeroGcm truncatedPayload zeroKey := by
  have hdecrypts : decryptAtRest zeroGcm truncatedPayload zeroKey =
      .ok (List.replicate 16 0) := by rfl
  refine ⟨hdecrypts, fun hclosed => ?_⟩
  obtain ⟨-, -, -, hlength⟩ := hclosed _ hdecrypts
  revert hlength
  decide

end Clawback
