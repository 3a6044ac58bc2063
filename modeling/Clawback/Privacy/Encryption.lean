import Clawback.Js.Runtime
import Clawback.Js.Codec
import Clawback.Js.WellFormed

/-!
# Encryption at rest

AES-256-GCM over hexadecimal text. The cipher itself is a parameter: the key stream it
combines the data with, and the tag it computes. Of Node the model has what `encryptAtRest`
and `decryptAtRest` meet: keys and payloads are read as hexadecimal text up to the first
invalid pair, plaintexts are encoded in UTF-8, an initialisation vector has at most 128 bytes,
a tag may have 4, 8 or 12 to 16, and only the bytes of the tag that are supplied are compared.

* `decryptAtRest_of_encryptAtRest`: decryption undoes encryption.
-/

namespace Clawback

open Js Codec

/-- AES-256-GCM: under a key and an initialisation vector, the data combined with the key
stream, and the sixteen bytes of the tag of a ciphertext. -/
structure Gcm where
  crypt : Bytes → Bytes → Bytes → Bytes
  tag : Bytes → Bytes → Bytes → Bytes

structure EncryptedPayload where
  iv : Str
  authTag : Str
  ciphertext : Str
deriving DecidableEq, Inhabited

def EncryptedPayload.keys : List Str := ["iv", "authTag", "ciphertext"].map js

theorem EncryptedPayload.keys_nodup : EncryptedPayload.keys.Nodup := by decide +kernel

instance : Codec Int EncryptedPayload where
  toJson a := record EncryptedPayload.keys [toJson a.iv, toJson a.authTag, toJson a.ciphertext]
  ofJson v :=
    match fields EncryptedPayload.keys v with
    | some [v1, v2, v3] => EncryptedPayload.mk <$> ofJson v1 <*> ofJson v2 <*> ofJson v3
    | _ => none
  ofJson_toJson a := by
    rw [fields_record EncryptedPayload.keys_nodup rfl]
    simp
  uniqueKeys_toJson a := uniqueKeys_record EncryptedPayload.keys_nodup rfl (by simp)
  toJson_ne_null _ := by simp [record]

def loadKey (keyHex : Str) : Except JsError Bytes :=
  if keyHex = [] then
    .error (.ofMessage (js "CLAWBACK_ENCRYPTION_KEY is not set. Generate one with: " ++
      js "node -e \"console.log(require('crypto').randomBytes(32).toString('hex'))\""))
  else if (ofHexText keyHex).length ≠ 32 then
    .error (.ofMessage
      (js "CLAWBACK_ENCRYPTION_KEY must be a 32-byte hex string (64 hex characters)."))
  else .ok (ofHexText keyHex)

/-- How Node names a value in the message of a `TypeError`. -/
def receivedText : Json Int → Str
  | .null => js "null"
  | .bool b => js "type boolean (" ++ (if b then js "true" else js "false") ++ js ")"
  | .num n => js "type number (" ++ intText n ++ js ")"
  | .str text => js "type string ('" ++ text ++ js "')"
  | .arr _ => js "an instance of Array"
  | .obj _ => js "an instance of Object"

/-- `cipher.update(plaintext, "utf8")`: what is not a string is refused. -/
def plaintextBytes (plaintext : Json Int) : Except JsError Bytes :=
  match plaintext with
  | .str text => .ok (utf8Encode text)
  | v => .error (.error (js "TypeError")
      (js "The \"data\" argument must be of type string or an instance of Buffer, TypedArray, or DataView. Received " ++
        receivedText v))

/-- The initialisation vector is drawn at random; here it is given. -/
def encryptAtRest (gcm : Gcm) (plaintext : Json Int) (keyHex : Str) (iv : Bytes) :
    Except JsError EncryptedPayload := do
  let key ← loadKey keyHex
  let data ← plaintextBytes plaintext
  let ciphertext := gcm.crypt key iv data
  return { iv := hexText iv
           authTag := hexText (gcm.tag key iv ciphertext)
           ciphertext := hexText ciphertext }

/-- Only strings are encrypted. -/
theorem str_of_encryptAtRest {gcm : Gcm} {plaintext : Json Int} {keyHex : Str} {iv : Bytes}
    {payload : EncryptedPayload} (h : encryptAtRest gcm plaintext keyHex iv = .ok payload) :
    ∃ text, plaintext = .str text := by
  obtain ⟨key, -, h⟩ := bind_eq_ok.mp h
  obtain ⟨data, hdata, -⟩ := bind_eq_ok.mp h
  cases plaintext with
  | str text => exact ⟨text, rfl⟩
  | null | bool _ | num _ | arr _ | obj _ => cases hdata

/-- `decipher.setAuthTag(tag)` -/
def checkTagLength (tag : Bytes) : Except JsError Unit :=
  if tag.length = 4 ∨ tag.length = 8 ∨ (12 ≤ tag.length ∧ tag.length ≤ 16) then .ok ()
  else .error (.error (js "TypeError")
    (js "Invalid authentication tag length: " ++ decimalText tag.length))

def decryptAtRest (gcm : Gcm) (payload : EncryptedPayload) (keyHex : Str) :
    Except JsError Str := do
  let key ← loadKey keyHex
  let iv := ofHexText payload.iv
  if iv = [] ∨ 128 < iv.length then
    throw (.error (js "TypeError") (js "Invalid initialization vector"))
  let tag := ofHexText payload.authTag
  checkTagLength tag
  let ciphertext := ofHexText payload.ciphertext
  if (gcm.tag key iv ciphertext).take tag.length = tag then
    return utf8Decode (gcm.crypt key iv ciphertext)
  else
    throw (.ofMessage (js "Unsupported state or unable to authenticate data"))

/-- What is relied on of the cipher: combining with the key stream twice gives the data
back, and a tag has sixteen bytes. -/
structure Gcm.Lawful (gcm : Gcm) : Prop where
  crypt_crypt : ∀ key iv data, gcm.crypt key iv (gcm.crypt key iv data) = data
  tag_length : ∀ key iv ciphertext, (gcm.tag key iv ciphertext).length = 16

/-- Decryption undoes encryption, but for the surrogates that stand alone. -/
theorem decryptAtRest_toWellFormed {gcm : Gcm} (hgcm : gcm.Lawful) {text keyHex : Str}
    {iv : Bytes} (hiv : iv.length = 12) {payload : EncryptedPayload}
    (h : encryptAtRest gcm (.str text) keyHex iv = .ok payload) :
    decryptAtRest gcm payload keyHex = .ok (toWellFormed text) := by
  obtain ⟨key, hkey, h⟩ := bind_eq_ok.mp h
  obtain ⟨data, hdata, h⟩ := bind_eq_ok.mp h
  cases hdata
  cases h
  have hlength := hgcm.tag_length key iv (gcm.crypt key iv (utf8Encode text))
  have htag : checkTagLength (gcm.tag key iv (gcm.crypt key iv (utf8Encode text))) = .ok () :=
    if_pos (.inr (.inr ⟨by omega, by omega⟩))
  refine bind_eq_ok.mpr ⟨key, hkey, ?_⟩
  have husable : ¬(iv = [] ∨ 128 < iv.length) := by
    rintro (rfl | hlong)
    · cases hiv
    · omega
  simp only [ofHexText_hexText]
  rw [if_neg husable]
  refine bind_eq_ok.mpr ⟨(), htag, ?_⟩
  rw [List.take_length, if_pos rfl, hgcm.crypt_crypt, utf8Decode_utf8Encode_eq]
  rfl

/-- Decryption undoes encryption of a well-formed text. -/
theorem decryptAtRest_of_encryptAtRest {gcm : Gcm} (hgcm : gcm.Lawful) {text keyHex : Str}
    (htext : WellFormed text) {iv : Bytes} (hiv : iv.length = 12) {payload : EncryptedPayload}
    (h : encryptAtRest gcm (.str text) keyHex iv = .ok payload) :
    decryptAtRest gcm payload keyHex = .ok text := by
  rw [decryptAtRest_toWellFormed hgcm hiv h, toWellFormed_eq htext]

/-! ## A cipher from tables -/

def xorBytes : Bytes → Bytes → Bytes
  | b :: data, k :: stream => (b ^^^ k) :: xorBytes data stream
  | data, _ => data

theorem xorBytes_xorBytes (data stream : Bytes) :
    xorBytes (xorBytes data stream) stream = data := by
  induction data generalizing stream with
  | nil => cases stream <;> rfl
  | cons b data ih =>
    cases stream with
    | nil => rfl
    | cons k stream =>
      rw [xorBytes, xorBytes, ih, UInt8.xor_assoc, UInt8.xor_self, UInt8.xor_zero]

/-- The cipher with the given key streams and tags. -/
def tableGcm (keystream tag : Bytes → Bytes → Bytes) : Gcm where
  crypt key iv data := xorBytes data (keystream key iv)
  tag key iv _ := tag key iv

theorem tableGcm_lawful {keystream tag : Bytes → Bytes → Bytes}
    (htag : ∀ key iv, (tag key iv).length = 16) : (tableGcm keystream tag).Lawful where
  crypt_crypt _ _ _ := xorBytes_xorBytes _ _
  tag_length _ _ _ := htag _ _

end Clawback
