import AmberBackup.Lib.Aead
import AmberBackup.Lib.Base64
import AmberBackup.Lib.Utf8Decoder

/-! # Encrypting secrets

A secret is stored as the Base64 of tag and ciphertext beside the Base64 of its nonce. What is
encrypted under associated data decrypts under the same to the same text (`decrypt_encrypt`).
-/

namespace AmberBackup

open Utf8 (Bytes)

/-- `aes-256-gcm` under the master key. -/
structure CryptoService where
  gcm : Aead

structure EncryptedPayload where
  /-- base64: authTag(16) + ciphertext. -/
  ciphertext : String
  /-- base64 nonce. -/
  nonce : String
  deriving DecidableEq, Repr

def utf8 (text : String) : Bytes := Utf8.encode text.toList

/-- `setAAD` is called for associated data that is neither absent nor empty. -/
def associated (aad : Option String) : Bytes := (aad.map utf8).getD []

def toBase64 (bytes : Bytes) : String := String.ofList (Base64.encode bytes)

def ofBase64 (text : String) : Bytes := Base64.decode text.toList

def authTagLength : Nat := 16

/-- Ciphertext and tag. -/
def EncryptedPayload.box (payload : EncryptedPayload) : Bytes × Bytes :=
  let raw := ofBase64 payload.ciphertext
  (raw.drop authTagLength, raw.take authTagLength)

namespace CryptoService

variable (crypto : CryptoService)

def encrypt (iv : Bytes) (plaintext : String) (aad : Option String) : EncryptedPayload :=
  let (enc, authTag) := crypto.gcm.encrypt iv (associated aad) (utf8 plaintext)
  { ciphertext := toBase64 (authTag ++ enc), nonce := toBase64 iv }

/-- `none` when the tag does not authenticate the ciphertext. -/
def decrypt (payload : EncryptedPayload) (aad : Option String) : Option String :=
  (crypto.gcm.decrypt (ofBase64 payload.nonce) (associated aad) payload.box).map fun plain =>
    String.ofList (Utf8.decode plain)

end CryptoService

theorem ofBase64_toBase64 (bytes : Bytes) : ofBase64 (toBase64 bytes) = bytes := by
  unfold ofBase64 toBase64
  rw [String.toList_ofList, Base64.decode_encode]

theorem decode_utf8 (text : String) : String.ofList (Utf8.decode (utf8 text)) = text := by
  unfold utf8
  rw [Utf8.decode_encode, String.ofList_toList]

theorem utf8_injective {text other : String} (same : utf8 text = utf8 other) : text = other := by
  rw [← decode_utf8 text, same, decode_utf8]

section Encrypted

variable {crypto : CryptoService} {iv : Bytes} {plaintext : String} {aad : Option String}

theorem nonce_encrypt : ofBase64 (crypto.encrypt iv plaintext aad).nonce = iv :=
  ofBase64_toBase64 iv

theorem box_encrypt (correct : crypto.gcm.Correct authTagLength) :
    (crypto.encrypt iv plaintext aad).box =
      crypto.gcm.encrypt iv (associated aad) (utf8 plaintext) := by
  have tag := correct.tag iv (associated aad) (utf8 plaintext)
  change ((ofBase64 (toBase64 (_ ++ _))).drop authTagLength,
    (ofBase64 (toBase64 (_ ++ _))).take authTagLength) = _
  rw [ofBase64_toBase64, List.drop_left' tag, List.take_left' tag]

/-- What is encrypted decrypts under the same associated data. -/
theorem decrypt_encrypt (correct : crypto.gcm.Correct authTagLength) :
    crypto.decrypt (crypto.encrypt iv plaintext aad) aad = some plaintext := by
  unfold CryptoService.decrypt
  rw [nonce_encrypt, box_encrypt correct, correct.opens, Option.map_some, decode_utf8]

end Encrypted

end AmberBackup
