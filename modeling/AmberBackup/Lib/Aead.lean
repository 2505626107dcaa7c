import AmberBackup.Lib.Runes

/-! # Authenticated encryption

A text is sealed under a nonce and associated data into a box of ciphertext and tag. A box is
genuine for a record of sealings if it opens only as something that was sealed.
-/

open Utf8 (Bytes)

/-- Authenticated encryption with associated data, under a fixed key. -/
structure Aead where
  encrypt (nonce associated plain : Bytes) : Bytes × Bytes
  decrypt (nonce associated : Bytes) (box : Bytes × Bytes) : Option Bytes

namespace Aead

/-- What is sealed opens, and tags have their length. -/
structure Correct (aead : Aead) (tagLength : Nat) : Prop where
  opens : ∀ nonce associated plain,
    aead.decrypt nonce associated (aead.encrypt nonce associated plain) = some plain
  tag : ∀ nonce associated plain, (aead.encrypt nonce associated plain).2.length = tagLength

/-- Texts under the associated data they were sealed with. -/
abbrev Sealings := List (Bytes × Bytes)

/-- The box opens only as something that was sealed. -/
def Genuine (aead : Aead) (sealings : Sealings) (nonce : Bytes) (box : Bytes × Bytes) : Prop :=
  ∀ associated plain, aead.decrypt nonce associated box = some plain → (associated, plain) ∈ sealings

variable {aead : Aead} {sealings : Sealings} {nonce : Bytes} {box : Bytes × Bytes}

theorem Genuine.append (genuine : aead.Genuine sealings nonce box) (more : Sealings) :
    aead.Genuine (sealings ++ more) nonce box :=
  fun associated plain opened => List.mem_append_left _ (genuine associated plain opened)

end Aead
