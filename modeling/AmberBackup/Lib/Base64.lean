import AmberBackup.Lib.Runes

/-! # Base64

Three bytes are four characters, and a last group of fewer is padded. The decoder takes both
alphabets, passes over what is in neither and stops at the padding. What is encoded is read back
(`decode_encode`).
-/

namespace Base64

open Utf8 (Bytes)

/-- The character of six bits. -/
def digit (bits : Nat) : Char :=
  if bits < 26 then Char.ofNat (bits + 65)
  else if bits < 52 then Char.ofNat (bits + 71)
  else if bits < 62 then Char.ofNat (bits - 4)
  else if bits = 62 then '+' else '/'

/-- The six bits of a character of either alphabet. -/
def value? (char : Char) : Option Nat :=
  let code := char.toNat
  if 65 ≤ code ∧ code ≤ 90 then some (code - 65)
  else if 97 ≤ code ∧ code ≤ 122 then some (code - 71)
  else if 48 ≤ code ∧ code ≤ 57 then some (code + 4)
  else if code = 43 ∨ code = 45 then some 62
  else if code = 47 ∨ code = 95 then some 63
  else none

/-- The six-bit groups of the bytes. -/
def sextets : Bytes → List Nat
  | [] => []
  | [a] => [a.toNat / 4, a.toNat % 4 * 16]
  | [a, b] => [a.toNat / 4, a.toNat % 4 * 16 + b.toNat / 16, b.toNat % 16 * 4]
  | a :: b :: c :: rest =>
      a.toNat / 4 :: (a.toNat % 4 * 16 + b.toNat / 16) :: (b.toNat % 16 * 4 + c.toNat / 64) ::
        c.toNat % 64 :: sextets rest

/-- The bytes of six-bit groups; bits that make up no byte are dropped. -/
def bytesOf : List Nat → Bytes
  | p :: q :: r :: s :: rest =>
      UInt8.ofNat (p * 4 + q / 16) :: UInt8.ofNat (q % 16 * 16 + r / 4) ::
        UInt8.ofNat (r % 4 * 64 + s) :: bytesOf rest
  | [p, q, r] => [UInt8.ofNat (p * 4 + q / 16), UInt8.ofNat (q % 16 * 16 + r / 4)]
  | [p, q] => [UInt8.ofNat (p * 4 + q / 16)]
  | [_] => []
  | [] => []

/-- The padding of the last group. -/
def padding (bytes : Bytes) : List Char := List.replicate ((3 - bytes.length % 3) % 3) '='

def encode (bytes : Bytes) : List Char := (sextets bytes).map digit ++ padding bytes

def decode (text : List Char) : Bytes :=
  bytesOf ((text.takeWhile fun char => char ≠ '=').filterMap value?)

theorem value?_digit {bits : Nat} (small : bits < 64) : value? (digit bits) = some bits := by
  revert bits
  decide

theorem digit_ne_padding {bits : Nat} (small : bits < 64) : digit bits ≠ '=' := by
  intro same
  have read := value?_digit small
  rw [same] at read
  cases read

theorem sextets_lt (bytes : Bytes) : ∀ bits ∈ sextets bytes, bits < 64 := by
  have byte : ∀ value : UInt8, value.toNat < 256 := fun value => value.toNat_lt
  induction bytes using sextets.induct with
  | case1 => exact fun _ member => absurd member List.not_mem_nil
  | case2 a =>
      have := byte a
      simp only [sextets, List.mem_cons, List.not_mem_nil, or_false, forall_eq_or_imp, forall_eq]
      omega
  | case3 a b =>
      have := byte a
      have := byte b
      simp only [sextets, List.mem_cons, List.not_mem_nil, or_false, forall_eq_or_imp, forall_eq]
      omega
  | case4 a b c rest ih =>
      have := byte a
      have := byte b
      have := byte c
      simp only [sextets, List.mem_cons, forall_eq_or_imp]
      exact ⟨by omega, by omega, by omega, by omega, ih⟩

theorem ofNat_toNat (byte : UInt8) {number : Nat} (same : number = byte.toNat) :
    UInt8.ofNat number = byte := by
  rw [same, UInt8.ofNat_toNat]

theorem bytesOf_sextets (bytes : Bytes) : bytesOf (sextets bytes) = bytes := by
  have byte : ∀ value : UInt8, value.toNat < 256 := fun value => value.toNat_lt
  induction bytes using sextets.induct with
  | case1 => rfl
  | case2 a =>
      unfold sextets bytesOf
      rw [ofNat_toNat a (by omega)]
  | case3 a b =>
      have := byte b
      unfold sextets bytesOf
      rw [ofNat_toNat a (by omega), ofNat_toNat b (by omega)]
  | case4 a b c rest ih =>
      have := byte b
      have := byte c
      unfold sextets bytesOf
      rw [ofNat_toNat a (by omega), ofNat_toNat b (by omega),
        ofNat_toNat c (by omega), ih]

/-- Reading stops at the padding. -/
theorem takeWhile_padded {digits : List Char} (count : Nat) (unpadded : ∀ c ∈ digits, c ≠ '=') :
    (digits ++ List.replicate count '=').takeWhile (fun c => c ≠ '=') = digits := by
  rw [List.takeWhile_append_of_pos fun c member => decide_eq_true (unpadded c member)]
  cases count with
  | zero => rw [List.replicate_zero, List.takeWhile_nil, List.append_nil]
  | succ count =>
      rw [List.replicate_succ, List.takeWhile_cons_of_neg (by decide), List.append_nil]

/-- What is encoded is read back. -/
theorem decode_encode (bytes : Bytes) : decode (encode bytes) = bytes := by
  have unpadded : ∀ c ∈ (sextets bytes).map digit, c ≠ '=' := by
    intro c member
    obtain ⟨bits, listed, rfl⟩ := List.mem_map.mp member
    exact digit_ne_padding (sextets_lt bytes bits listed)
  have read : ((sextets bytes).map digit).filterMap value? = sextets bytes := by
    rw [List.filterMap_map]
    refine (List.filterMap_congr fun bits listed => ?_).trans List.filterMap_some
    exact value?_digit (sextets_lt bytes bits listed)
  unfold decode encode padding
  rw [takeWhile_padded _ unpadded, read, bytesOf_sextets]

end Base64
