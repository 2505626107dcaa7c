import Mathlib.Data.List.Basic
import Mathlib.Tactic.Common

/-! # Characters of a byte string

A byte string is read as UTF-8; a byte that begins no character is read as U+FFFD. A byte below
`0x80` is a character of its own wherever it stands (`runes_append_ascii`), so changing a string
character by character leaves its structure of ASCII bytes (`toLower_append_ascii`).
-/

namespace Utf8

abbrev Bytes := List UInt8

/-- The character that the bytes begin with. -/
def firstRune (bytes : Bytes) : Option Char := bytes.toByteArray.utf8DecodeChar? 0

def encode (chars : List Char) : Bytes := chars.flatMap String.utf8EncodeChar

/-- The characters after the first `skipped` bytes. -/
def runesAfter : Nat → Bytes → List Char
  | _, [] => []
  | skipped + 1, _ :: rest => runesAfter skipped rest
  | 0, byte :: rest =>
      match firstRune (byte :: rest) with
      | some char => char :: runesAfter (char.utf8Size - 1) rest
      | none => '\uFFFD' :: runesAfter 0 rest

def runes (bytes : Bytes) : List Char := runesAfter 0 bytes

def isAscii (byte : UInt8) : Bool := byte < 0x80

/-- The character of an ASCII byte. -/
def asciiChar (byte : UInt8) : Char := Char.ofNat byte.toNat

section Reading

variable {char : Char} {byte : UInt8} {bytes rest : Bytes}

theorem firstRune_encode (char : Char) (rest : Bytes) :
    firstRune (String.utf8EncodeChar char ++ rest) = some char := by
  unfold firstRune
  rw [List.toByteArray_append]
  exact ByteArray.utf8DecodeChar?_utf8EncodeChar_append

theorem exists_of_firstRune (found : firstRune bytes = some char) :
    ∃ rest, bytes = String.utf8EncodeChar char ++ rest := by
  obtain ⟨after, split⟩ := ByteArray.exists_of_utf8DecodeChar?_eq_some found
  refine ⟨after.data.toList, ?_⟩
  have lists := congrArg (fun array => array.data.toList) split
  rw [List.toList_data_toByteArray] at lists
  simpa using lists

theorem runesAfter_drop (skipped : Nat) (bytes : Bytes) :
    runesAfter skipped bytes = runes (bytes.drop skipped) := by
  induction skipped generalizing bytes with
  | zero => rfl
  | succ skipped ih =>
      cases bytes with
      | nil => rfl
      | cons byte rest => exact ih rest

theorem runes_encode_append (char : Char) (rest : Bytes) :
    runes (String.utf8EncodeChar char ++ rest) = char :: runes rest := by
  obtain ⟨byte, others, split⟩ := List.exists_cons_of_ne_nil (String.utf8EncodeChar_ne_nil (c := char))
  have size : char.utf8Size = others.length + 1 := by
    rw [← String.length_utf8EncodeChar, split, List.length_cons]
  have found := firstRune_encode char rest
  rw [split, List.cons_append] at found ⊢
  unfold runes
  rw [runesAfter, found]
  simp only
  rw [runesAfter_drop, size, Nat.add_sub_cancel, List.drop_left]
  rfl

theorem runes_encode (chars : List Char) : runes (encode chars) = chars := by
  induction chars with
  | nil => rfl
  | cons char chars ih =>
      have shape : encode (char :: chars) = String.utf8EncodeChar char ++ encode chars :=
        List.flatMap_cons
      rw [shape, runes_encode_append, ih]

theorem runes_of_none (absent : firstRune (byte :: rest) = none) :
    runes (byte :: rest) = '\uFFFD' :: runes rest := by
  unfold runes
  rw [runesAfter, absent]

theorem encode_append (first second : List Char) :
    encode (first ++ second) = encode first ++ encode second := List.flatMap_append

/-! ## ASCII bytes -/

theorem asciiChar_toNat (ascii : isAscii byte = true) : (asciiChar byte).toNat = byte.toNat := by
  have small : byte.toNat < 128 := by simpa [isAscii, UInt8.lt_iff_toNat_lt] using ascii
  have valid : byte.toNat.isValidChar := .inl (by omega)
  unfold asciiChar Char.ofNat
  rw [dif_pos valid]
  rfl

theorem encode_ascii (small : char.toNat < 0x80) :
    String.utf8EncodeChar char = [UInt8.ofNat char.toNat] := by
  unfold String.utf8EncodeChar
  exact if_pos (Nat.le_of_lt_succ small)

theorem encode_asciiChar (ascii : isAscii byte = true) :
    String.utf8EncodeChar (asciiChar byte) = [byte] := by
  have number := asciiChar_toNat ascii
  have small : byte.toNat < 128 := by simpa [isAscii, UInt8.lt_iff_toNat_lt] using ascii
  rw [encode_ascii (by omega), number, UInt8.ofNat_toNat]

/-- Other characters have no ASCII byte. -/
theorem not_ascii_of_mem (large : 0x80 ≤ char.toNat) (member : byte ∈ String.utf8EncodeChar char) :
    isAscii byte = false := by
  have above : ∀ number, 0x80 ≤ number → number < 0x100 → isAscii (UInt8.ofNat number) = false := by
    intro number low high
    simp only [isAscii, decide_eq_false_iff_not, UInt8.lt_iff_toNat_lt, UInt8.toNat_ofNat']
    rw [Nat.mod_eq_of_lt high]
    exact Nat.not_lt.mpr low
  have value : char.val.toNat = char.toNat := rfl
  unfold String.utf8EncodeChar at member
  simp only [value] at member
  rw [if_neg (by omega)] at member
  split at member
  · simp only [List.mem_cons, List.not_mem_nil, or_false] at member
    rcases member with rfl | rfl <;> exact above _ (by omega) (by omega)
  · split at member
    · simp only [List.mem_cons, List.not_mem_nil, or_false] at member
      rcases member with rfl | rfl | rfl <;> exact above _ (by omega) (by omega)
    · simp only [List.mem_cons, List.not_mem_nil, or_false] at member
      rcases member with rfl | rfl | rfl | rfl <;> exact above _ (by omega) (by omega)

theorem runes_cons_ascii (ascii : isAscii byte = true) (rest : Bytes) :
    runes (byte :: rest) = asciiChar byte :: runes rest := by
  have encoded := runes_encode_append (asciiChar byte) rest
  rwa [encode_asciiChar ascii] at encoded

/-- The beginning of a text in front of an ASCII byte is read as if it ended there. -/
theorem firstRune_append_ascii (ascii : isAscii byte = true) (filled : bytes ≠ []) :
    firstRune (bytes ++ byte :: rest) = firstRune bytes := by
  cases found : firstRune bytes with
  | some char =>
      obtain ⟨after, rfl⟩ := exists_of_firstRune found
      rw [List.append_assoc]
      exact firstRune_encode char _
  | none =>
      by_contra other
      obtain ⟨char, read⟩ := Option.ne_none_iff_exists'.mp other
      obtain ⟨after, split⟩ := exists_of_firstRune read
      rcases List.append_eq_append_iff.mp split with ⟨middle, inside, after⟩ | ⟨middle, inside, -⟩
      · cases middle with
        | nil =>
            rw [List.append_nil] at inside
            have again := firstRune_encode char []
            rw [List.append_nil, inside, found] at again
            cases again
        | cons next others =>
            -- the character would have the ASCII byte after another one
            rw [List.cons_append] at after
            obtain ⟨rfl, -⟩ := List.cons.inj after
            have member : byte ∈ String.utf8EncodeChar char := by
              rw [inside]
              exact List.mem_append_right _ List.mem_cons_self
            have small : char.toNat < 0x80 := by
              by_contra large
              rw [not_ascii_of_mem (Nat.not_lt.mp large) member] at ascii
              cases ascii
            have single := congrArg List.length inside
            rw [encode_ascii small, List.length_append] at single
            have := List.length_pos_iff.mpr filled
            simp at single
            omega
      · rw [inside, firstRune_encode] at found
        cases found

/-- A byte string is made of characters and of bytes that begin none. -/
@[elab_as_elim]
theorem rune_induction {motive : Bytes → Prop} (nil : motive [])
    (rune : ∀ char rest, motive rest → motive (String.utf8EncodeChar char ++ rest))
    (stray : ∀ byte rest, firstRune (byte :: rest) = none → motive rest → motive (byte :: rest))
    (bytes : Bytes) : motive bytes := by
  induction size : bytes.length using Nat.strongRecOn generalizing bytes with
  | ind length ih =>
      subst size
      cases bytes with
      | nil => exact nil
      | cons head others =>
          cases found : firstRune (head :: others) with
          | none => exact stray head others found (ih _ (by simp) others rfl)
          | some char =>
              obtain ⟨after, split⟩ := exists_of_firstRune found
              have shorter : after.length < (head :: others).length := by
                rw [split, List.length_append, String.length_utf8EncodeChar]
                have := char.utf8Size_pos
                omega
              rw [split]
              exact rune char after (ih _ shorter after rfl)

/-- An ASCII byte separates what stands before it from what stands after it. -/
theorem runes_append_ascii (ascii : isAscii byte = true) (bytes rest : Bytes) :
    runes (bytes ++ byte :: rest) = runes bytes ++ asciiChar byte :: runes rest := by
  induction bytes using rune_induction with
  | nil => exact runes_cons_ascii ascii rest
  | rune char others ih =>
      rw [List.append_assoc, runes_encode_append, runes_encode_append, ih]
      rfl
  | stray head others absent ih =>
      have still : firstRune (head :: others ++ byte :: rest) = firstRune (head :: others) :=
        firstRune_append_ascii ascii (List.cons_ne_nil head others)
      rw [absent, List.cons_append] at still
      rw [List.cons_append, runes_of_none still, runes_of_none absent, ih]
      rfl

/-- An ASCII character that is read is a byte of the string. -/
theorem mem_of_mem_runes (member : char ∈ runes bytes) (small : char.toNat < 0x80) :
    UInt8.ofNat char.toNat ∈ bytes := by
  induction bytes using rune_induction with
  | nil => exact absurd member List.not_mem_nil
  | rune other rest ih =>
      rw [runes_encode_append] at member
      rcases List.mem_cons.mp member with rfl | later
      · rw [encode_ascii small]
        exact List.mem_cons_self
      · exact List.mem_append_right _ (ih later)
  | stray head rest absent ih =>
      rw [runes_of_none absent] at member
      rcases List.mem_cons.mp member with rfl | later
      · exact absurd small (by decide)
      · exact List.mem_cons_of_mem _ (ih later)

end Reading

/-! ## Lower case -/

/-- What the table of lower-case letters of Unicode has: it extends that of ASCII, and other
characters become letters in lower case or characters that are not ASCII. -/
structure LowerTable (lower : Char → Char) : Prop where
  ascii : ∀ char, char.toNat < 0x80 → lower char = char.toLower
  others : ∀ char, 0x80 ≤ char.toNat → 0x80 ≤ (lower char).toNat ∨ (lower char).isLower = true
  again : ∀ char, lower (lower char) = lower char

/-- The string in lower case, by the table. -/
def toLower (lower : Char → Char) (bytes : Bytes) : Bytes := encode ((runes bytes).map lower)

def lowerByte (byte : UInt8) : UInt8 := if 65 ≤ byte ∧ byte ≤ 90 then byte + 32 else byte

def isLowerLetter (byte : UInt8) : Bool := 97 ≤ byte && byte ≤ 122

/-- A property of bytes that is true of all 256 of them. -/
theorem forall_byte {property : UInt8 → Bool}
    (all : ∀ number : Fin 256, property (UInt8.ofFin number) = true) (byte : UInt8) :
    property byte = true := all byte.toFin

section Lower

variable {lower : Char → Char} {byte : UInt8} {bytes rest : Bytes}

theorem encode_toLower (ascii : isAscii byte = true) :
    String.utf8EncodeChar (asciiChar byte).toLower = [lowerByte byte] := by
  have all := @forall_byte
    (fun byte => !isAscii byte || String.utf8EncodeChar (asciiChar byte).toLower = [lowerByte byte])
    (by decide +kernel) byte
  simpa [ascii] using all

theorem toLower_append_ascii (table : LowerTable lower) (ascii : isAscii byte = true)
    (bytes rest : Bytes) :
    toLower lower (bytes ++ byte :: rest) =
      toLower lower bytes ++ lowerByte byte :: toLower lower rest := by
  have small : (asciiChar byte).toNat < 0x80 := by
    rw [asciiChar_toNat ascii]
    simpa [isAscii, UInt8.lt_iff_toNat_lt] using ascii
  unfold toLower
  rw [runes_append_ascii ascii, List.map_append, List.map_cons, encode_append,
    table.ascii _ small]
  change _ ++ (String.utf8EncodeChar _ ++ _) = _
  rw [encode_toLower ascii]
  rfl

theorem toLower_cons_ascii (table : LowerTable lower) (ascii : isAscii byte = true)
    (rest : Bytes) : toLower lower (byte :: rest) = lowerByte byte :: toLower lower rest :=
  toLower_append_ascii table ascii [] rest

theorem toLower_of_fixed (table : LowerTable lower)
    (fixed : ∀ byte ∈ bytes, isAscii byte = true ∧ lowerByte byte = byte) :
    toLower lower bytes = bytes := by
  induction bytes with
  | nil => rfl
  | cons byte rest ih =>
      obtain ⟨ascii, same⟩ := fixed byte List.mem_cons_self
      rw [toLower_cons_ascii table ascii, same,
        ih fun other member => fixed other (List.mem_cons_of_mem _ member)]

theorem toLower_toLower (table : LowerTable lower) (bytes : Bytes) :
    toLower lower (toLower lower bytes) = toLower lower bytes := by
  unfold toLower
  rw [runes_encode, List.map_map]
  exact congrArg encode (List.map_congr_left fun char _ => table.again char)

/-- In lower case the string is ASCII. -/
def LowersToAscii (lower : Char → Char) (bytes : Bytes) : Prop :=
  ∀ byte ∈ toLower lower bytes, isAscii byte = true

theorem lowersToAscii_append (table : LowerTable lower) (ascii : isAscii byte = true)
    (bytes rest : Bytes) :
    LowersToAscii lower (bytes ++ byte :: rest) ↔
      LowersToAscii lower bytes ∧ LowersToAscii lower rest := by
  have lowered : isAscii (lowerByte byte) = true := by
    have all := @forall_byte (fun byte => !isAscii byte || isAscii (lowerByte byte))
      (by decide +kernel) byte
    simpa [ascii] using all
  unfold LowersToAscii
  rw [toLower_append_ascii table ascii, List.forall_mem_append, List.forall_mem_cons]
  exact and_congr_right fun _ => and_iff_right lowered

/-- An ASCII byte of a character in lower case is a letter or was the whole character. -/
theorem of_mem_encode_lower {char : Char} (table : LowerTable lower) (ascii : isAscii byte = true)
    (member : byte ∈ String.utf8EncodeChar (lower char)) :
    isLowerLetter byte = true ∨ String.utf8EncodeChar char = [byte] := by
  by_cases small : char.toNat < 0x80
  · have whole := encode_ascii small
    have again : asciiChar (UInt8.ofNat char.toNat) = char := by
      unfold asciiChar
      rw [UInt8.toNat_ofNat', Nat.mod_eq_of_lt (by omega), Char.ofNat_toNat]
    have isByte : isAscii (UInt8.ofNat char.toNat) = true := by
      simp only [isAscii, decide_eq_true_eq, UInt8.lt_iff_toNat_lt, UInt8.toNat_ofNat']
      rw [Nat.mod_eq_of_lt (by omega)]
      exact small
    have lowered := encode_toLower isByte
    rw [again] at lowered
    rw [table.ascii char small, lowered, List.mem_singleton] at member
    subst member
    unfold lowerByte
    split
    case isTrue upper =>
      left
      have all := @forall_byte
        (fun byte => !(65 ≤ byte && byte ≤ 90) || isLowerLetter (byte + 32)) (by decide +kernel)
        (UInt8.ofNat char.toNat)
      simpa [upper.1, upper.2] using all
    case isFalse => exact .inr whole
  · left
    rcases table.others char (Nat.not_lt.mp small) with large | letter
    · rw [not_ascii_of_mem large member] at ascii
      cases ascii
    · obtain ⟨least, greatest⟩ := Bool.and_eq_true_iff.mp letter
      have low : 97 ≤ (lower char).toNat :=
        UInt32.le_iff_toNat_le.mp (of_decide_eq_true least)
      have high : (lower char).toNat ≤ 122 :=
        UInt32.le_iff_toNat_le.mp (of_decide_eq_true greatest)
      rw [encode_ascii (by omega), List.mem_singleton] at member
      subst member
      simp only [isLowerLetter, Bool.and_eq_true, decide_eq_true_eq, UInt8.le_iff_toNat_le,
        UInt8.toNat_ofNat']
      rw [Nat.mod_eq_of_lt (by omega)]
      exact ⟨low, high⟩

/-- The ASCII bytes of a string in lower case are letters or were there before. -/
theorem mem_of_mem_toLower (table : LowerTable lower) (ascii : isAscii byte = true)
    (member : byte ∈ toLower lower bytes) : isLowerLetter byte = true ∨ byte ∈ bytes := by
  obtain ⟨lowered, inside, at_char⟩ := List.mem_flatMap.mp member
  obtain ⟨char, read, rfl⟩ := List.mem_map.mp inside
  refine (of_mem_encode_lower table ascii at_char).imp_right fun whole => ?_
  have small : char.toNat < 0x80 := by
    by_contra large
    have own : byte ∈ String.utf8EncodeChar char := by
      rw [whole]
      exact List.mem_singleton_self byte
    rw [not_ascii_of_mem (Nat.not_lt.mp large) own] at ascii
    cases ascii
  rw [encode_ascii small] at whole
  have before := mem_of_mem_runes read small
  rwa [List.singleton_inj.mp whole] at before

/-- An ASCII byte in front that is no letter was there before. -/
theorem head_of_toLower (table : LowerTable lower) (ascii : isAscii byte = true)
    (letter : isLowerLetter byte = false) (front : (toLower lower bytes).head? = some byte) :
    bytes.head? = some byte := by
  have of_head : ∀ char others, (String.utf8EncodeChar (lower char) ++ others).head? = some byte →
      String.utf8EncodeChar char = [byte] := by
    intro char others head
    rw [List.head?_append_of_ne_nil _ String.utf8EncodeChar_ne_nil] at head
    refine (of_mem_encode_lower table ascii (List.mem_of_mem_head? head)).resolve_left ?_
    rw [letter]
    exact Bool.false_ne_true
  induction bytes using rune_induction with
  | nil => exact front
  | rune char rest ih =>
      unfold toLower at front
      rw [runes_encode_append] at front
      rw [of_head char _ front]
      rfl
  | stray head rest absent ih =>
      unfold toLower at front
      rw [runes_of_none absent] at front
      have single : 3 = 1 := congrArg List.length (of_head '\uFFFD' _ front)
      cases single

theorem toLower_eq_nil : toLower lower bytes = [] ↔ bytes = [] := by
  constructor
  · intro empty
    cases bytes with
    | nil => rfl
    | cons head rest =>
        have none_read : (runes (head :: rest)).map lower = [] := by
          cases read : (runes (head :: rest)).map lower with
          | nil => rfl
          | cons char others =>
              unfold toLower at empty
              rw [read] at empty
              exact absurd (List.append_eq_nil_iff.mp empty).1 String.utf8EncodeChar_ne_nil
        cases found : firstRune (head :: rest) with
        | none =>
            rw [runes_of_none found] at none_read
            cases none_read
        | some char =>
            obtain ⟨after, split⟩ := exists_of_firstRune found
            rw [split, runes_encode_append] at none_read
            cases none_read
  · rintro rfl
    rfl

end Lower

/-! ## White space -/

/-- What is left after the spaces in front, the first `skipped` bytes being of one. -/
def trimLeftAfter (space : Char → Bool) : Nat → Bytes → Bytes
  | _, [] => []
  | skipped + 1, _ :: rest => trimLeftAfter space skipped rest
  | 0, byte :: rest =>
      match firstRune (byte :: rest) with
      | some char =>
          if space char then trimLeftAfter space (char.utf8Size - 1) rest else byte :: rest
      | none => byte :: rest

/-- The string without the spaces at its end. -/
def trimRight (space : Char → Bool) : Bytes → Bytes
  | [] => []
  | byte :: rest =>
      if (runes (byte :: rest)).all space then [] else byte :: trimRight space rest

def trimSpace (space : Char → Bool) (bytes : Bytes) : Bytes :=
  trimRight space (trimLeftAfter space 0 bytes)

section Trim

variable {space : Char → Bool} {last : UInt8} {bytes : Bytes}

theorem trimRight_append (ascii : isAscii last = true) (other : space (asciiChar last) = false)
    (bytes : Bytes) : trimRight space (bytes ++ [last]) = bytes ++ [last] := by
  have not_all : ∀ bytes, ¬ (runes (bytes ++ [last])).all space = true := by
    intro bytes all
    rw [runes_append_ascii ascii, List.all_append, List.all_cons, other] at all
    simp at all
  induction bytes with
  | nil => exact if_neg (not_all [])
  | cons head rest ih =>
      refine (if_neg (not_all (head :: rest))).trans ?_
      exact congrArg (head :: ·) ih

theorem trimLeft_cons {byte : UInt8} (ascii : isAscii byte = true)
    (other : space (asciiChar byte) = false) (rest : Bytes) :
    trimLeftAfter space 0 (byte :: rest) = byte :: rest := by
  have found := firstRune_encode (asciiChar byte) rest
  rw [encode_asciiChar ascii] at found
  rw [trimLeftAfter, show firstRune (byte :: rest) = _ from found]
  simp only [other, Bool.false_eq_true, if_false]

/-- A text of ASCII bytes that are no spaces is not trimmed. -/
theorem trimSpace_of_plain
    (plain : ∀ byte ∈ bytes, isAscii byte = true ∧ space (asciiChar byte) = false) :
    trimSpace space bytes = bytes := by
  have left : trimLeftAfter space 0 bytes = bytes := by
    cases bytes with
    | nil => rfl
    | cons head rest =>
        obtain ⟨ascii, other⟩ := plain head List.mem_cons_self
        exact trimLeft_cons ascii other rest
  unfold trimSpace
  rw [left]
  rcases List.eq_nil_or_concat' bytes with rfl | ⟨init, last, rfl⟩
  · rfl
  · obtain ⟨ascii, other⟩ := plain last (List.mem_append_right _ (List.mem_singleton_self last))
    exact trimRight_append ascii other init

end Trim

end Utf8
