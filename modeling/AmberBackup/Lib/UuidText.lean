import Mathlib.Data.List.Basic
import Mathlib.Tactic.Common
import Mathlib.Tactic.Ring

/-! # Texts of UUIDs

A column of type `uuid` holds a number of 128 bits. It is compared with a text by reading the
text, which may have capital letters, braces around it and a hyphen after every group of four
digits or none; a text that cannot be read is an error of the query. A row shows the canonical
text, in small letters with four hyphens, which is read as the number it was written from
(`read_write`), also with capital letters (`read_toLower`).
-/

namespace UuidText

/-- The small hexadecimal digit of a number below 16. -/
def hexChar (digit : Nat) : Char :=
  if digit < 10 then Char.ofNat (48 + digit) else Char.ofNat (87 + digit)

/-- The value of a hexadecimal digit in small or capital letters. -/
def hexValue (char : Char) : Option Nat :=
  if char.isDigit then some (char.toNat - 48)
  else if 'a' ≤ char ∧ char ≤ 'f' then some (char.toNat - 87)
  else if 'A' ≤ char ∧ char ≤ 'F' then some (char.toNat - 55)
  else none

/-- Four digits at the beginning of a text. -/
def readGroup : List Char → Option (Nat × List Char)
  | a :: b :: c :: d :: rest =>
      match hexValue a, hexValue b, hexValue c, hexValue d with
      | some a, some b, some c, some d => some (((a * 16 + b) * 16 + c) * 16 + d, rest)
      | _, _, _, _ => none
  | _ => none

def dropHyphen : List Char → List Char
  | '-' :: rest => rest
  | text => text

/-- So many groups, with an optional hyphen after every group but the last. -/
def readGroups : Nat → Nat → List Char → Option (Nat × List Char)
  | 0, value, text => some (value, text)
  | 1, value, text => (readGroup text).map fun first => (value * 65536 + first.1, first.2)
  | count + 2, value, text =>
      (readGroup text).bind fun first =>
        readGroups (count + 1) (value * 65536 + first.1) (dropHyphen first.2)

/-- The number a `uuid` column is compared with for a text. -/
def read (text : List Char) : Option Nat :=
  match text with
  | '\x7b' :: inner =>
      match readGroups 8 0 inner with
      | some (value, ['\x7d']) => some value
      | _ => none
  | _ =>
      match readGroups 8 0 text with
      | some (value, []) => some value
      | _ => none

def writeGroup (value : Nat) : List Char :=
  [hexChar (value / 4096 % 16), hexChar (value / 256 % 16), hexChar (value / 16 % 16),
    hexChar (value % 16)]

/-- The last so many groups of a number. -/
def writeGroups : Nat → Nat → List Char
  | 0, _ => []
  | count + 1, value =>
      writeGroup (value / 65536 ^ count % 65536) ++
        if 3 ≤ count ∧ count ≤ 6 then '-' :: writeGroups count value else writeGroups count value

/-- The canonical text of a number. -/
def write (value : Nat) : List Char := writeGroups 8 value

example : write 0x123e4567e89b12d3a456426614174000 =
    "123e4567-e89b-12d3-a456-426614174000".toList := by decide +kernel

theorem hexValue_hexChar : ∀ digit < 16, hexValue (hexChar digit) = some digit := by decide

theorem readGroup_writeGroup {value : Nat} (small : value < 65536) (rest : List Char) :
    readGroup (writeGroup value ++ rest) = some (value, rest) := by
  have first := hexValue_hexChar (value / 4096 % 16) (Nat.mod_lt _ (by decide))
  have second := hexValue_hexChar (value / 256 % 16) (Nat.mod_lt _ (by decide))
  have third := hexValue_hexChar (value / 16 % 16) (Nat.mod_lt _ (by decide))
  have fourth := hexValue_hexChar (value % 16) (Nat.mod_lt _ (by decide))
  have whole :
      ((value / 4096 % 16 * 16 + value / 256 % 16) * 16 + value / 16 % 16) * 16 + value % 16 =
        value := by omega
  simp only [writeGroup, List.cons_append, List.nil_append, readGroup, first, second, third,
    fourth, whole]

theorem hexChar_ne_hyphen : ∀ digit < 16, hexChar digit ≠ '-' := by decide

theorem dropHyphen_writeGroups (count value : Nat) (rest : List Char) :
    dropHyphen (writeGroups (count + 1) value ++ rest) = writeGroups (count + 1) value ++ rest := by
  have different := hexChar_ne_hyphen (value / 65536 ^ count % 65536 / 4096 % 16)
    (Nat.mod_lt _ (by decide))
  simp only [writeGroups, writeGroup, List.cons_append]
  unfold dropHyphen
  split
  case h_1 _ same =>
    rw [List.cons.injEq] at same
    exact absurd same.1 different
  case h_2 => rfl

theorem readGroups_writeGroups (count start value : Nat) (rest : List Char) :
    readGroups (count + 1) start (writeGroups (count + 1) value ++ rest) =
      some (start * 65536 ^ (count + 1) + value % 65536 ^ (count + 1), rest) := by
  induction count generalizing start with
  | zero =>
      have group := @readGroup_writeGroup (value / 65536 ^ 0 % 65536)
        (Nat.mod_lt _ (by decide)) rest
      simp only [writeGroups, readGroups]
      rw [if_neg (by omega), List.append_nil, group]
      simp
  | succ count ih =>
      have group := @readGroup_writeGroup (value / 65536 ^ (count + 1) % 65536)
        (Nat.mod_lt _ (by decide))
      have last : (start * 65536 + value / 65536 ^ (count + 1) % 65536) * 65536 ^ (count + 1) +
          value % 65536 ^ (count + 1) =
            start * 65536 ^ (count + 2) + value % 65536 ^ (count + 2) := by
        rw [Nat.mod_pow_succ (k := count + 1), Nat.pow_succ 65536 (count + 1)]
        ring
      have skipped : dropHyphen ((if 3 ≤ count + 1 ∧ count + 1 ≤ 6 then
          '-' :: writeGroups (count + 1) value else writeGroups (count + 1) value) ++ rest) =
            writeGroups (count + 1) value ++ rest := by
        by_cases between : 3 ≤ count + 1 ∧ count + 1 ≤ 6
        · rw [if_pos between]
          rfl
        · rw [if_neg between]
          exact dropHyphen_writeGroups count value rest
      rw [writeGroups, List.append_assoc, readGroups, group]
      simp only [Option.bind_some]
      rw [skipped, ih, last]

/-- A canonical text is read as the number it was written from. -/
theorem read_write {value : Nat} (bits : value < 2 ^ 128) : read (write value) = some value := by
  have whole : readGroups 8 0 (write value) = some (value, []) := by
    have groups := readGroups_writeGroups 7 0 value []
    rw [List.append_nil, Nat.zero_mul, Nat.zero_add, Nat.mod_eq_of_lt (by simpa using bits)]
      at groups
    exact groups
  unfold read
  split
  case h_1 inner same =>
    have other : hexChar (value / 65536 ^ 7 % 65536 / 4096 % 16) ≠ '\x7b' := by
      have all : ∀ digit < 16, hexChar digit ≠ '\x7b' := by decide
      exact all _ (Nat.mod_lt _ (by decide))
    simp only [write, writeGroups, writeGroup, List.cons_append, List.cons.injEq] at same
    exact absurd same.1 other
  case h_2 => rw [whole]

/-! ## Capital letters -/

theorem isUpper_cases {char : Char} (upper : char.isUpper = true) :
    ∃ code < 91, 65 ≤ code ∧ char = Char.ofNat code := by
  obtain ⟨low, high⟩ : char.val ≥ 'A'.val ∧ char.val ≤ 'Z'.val := of_decide_eq_true upper
  have least : 65 ≤ char.toNat := UInt32.le_iff_toNat_le.mp low
  have greatest : char.toNat ≤ 90 := UInt32.le_iff_toNat_le.mp high
  exact ⟨char.toNat, by omega, least, (Char.ofNat_toNat char).symm⟩

theorem toLower_of_not_isUpper {char : Char} (other : char.isUpper = false) :
    char.toLower = char := by
  unfold Char.toLower
  split
  case isTrue letter =>
    have upper : char.isUpper = true := decide_eq_true letter
    rw [other] at upper
    cases upper
  case isFalse => rfl

theorem hexValue_toLower (char : Char) : hexValue char.toLower = hexValue char := by
  cases upper : char.isUpper with
  | false => rw [toLower_of_not_isUpper upper]
  | true =>
      obtain ⟨code, below, above, rfl⟩ := isUpper_cases upper
      have all : ∀ code < 91, 65 ≤ code →
          hexValue (Char.ofNat code).toLower = hexValue (Char.ofNat code) := by decide
      exact all code below above

theorem toLower_eq_iff {char other : Char} (unchanged : other = '-' ∨ other = '\x7b') :
    char.toLower = other ↔ char = other := by
  cases upper : char.isUpper with
  | false => rw [toLower_of_not_isUpper upper]
  | true =>
      obtain ⟨code, below, above, rfl⟩ := isUpper_cases upper
      have hyphen : ∀ code < 91, 65 ≤ code →
          ((Char.ofNat code).toLower = '-' ↔ Char.ofNat code = '-') := by decide
      have brace : ∀ code < 91, 65 ≤ code →
          ((Char.ofNat code).toLower = '\x7b' ↔ Char.ofNat code = '\x7b') := by decide
      rcases unchanged with rfl | rfl
      · exact hyphen code below above
      · exact brace code below above

theorem readGroup_toLower (text : List Char) :
    readGroup (text.map Char.toLower) =
      (readGroup text).map fun first => (first.1, first.2.map Char.toLower) := by
  match text with
  | [] | [_] | [_, _] | [_, _, _] => rfl
  | a :: b :: c :: d :: rest =>
      simp only [List.map_cons, readGroup, hexValue_toLower]
      split <;> rfl

theorem dropHyphen_toLower (text : List Char) :
    dropHyphen (text.map Char.toLower) = (dropHyphen text).map Char.toLower := by
  cases text with
  | nil => rfl
  | cons char rest =>
      have same := @toLower_eq_iff char '-' (.inl rfl)
      by_cases hyphen : char = '-'
      · subst hyphen
        rfl
      · rw [List.map_cons]
        have other : ∀ {first : Char} {rest : List Char}, first ≠ '-' →
            dropHyphen (first :: rest) = first :: rest := by
          intro first rest different
          unfold dropHyphen
          split
          case h_1 _ found => exact absurd (List.cons.inj found).1 different
          case h_2 => rfl
        rw [other (mt same.mp hyphen), other hyphen]
        rfl

theorem readGroups_toLower (count value : Nat) (text : List Char) :
    readGroups count value (text.map Char.toLower) =
      (readGroups count value text).map fun first => (first.1, first.2.map Char.toLower) := by
  match count with
  | 0 => rfl
  | 1 =>
      rw [readGroups, readGroups, readGroup_toLower]
      cases readGroup text <;> rfl
  | count + 2 =>
      rw [readGroups, readGroups, readGroup_toLower]
      cases readGroup text with
      | none => rfl
      | some first =>
          simp only [Option.map_some, Option.bind_some]
          rw [dropHyphen_toLower, readGroups_toLower]

/-- A text without braces is read whether its letters are small or capital. -/
theorem read_toLower {text : List Char} (bare : text.head? ≠ some '\x7b') :
    read (text.map Char.toLower) = read text := by
  have plain : ∀ text : List Char, text.head? ≠ some '\x7b' →
      read text = ((readGroups 8 0 text).filter fun found => found.2 = []).map Prod.fst := by
    intro text bare
    unfold read
    split
    case h_1 => exact absurd rfl bare
    case h_2 =>
      cases readGroups 8 0 text with
      | none => rfl
      | some found =>
          obtain ⟨value, rest⟩ := found
          cases rest <;> rfl
  have lowered : (text.map Char.toLower).head? ≠ some '\x7b' := by
    rw [List.head?_map]
    cases first : text.head? with
    | none =>
        intro same
        cases same
    | some char =>
        intro same
        have brace := (@toLower_eq_iff char '\x7b' (.inr rfl)).mp (Option.some.inj same)
        exact bare (first.trans (congrArg some brace))
  rw [plain _ lowered, plain _ bare, readGroups_toLower]
  cases readGroups 8 0 text with
  | none => rfl
  | some found =>
      obtain ⟨value, rest⟩ := found
      cases rest <;> rfl

end UuidText
