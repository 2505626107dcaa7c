import AmberBackup.Lib.LineBuffer
import AmberBackup.Lib.Runes
import Mathlib.Algebra.GroupWithZero.Nat

/-! # Decoding UTF-8

The decoder of a text reads byte by byte and keeps what it knows of a character that is not yet
complete. Bytes that make up no character are read as U+FFFD, one for each beginning of a
character that is cut short. A line feed is a character of its own wherever it stands
(`lineWise_decode`), an encoded text is read back (`decode_encode`), and pieces are decoded to
what the whole text is decoded to unless one of them leaves a U+FFFD (`decode_flatten`).
-/

namespace Utf8

/-- A character of which some bytes have been read. -/
structure Pending where
  /-- The bits that are known. -/
  codePoint : Nat
  /-- The bytes that come after the next one. -/
  more : Nat
  /-- The least and the greatest value of the next byte. -/
  lower : Nat
  upper : Nat
  continues : 0x80 ≤ lower ∧ upper ≤ 0xBF
  /-- Whatever follows, it is a character that no shorter sequence stands for. -/
  valid : ∀ number, (codePoint * 64 + (lower - 0x80)) * 64 ^ more ≤ number →
    number < (codePoint * 64 + (upper - 0x80) + 1) * 64 ^ more →
    0x80 ≤ number ∧ number.isValidChar

def replacement : Char := '\uFFFD'

/-- The state after the first byte of a character, and the character if that is all of it. -/
def lead (byte : Nat) : Option Pending × List Char :=
  if byte < 0x80 then (none, [Char.ofNat byte])
  else if two : 0xC2 ≤ byte ∧ byte ≤ 0xDF then
    (some ⟨byte - 0xC0, 0, 0x80, 0xBF, by omega, by
      unfold Nat.isValidChar; omega⟩, [])
  else if byte = 0xE0 then
    (some ⟨0, 1, 0xA0, 0xBF, by omega, by
      unfold Nat.isValidChar; omega⟩, [])
  else if byte = 0xED then
    (some ⟨0xD, 1, 0x80, 0x9F, by omega, by
      unfold Nat.isValidChar; omega⟩, [])
  else if three : 0xE1 ≤ byte ∧ byte ≤ 0xEF ∧ byte ≠ 0xED then
    (some ⟨byte - 0xE0, 1, 0x80, 0xBF, by omega, by
      unfold Nat.isValidChar; omega⟩, [])
  else if byte = 0xF0 then
    (some ⟨0, 2, 0x90, 0xBF, by omega, by
      unfold Nat.isValidChar; omega⟩, [])
  else if four : 0xF1 ≤ byte ∧ byte ≤ 0xF3 then
    (some ⟨byte - 0xF0, 2, 0x80, 0xBF, by omega, by
      unfold Nat.isValidChar; omega⟩, [])
  else if byte = 0xF4 then
    (some ⟨4, 2, 0x80, 0x8F, by omega, by
      unfold Nat.isValidChar; omega⟩, [])
  else (none, [replacement])

namespace Pending

def Continues (pending : Pending) (byte : Nat) : Prop :=
  pending.lower ≤ byte ∧ byte ≤ pending.upper

instance (pending : Pending) (byte : Nat) : Decidable (pending.Continues byte) :=
  inferInstanceAs (Decidable (_ ∧ _))

def value (pending : Pending) (byte : Nat) : Nat := pending.codePoint * 64 + (byte - 0x80)

theorem valid_value {pending : Pending} {byte : Nat} (continues : pending.Continues byte)
    (number : Nat) (low : pending.value byte * 64 ^ pending.more ≤ number)
    (high : number < (pending.value byte + 1) * 64 ^ pending.more) :
    0x80 ≤ number ∧ number.isValidChar := by
  obtain ⟨least, greatest⟩ := continues
  have start := pending.continues
  refine pending.valid number (Nat.le_trans (Nat.mul_le_mul_right _ ?_) low)
    (Nat.lt_of_lt_of_le high (Nat.mul_le_mul_right _ ?_))
  · unfold value
    omega
  · unfold value
    omega

/-- What is known after the next byte, and the character if that is all of it. -/
def next (pending : Pending) (byte : Nat) (continues : pending.Continues byte) :
    Option Pending × List Char :=
  match left : pending.more with
  | 0 => (none, [Char.ofNat (pending.value byte)])
  | more + 1 =>
      (some ⟨pending.value byte, more, 0x80, 0xBF, ⟨Nat.le_refl _, Nat.le_refl _⟩, by
        intro number low high
        rw [Nat.sub_self, Nat.add_zero, Nat.mul_assoc, Nat.mul_comm 64, ← Nat.pow_succ,
          ← left] at low
        have bound :
            pending.value byte * 64 + (0xBF - 0x80) + 1 = (pending.value byte + 1) * 64 := by
          omega
        rw [bound, Nat.mul_assoc, Nat.mul_comm 64, ← Nat.pow_succ, ← left] at high
        exact valid_value continues number low high⟩, [])

end Pending

/-- A byte that does not continue the character begins a new one. -/
def step (state : Option Pending) (byte : Nat) : Option Pending × List Char :=
  match state with
  | none => lead byte
  | some pending =>
      if continues : pending.Continues byte then pending.next byte continues
      else ((lead byte).1, replacement :: (lead byte).2)

/-- A text may end inside a character. -/
def flush : Option Pending → List Char
  | none => []
  | some _ => [replacement]

def decodeFrom : Option Pending → Bytes → List Char
  | state, [] => flush state
  | state, byte :: rest => (step state byte.toNat).2 ++ decodeFrom (step state byte.toNat).1 rest

def decode (bytes : Bytes) : List Char := decodeFrom none bytes

example : decode [0x61, 0xF0, 0x9F, 0x98, 0x0A, 0xC3, 0xA9, 0xE2] =
    ['a', '\uFFFD', '\n', 'é', '\uFFFD'] := by
  decide +kernel

section Decoding

variable {state : Option Pending} {pending : Pending} {byte : UInt8} {bytes rest : Bytes}
  {char : Char}

theorem step_of_not (other : ¬ pending.Continues byte.toNat) :
    step (some pending) byte.toNat = ((lead byte.toNat).1, replacement :: (lead byte.toNat).2) :=
  dif_neg other

/-- A byte that does not continue the character is read as if a text began there. -/
theorem decodeFrom_of_not (other : ¬ pending.Continues byte.toNat) :
    decodeFrom (some pending) (byte :: rest) = replacement :: decode (byte :: rest) := by
  unfold decode
  rw [decodeFrom, decodeFrom, step_of_not other]
  rfl

/-- A byte that continues the character completes it, or leaves less of it to come. -/
theorem step_of_continues (continues : pending.Continues byte.toNat) :
    (∃ char, step (some pending) byte.toNat = (none, [char]) ∧ 0x80 ≤ char.toNat) ∨
      ∃ later, step (some pending) byte.toNat = (some later, []) := by
  have stepped : step (some pending) byte.toNat = pending.next byte.toNat continues :=
    dif_pos continues
  rw [stepped]
  unfold Pending.next
  split
  next left =>
    refine .inl ⟨_, rfl, ?_⟩
    have one : (64 : Nat) ^ pending.more = 1 := by rw [left, Nat.pow_zero]
    obtain ⟨large, valid⟩ := Pending.valid_value continues
      (pending.value byte.toNat) (by rw [one]; omega) (by rw [one]; omega)
    unfold Char.ofNat
    rw [dif_pos valid]
    exact large
  next more left => exact .inr ⟨_, rfl⟩

theorem decodeFrom_of_continues (continues : pending.Continues byte.toNat) (rest : Bytes) :
    (∃ char, decodeFrom (some pending) (byte :: rest) = char :: decode rest) ∨
      ∃ later, decodeFrom (some pending) (byte :: rest) = decodeFrom (some later) rest := by
  rw [decodeFrom]
  rcases step_of_continues continues with ⟨char, read, -⟩ | ⟨later, read⟩
  · exact .inl ⟨char, by rw [read]; rfl⟩
  · exact .inr ⟨later, by rw [read]; rfl⟩

/-- The first byte of a text is a character, begins one, or is refused. -/
theorem lead_cases (byte : UInt8) :
    (byte.toNat < 0x80 ∧ lead byte.toNat = (none, [Char.ofNat byte.toNat])) ∨
      0x80 ≤ byte.toNat ∧ ((∃ pending, lead byte.toNat = (some pending, [])) ∨
        lead byte.toNat = (none, [replacement])) := by
  by_cases small : byte.toNat < 0x80
  · exact .inl ⟨small, if_pos small⟩
  · refine .inr ⟨Nat.not_lt.mp small, ?_⟩
    unfold lead
    rw [if_neg small]
    repeat' split
    all_goals first | exact .inl ⟨_, rfl⟩ | exact .inr rfl

theorem lead_of_continues (continues : pending.Continues byte.toNat) :
    lead byte.toNat = (none, [replacement]) := by
  obtain ⟨low, high⟩ := pending.continues
  obtain ⟨least, greatest⟩ := continues
  have large : 0x80 ≤ byte.toNat := Nat.le_trans low least
  have small : byte.toNat ≤ 0xBF := Nat.le_trans greatest high
  unfold lead
  rw [if_neg (by omega), dif_neg (by omega), if_neg (by omega), if_neg (by omega),
    dif_neg (by omega), if_neg (by omega), dif_neg (by omega), if_neg (by omega)]

theorem continues_large (continues : pending.Continues byte.toNat) : 0x80 ≤ byte.toNat :=
  Nat.le_trans pending.continues.1 continues.1

/-! ## ASCII bytes -/

/-- An ASCII byte is a character wherever it stands. -/
theorem step_ascii (small : byte.toNat < 0x80) (state : Option Pending) :
    step state byte.toNat = (none, flush state ++ [Char.ofNat byte.toNat]) := by
  have first : lead byte.toNat = (none, [Char.ofNat byte.toNat]) := if_pos small
  cases state with
  | none => exact first
  | some pending =>
      have other : ¬ pending.Continues byte.toNat := by
        intro continues
        exact absurd small (Nat.not_lt.mpr (continues_large continues))
      rw [step_of_not other, first]
      rfl

theorem decodeFrom_append_ascii (small : byte.toNat < 0x80) (state : Option Pending)
    (bytes rest : Bytes) :
    decodeFrom state (bytes ++ byte :: rest) =
      decodeFrom state bytes ++ Char.ofNat byte.toNat :: decode rest := by
  induction bytes generalizing state with
  | nil =>
      rw [List.nil_append, decodeFrom, decodeFrom, step_ascii small state, List.append_assoc]
      rfl
  | cons first bytes ih =>
      rw [List.cons_append, decodeFrom, decodeFrom, ih, List.append_assoc]

theorem asciiChar_of_small (small : byte.toNat < 0x80) :
    (Char.ofNat byte.toNat).toNat = byte.toNat :=
  asciiChar_toNat (by simpa [isAscii, UInt8.lt_iff_toNat_lt] using small)

/-- An ASCII character stands for a byte of its own. -/
theorem ascii_of_mem_decodeFrom (member : char ∈ decodeFrom state bytes)
    (small : char.toNat < 0x80) : ∃ byte ∈ bytes, byte.toNat = char.toNat := by
  induction bytes generalizing state with
  | nil =>
      cases state with
      | none => cases member
      | some pending =>
          rw [List.mem_singleton.mp member] at small
          exact absurd small (by decide)
  | cons byte bytes ih =>
      rw [decodeFrom] at member
      rcases List.mem_append.mp member with here | later
      · refine ⟨byte, List.mem_cons_self, ?_⟩
        have first : ∀ found ∈ (lead byte.toNat).2, found.toNat < 0x80 →
            byte.toNat = found.toNat := by
          intro found inside low
          rcases lead_cases byte with ⟨single, plain⟩ | ⟨-, ⟨_, begins⟩ | refused⟩
          · rw [plain] at inside
            rw [List.mem_singleton.mp inside, asciiChar_of_small single]
          · rw [begins] at inside
            cases inside
          · rw [refused] at inside
            rw [List.mem_singleton.mp inside] at low
            exact absurd low (by decide)
        cases state with
        | none => exact first char here small
        | some pending =>
            by_cases continues : pending.Continues byte.toNat
            · rcases step_of_continues continues with ⟨whole, read, large⟩ | ⟨later, read⟩
              · rw [read] at here
                rw [List.mem_singleton.mp here] at small
                exact absurd small (Nat.not_lt.mpr large)
              · rw [read] at here
                cases here
            · rw [step_of_not continues] at here
              rcases List.mem_cons.mp here with rfl | inside
              · exact absurd small (by decide)
              · exact first char inside small
      · obtain ⟨found, inside, same⟩ := ih later
        exact ⟨found, List.mem_cons_of_mem _ inside, same⟩

/-- Lines are decoded one by one. -/
theorem lineWise_decode : LineBuffer.LineWise (0x0A : UInt8) '\n' decode := by
  refine ⟨?_, ?_⟩
  · intro line absent member
    obtain ⟨byte, inside, same⟩ := ascii_of_mem_decodeFrom member (by decide)
    have feed : byte = 0x0A := UInt8.toNat_inj.mp same
    rw [feed] at inside
    exact absent inside
  · intro line rest _
    exact decodeFrom_append_ascii (by decide) none line rest

/-! ## Decoding in pieces -/

/-- A piece whose text has no U+FFFD ends between two characters. -/
theorem decodeFrom_append (whole : replacement ∉ decodeFrom state bytes) (rest : Bytes) :
    decodeFrom state (bytes ++ rest) = decodeFrom state bytes ++ decode rest := by
  induction bytes generalizing state with
  | nil =>
      cases state with
      | none => rfl
      | some pending => exact absurd List.mem_cons_self whole
  | cons byte bytes ih =>
      rw [decodeFrom] at whole
      have later := ih fun member => whole (List.mem_append_right _ member)
      rw [List.cons_append, decodeFrom, decodeFrom, later, List.append_assoc]

theorem decode_flatten {pieces : List Bytes} (whole : replacement ∉ pieces.flatMap decode) :
    decode pieces.flatten = pieces.flatMap decode := by
  induction pieces with
  | nil => rfl
  | cons piece pieces ih =>
      rw [List.flatMap_cons] at whole ⊢
      rw [List.flatten_cons, ← ih fun member => whole (List.mem_append_right _ member)]
      exact decodeFrom_append (fun member => whole (List.mem_append_left _ member)) _

end Decoding

/-! ## Decoding byte by byte -/

/-- Each byte decoded by itself. -/
def bytewise (bytes : Bytes) : List Char := bytes.flatMap fun byte => decode [byte]

def marks (text : List Char) : Nat := text.count replacement

section Marks

variable {pending : Pending} {byte : UInt8} {bytes rest : Bytes} {char : Char}

theorem marks_append (first second : List Char) :
    marks (first ++ second) = marks first + marks second := List.count_append

theorem marks_cons (text : List Char) : marks (replacement :: text) = marks text + 1 :=
  List.count_cons_self

theorem marks_single_le (char : Char) : marks [char] ≤ 1 := List.count_le_length

theorem decode_of_small (small : byte.toNat < 0x80) :
    decode [byte] = [Char.ofNat byte.toNat] := by
  unfold decode
  rw [decodeFrom, step_ascii small]
  rfl

theorem decode_of_large (large : 0x80 ≤ byte.toNat) : decode [byte] = [replacement] := by
  unfold decode
  rw [decodeFrom, decodeFrom, step]
  rcases lead_cases byte with ⟨small, -⟩ | ⟨-, ⟨_, begins⟩ | refused⟩
  · exact absurd small (Nat.not_lt.mpr large)
  · rw [begins]
    rfl
  · rw [refused]
    rfl

theorem decode_single (byte : UInt8) : ∃ char, decode [byte] = [char] := by
  rcases Nat.lt_or_ge byte.toNat 0x80 with small | large
  · exact ⟨_, decode_of_small small⟩
  · exact ⟨_, decode_of_large large⟩

theorem bytewise_cons_large (large : 0x80 ≤ byte.toNat) (rest : Bytes) :
    bytewise (byte :: rest) = replacement :: bytewise rest := by
  unfold bytewise
  rw [List.flatMap_cons, decode_of_large large]
  rfl

theorem marks_le_of_or {first second : List Char}
    (fewer : first = second ∨ marks first < marks second) : marks first ≤ marks second :=
  fewer.elim (fun same => Nat.le_of_eq (congrArg marks same)) Nat.le_of_lt

/-- A text has fewer U+FFFD than its bytes by themselves, or is the same. -/
theorem decodeFrom_marks (state : Option Pending) (bytes : Bytes) :
    decodeFrom state bytes = flush state ++ bytewise bytes ∨
      marks (decodeFrom state bytes) < marks (flush state ++ bytewise bytes) := by
  induction bytes generalizing state with
  | nil => exact .inl (List.append_nil _).symm
  | cons byte rest ih =>
      have start : decode (byte :: rest) = bytewise (byte :: rest) ∨
          marks (decode (byte :: rest)) < marks (bytewise (byte :: rest)) := by
        have after := ih none
        rcases lead_cases byte with ⟨small, plain⟩ | ⟨large, ⟨later, begins⟩ | refused⟩
        · have read : decode (byte :: rest) = Char.ofNat byte.toNat :: decode rest :=
            decodeFrom_append_ascii small none [] rest
          have single : bytewise (byte :: rest) = Char.ofNat byte.toNat :: bytewise rest := by
            unfold bytewise
            rw [List.flatMap_cons, decode_of_small small]
            rfl
          rw [read, single]
          refine after.imp (congrArg _) fun fewer => ?_
          have counted : ∀ text, marks (Char.ofNat byte.toNat :: text) =
              marks [Char.ofNat byte.toNat] + marks text := marks_append [_]
          rw [counted (decode rest), counted (bytewise rest)]
          exact Nat.add_lt_add_left fewer _
        · have read : decode (byte :: rest) = decodeFrom (some later) rest := by
            unfold decode
            rw [decodeFrom, step, begins]
            rfl
          rw [read, bytewise_cons_large large]
          exact ih (some later)
        · have read : decode (byte :: rest) = replacement :: decode rest := by
            unfold decode
            rw [decodeFrom, step, refused]
            rfl
          rw [read, bytewise_cons_large large, marks_cons, marks_cons]
          exact after.imp (congrArg _) Nat.succ_lt_succ
      cases state with
      | none => exact start
      | some pending =>
          change _ = replacement :: bytewise (byte :: rest) ∨
            _ < marks (replacement :: bytewise (byte :: rest))
          by_cases continues : pending.Continues byte.toNat
          · -- the byte adds a U+FFFD by itself
            right
            rw [bytewise_cons_large (continues_large continues), marks_cons, marks_cons]
            rcases decodeFrom_of_continues continues rest with ⟨char, read⟩ | ⟨later, read⟩
            · have after := marks_le_of_or (ih none)
              have one := marks_single_le char
              rw [read, ← List.singleton_append, marks_append]
              exact Nat.lt_succ_of_le (Nat.add_comm _ 1 ▸ Nat.add_le_add one after)
            · have after : marks (decodeFrom (some later) rest) ≤
                  marks (replacement :: bytewise rest) := marks_le_of_or (ih (some later))
              rw [marks_cons] at after
              rw [read]
              exact Nat.lt_succ_of_le after
          · rw [decodeFrom_of_not continues, marks_cons, marks_cons]
            exact start.imp (congrArg _) Nat.succ_lt_succ

theorem decode_marks (bytes : Bytes) :
    decode bytes = bytewise bytes ∨ marks (decode bytes) < marks (bytewise bytes) :=
  decodeFrom_marks none bytes

/-- What is known of a character saves at most the U+FFFD that it ends with. -/
theorem marks_decodeFrom_le (state : Option Pending) (bytes : Bytes) :
    marks (decodeFrom state bytes) ≤ marks (flush state) + marks (decode bytes) := by
  induction bytes generalizing state with
  | nil => exact Nat.le_add_right _ _
  | cons byte rest ih =>
      cases state with
      | none => exact Nat.le_add_left _ _
      | some pending =>
          have flushed : marks (flush (some pending)) = 1 := rfl
          by_cases continues : pending.Continues byte.toNat
          · have read : decode (byte :: rest) = replacement :: decode rest := by
              unfold decode
              rw [decodeFrom, step, lead_of_continues continues]
              rfl
            rw [read, marks_cons, flushed]
            rcases decodeFrom_of_continues continues rest with ⟨char, read⟩ | ⟨later, read⟩
            · have one := marks_single_le char
              rw [read, ← List.singleton_append, marks_append]
              omega
            · have after : marks (decodeFrom (some later) rest) ≤ 1 + marks (decode rest) :=
                ih (some later)
              rw [read]
              omega
          · rw [decodeFrom_of_not continues, marks_cons, flushed]
            exact Nat.le_of_eq (Nat.add_comm _ _)

theorem marks_decodeFrom_append (state : Option Pending) (first second : Bytes) :
    marks (decodeFrom state (first ++ second)) ≤
      marks (decodeFrom state first) + marks (decode second) := by
  induction first generalizing state with
  | nil => exact marks_decodeFrom_le state second
  | cons byte first ih =>
      rw [List.cons_append, decodeFrom, decodeFrom, marks_append, marks_append, Nat.add_assoc]
      exact Nat.add_le_add_left (ih _) _

/-- Cutting a text saves no U+FFFD. -/
theorem marks_decode_flatten (pieces : List Bytes) :
    marks (decode pieces.flatten) ≤ marks (pieces.flatMap decode) := by
  induction pieces with
  | nil => exact Nat.le_refl _
  | cons piece pieces ih =>
      rw [List.flatten_cons, List.flatMap_cons, marks_append]
      exact Nat.le_trans (marks_decodeFrom_append none piece _) (Nat.add_le_add_left ih _)

theorem flatMap_decode_marks (pieces : List Bytes) :
    pieces.flatMap decode = bytewise pieces.flatten ∨
      marks (pieces.flatMap decode) < marks (bytewise pieces.flatten) := by
  induction pieces with
  | nil => exact .inl rfl
  | cons piece pieces ih =>
      have shape : bytewise (piece ++ pieces.flatten) =
          bytewise piece ++ bytewise pieces.flatten := List.flatMap_append
      rw [List.flatMap_cons, List.flatten_cons, shape, marks_append, marks_append]
      rcases decode_marks piece with same | fewer
      · rw [same]
        exact ih.imp (congrArg _) fun later => Nat.add_lt_add_left later _
      · exact .inr (Nat.add_lt_add_of_lt_of_le fewer (marks_le_of_or ih))

/-- Where every byte stands by itself, no piece cuts a character. -/
theorem flatMap_decode_of_bytewise {pieces : List Bytes}
    (single : decode pieces.flatten = bytewise pieces.flatten) :
    pieces.flatMap decode = decode pieces.flatten := by
  rcases flatMap_decode_marks pieces with same | fewer
  · rw [same, single]
  · have saved := marks_decode_flatten pieces
    rw [single] at saved
    exact absurd fewer (Nat.not_lt.mpr saved)

end Marks

/-! ## Encoded characters -/

theorem Pending.next_of_last {pending : Pending} {byte : Nat} (continues : pending.Continues byte)
    (left : pending.more = 0) :
    pending.next byte continues = (none, [Char.ofNat (pending.value byte)]) := by
  unfold next
  split
  next => rfl
  next more other => exact absurd (other.symm.trans left) (Nat.succ_ne_zero more)

theorem Pending.next_of_more {pending : Pending} {byte more : Nat}
    (continues : pending.Continues byte) (left : pending.more = more + 1) :
    ∃ later, pending.next byte continues = (some later, []) ∧
      later.codePoint = pending.value byte ∧ later.more = more ∧ later.lower = 0x80 ∧
      later.upper = 0xBF := by
  unfold next
  split
  next last => exact absurd (left.symm.trans last) (Nat.succ_ne_zero more)
  next other same =>
    have count : other = more := Nat.succ.inj (same.symm.trans left)
    exact ⟨_, rfl, rfl, count, rfl, rfl⟩

/-- The bytes of a character after its first one, of which `more` follow the next. -/
def tails : Nat → Nat → Bytes
  | 0, number => [UInt8.ofNat (number % 64 + 0x80)]
  | more + 1, number => UInt8.ofNat (number / 64 ^ (more + 1) % 64 + 0x80) :: tails more number

theorem tail_toNat (number : Nat) :
    (UInt8.ofNat (number % 64 + 0x80)).toNat = number % 64 + 0x80 := by
  rw [UInt8.toNat_ofNat']
  omega

/-- A character is completed by the bytes that follow its first one. -/
theorem decodeFrom_tails {pending : Pending} {more number : Nat} (left : pending.more = more)
    (known : pending.codePoint = number / 64 ^ (more + 1))
    (continues : pending.Continues (number / 64 ^ more % 64 + 0x80)) (rest : Bytes) :
    decodeFrom (some pending) (tails more number ++ rest) = Char.ofNat number :: decode rest := by
  have value : pending.value (number / 64 ^ more % 64 + 0x80) = number / 64 ^ more := by
    unfold Pending.value
    rw [known, Nat.pow_succ, ← Nat.div_div_eq_div_mul]
    omega
  induction more generalizing pending with
  | zero =>
      rw [Nat.pow_zero, Nat.div_one] at continues value
      rw [tails, List.singleton_append, decodeFrom, tail_toNat, step, dif_pos continues,
        Pending.next_of_last continues left, value]
      rfl
  | succ more ih =>
      obtain ⟨later, read, codePoint, count, lower, upper⟩ :=
        Pending.next_of_more continues left
      rw [value] at codePoint
      rw [tails, List.cons_append, decodeFrom, tail_toNat, step, dif_pos continues, read]
      refine ih count codePoint ⟨?_, ?_⟩ ?_
      · rw [lower]
        exact Nat.le_add_left _ _
      · rw [upper]
        omega
      · unfold Pending.value
        rw [codePoint, Nat.pow_succ, ← Nat.div_div_eq_div_mul]
        omega

theorem lead_two {byte : Nat} (low : 0xC2 ≤ byte) (high : byte ≤ 0xDF) :
    ∃ pending, lead byte = (some pending, []) ∧ pending.more = 0 ∧
      pending.codePoint = byte - 0xC0 ∧ pending.lower = 0x80 ∧ pending.upper = 0xBF := by
  unfold lead
  rw [if_neg (by omega), dif_pos ⟨low, high⟩]
  exact ⟨_, rfl, rfl, rfl, rfl, rfl⟩

/-- The second byte of three excludes shorter sequences and surrogates. -/
theorem lead_three {byte : Nat} (low : 0xE0 ≤ byte) (high : byte ≤ 0xEF) :
    ∃ pending, lead byte = (some pending, []) ∧ pending.more = 1 ∧
      pending.codePoint = byte - 0xE0 ∧
      pending.lower = (if byte = 0xE0 then 0xA0 else 0x80) ∧
      pending.upper = (if byte = 0xED then 0x9F else 0xBF) := by
  unfold lead
  rw [if_neg (by omega), dif_neg (by omega)]
  by_cases first : byte = 0xE0
  · subst first
    exact ⟨_, rfl, rfl, rfl, rfl, rfl⟩
  · by_cases surrogates : byte = 0xED
    · subst surrogates
      exact ⟨_, rfl, rfl, rfl, rfl, rfl⟩
    · rw [if_neg first, if_neg surrogates, dif_pos ⟨by omega, high, surrogates⟩]
      exact ⟨_, rfl, rfl, rfl, (if_neg first).symm, (if_neg surrogates).symm⟩

/-- The second byte of four excludes shorter sequences and numbers beyond the last character. -/
theorem lead_four {byte : Nat} (low : 0xF0 ≤ byte) (high : byte ≤ 0xF4) :
    ∃ pending, lead byte = (some pending, []) ∧ pending.more = 2 ∧
      pending.codePoint = byte - 0xF0 ∧
      pending.lower = (if byte = 0xF0 then 0x90 else 0x80) ∧
      pending.upper = (if byte = 0xF4 then 0x8F else 0xBF) := by
  unfold lead
  rw [if_neg (by omega), dif_neg (by omega), if_neg (by omega), if_neg (by omega),
    dif_neg (by omega)]
  by_cases first : byte = 0xF0
  · subst first
    exact ⟨_, rfl, rfl, rfl, rfl, rfl⟩
  · by_cases last : byte = 0xF4
    · subst last
      exact ⟨_, rfl, rfl, rfl, rfl, rfl⟩
    · rw [if_neg first, dif_pos ⟨by omega, by omega⟩]
      exact ⟨_, rfl, rfl, rfl, (if_neg first).symm, (if_neg last).symm⟩

/-- A first byte and the bytes that follow it are read as the character with that number. -/
theorem decode_cons_tails {byte : UInt8} {pending : Pending} {more number : Nat}
    (begins : lead byte.toNat = (some pending, [])) (left : pending.more = more)
    (known : pending.codePoint = number / 64 ^ (more + 1))
    (low : pending.lower ≤ number / 64 ^ more % 64 + 0x80)
    (high : number / 64 ^ more % 64 + 0x80 ≤ pending.upper) (rest : Bytes) :
    decode (byte :: (tails more number ++ rest)) = Char.ofNat number :: decode rest := by
  unfold decode
  rw [decodeFrom, step, begins]
  exact decodeFrom_tails left known ⟨low, high⟩ rest

theorem ofNat_byte {lead : Nat} (small : lead < 256) : (UInt8.ofNat lead).toNat = lead := by
  rw [UInt8.toNat_ofNat', Nat.mod_eq_of_lt small]

section Encoded

variable {number : Nat} (rest : Bytes)

theorem decode_two (low : 0x80 ≤ number) (high : number ≤ 0x7FF) :
    decode (UInt8.ofNat (number / 64 % 32 + 0xC0) :: (tails 0 number ++ rest)) =
      Char.ofNat number :: decode rest := by
  have least : 0xC2 ≤ number / 64 % 32 + 0xC0 := by omega
  obtain ⟨pending, begins, left, known, lower, upper⟩ := lead_two least (by omega)
  have whole : (UInt8.ofNat (number / 64 % 32 + 0xC0)).toNat = number / 64 % 32 + 0xC0 :=
    ofNat_byte (by omega)
  rw [← whole] at begins
  exact decode_cons_tails begins left (by omega) (by omega) (by omega) rest

theorem decode_three (low : 0x800 ≤ number) (high : number ≤ 0xFFFF)
    (valid : number.isValidChar) :
    decode (UInt8.ofNat (number / 4096 % 16 + 0xE0) :: (tails 1 number ++ rest)) =
      Char.ofNat number :: decode rest := by
  unfold Nat.isValidChar at valid
  have least : 0xE0 ≤ number / 4096 % 16 + 0xE0 := Nat.le_add_left _ _
  obtain ⟨pending, begins, left, known, lower, upper⟩ := lead_three least (by omega)
  have whole : (UInt8.ofNat (number / 4096 % 16 + 0xE0)).toNat = number / 4096 % 16 + 0xE0 :=
    ofNat_byte (by omega)
  rw [← whole] at begins
  refine decode_cons_tails begins left (by omega) ?_ ?_ rest
  · rw [lower]
    split <;> omega
  · rw [upper]
    split <;> omega

theorem decode_four (low : 0x10000 ≤ number) (valid : number.isValidChar) :
    decode (UInt8.ofNat (number / 262144 % 8 + 0xF0) :: (tails 2 number ++ rest)) =
      Char.ofNat number :: decode rest := by
  unfold Nat.isValidChar at valid
  have least : 0xF0 ≤ number / 262144 % 8 + 0xF0 := Nat.le_add_left _ _
  obtain ⟨pending, begins, left, known, lower, upper⟩ := lead_four least (by omega)
  have whole : (UInt8.ofNat (number / 262144 % 8 + 0xF0)).toNat = number / 262144 % 8 + 0xF0 :=
    ofNat_byte (by omega)
  rw [← whole] at begins
  refine decode_cons_tails begins left (by omega) ?_ ?_ rest
  · rw [lower]
    split <;> omega
  · rw [upper]
    split <;> omega

/-- An encoded character is decoded as itself. -/
theorem decode_encode_append (char : Char) :
    decode (String.utf8EncodeChar char ++ rest) = char :: decode rest := by
  have valid : char.toNat.isValidChar := char.valid
  have same : Char.ofNat char.toNat = char := Char.ofNat_toNat char
  have value : char.val.toNat = char.toNat := rfl
  unfold String.utf8EncodeChar
  simp only [value]
  by_cases one : char.toNat ≤ 0x7F
  · have small : (UInt8.ofNat char.toNat).toNat = char.toNat := ofNat_byte (by omega)
    have low : (UInt8.ofNat char.toNat).toNat < 0x80 := by
      rw [small]
      exact Nat.lt_succ_of_le one
    have read := decodeFrom_append_ascii low none [] rest
    rw [small, same] at read
    rw [if_pos one]
    exact read
  · by_cases two : char.toNat ≤ 0x7FF
    · have read := decode_two rest (Nat.lt_of_not_le one) two
      rw [same] at read
      rw [if_neg one, if_pos two]
      exact read
    · by_cases three : char.toNat ≤ 0xFFFF
      · have read := decode_three rest (Nat.lt_of_not_le two) three valid
        rw [same] at read
        rw [if_neg one, if_neg two, if_pos three]
        exact read
      · have read := decode_four rest (Nat.lt_of_not_le three) valid
        rw [same] at read
        rw [if_neg one, if_neg two, if_neg three]
        exact read

end Encoded

theorem decode_encode (chars : List Char) : decode (encode chars) = chars := by
  induction chars with
  | nil => rfl
  | cons char chars ih =>
      have shape : encode (char :: chars) = String.utf8EncodeChar char ++ encode chars :=
        List.flatMap_cons
      rw [shape, decode_encode_append, ih]

end Utf8
