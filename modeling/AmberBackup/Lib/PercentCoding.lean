import AmberBackup.Lib.Runes

/-! # Percent-encoding

The parts of a URL are printed with escapes and read back, each with its own rules, as Go's
`net/url` does. What is printed is read as the same text exactly if every byte of it is
(`unescape_escape_append`, `readsBack_of_unescape`).
-/

namespace NetUrl

open Utf8 (Bytes isAscii)

/-- The byte of an ASCII character. -/
def byte (char : Char) : UInt8 := char.toUInt8

def bytesOf (text : String) : Bytes := text.toList.map byte

inductive Encoding where
  | path | userPassword | host | zone | fragment
  deriving DecidableEq, Repr

def isDigit (c : UInt8) : Bool := byte '0' ≤ c && c ≤ byte '9'

def isLetter (c : UInt8) : Bool :=
  (byte 'a' ≤ c && c ≤ byte 'z') || (byte 'A' ≤ c && c ≤ byte 'Z')

def shouldEscape (c : UInt8) (mode : Encoding) : Bool :=
  if isLetter c || isDigit c then false
  else if (mode = .host || mode = .zone) && (bytesOf "!$&'()*+,;=:[]<>\"").contains c then false
  else if (bytesOf "-_.~").contains c then false
  else if (bytesOf "$&+,/:;=?@").contains c then
    match mode with
    | .path => c = byte '?'
    | .userPassword => (bytesOf "@/?:").contains c
    | .fragment => false
    | .host | .zone => true
  else if mode = .fragment && (bytesOf "!()*").contains c then false
  else true

inductive ParseError where
  | controlCharacter | missingScheme | firstSegmentColon | invalidUserinfo | missingBracket
  | invalidPort (port : Bytes)
  | invalidEscape (text : Bytes)
  | invalidHost (text : Bytes)
  deriving DecidableEq, Repr

/-! ## Percent-encoding -/

def isHex (c : UInt8) : Bool :=
  isDigit c || (byte 'a' ≤ c && c ≤ byte 'f') || (byte 'A' ≤ c && c ≤ byte 'F')

def unhex (c : UInt8) : UInt8 :=
  if isDigit c then c - byte '0'
  else if byte 'a' ≤ c && c ≤ byte 'f' then c - byte 'a' + 10
  else if byte 'A' ≤ c && c ≤ byte 'F' then c - byte 'A' + 10
  else 0

/-- The byte of two hexadecimal digits. -/
def hexByte (high low : UInt8) : UInt8 := unhex high <<< 4 ||| unhex low

def upperHex (digit : UInt8) : UInt8 :=
  if digit < 10 then byte '0' + digit else byte 'A' + (digit - 10)

/-- The escape of a byte. -/
def percent (c : UInt8) : Bytes := [byte '%', upperHex (c >>> 4), upperHex (c &&& 15)]

def escape (mode : Encoding) (text : Bytes) : Bytes :=
  text.flatMap fun c => if shouldEscape c mode then percent c else [c]

/-- What the mode does not accept as an escape: in a host only `%25` and bytes that are not ASCII,
in a zone only `%25`, a space and bytes that may stand in a host. -/
def refusesEscape (mode : Encoding) (high low : UInt8) : Bool :=
  !(high = byte '2' && low = byte '5') &&
    match mode with
    | .host => unhex high < 8
    | .zone => hexByte high low ≠ byte ' ' && shouldEscape (hexByte high low) .host
    | .path | .userPassword | .fragment => false

/-- What the mode does not accept as it is. -/
def refusesByte (mode : Encoding) (c : UInt8) : Bool :=
  (mode = .host || mode = .zone) && isAscii c && shouldEscape c mode

def unescape (mode : Encoding) : Bytes → Except ParseError Bytes
  | [] => .ok []
  | c :: rest =>
      if c = byte '%' then
        match rest with
        | high :: low :: others =>
            if !(isHex high && isHex low) || refusesEscape mode high low then
              .error (.invalidEscape [c, high, low])
            else (unescape mode others).map (hexByte high low :: ·)
        | short => .error (.invalidEscape (c :: short))
      else if refusesByte mode c then .error (.invalidHost [c])
      else (unescape mode rest).map (c :: ·)

section Bytes

variable {c : UInt8}

/-! ## Kinds of bytes -/

/-- A byte of a printed ASCII character other than the blank. -/
def isVisible (c : UInt8) : Bool := 0x21 ≤ c && c ≤ 0x7E

theorem isVisible_of_range {first last : UInt8} (range : (first ≤ c && c ≤ last) = true)
    (low : isVisible first = true) (high : isVisible last = true) : isVisible c = true := by
  obtain ⟨above, below⟩ := Bool.and_eq_true_iff.mp range
  have least := of_decide_eq_true (Bool.and_eq_true_iff.mp low).1
  have most := of_decide_eq_true (Bool.and_eq_true_iff.mp high).2
  exact Bool.and_eq_true_iff.mpr
    ⟨decide_eq_true (UInt8.le_trans least (of_decide_eq_true above)),
      decide_eq_true (UInt8.le_trans (of_decide_eq_true below) most)⟩

theorem isVisible_of_isDigit (digit : isDigit c = true) : isVisible c = true :=
  isVisible_of_range digit (by decide) (by decide)

theorem isVisible_of_isLetter (letter : isLetter c = true) : isVisible c = true := by
  rcases Bool.or_eq_true_iff.mp letter with lower | upper
  · exact isVisible_of_range lower (by decide) (by decide)
  · exact isVisible_of_range upper (by decide) (by decide)

theorem isVisible_of_contains {allowed : Bytes} (all : allowed.all isVisible = true)
    (member : allowed.contains c = true) : isVisible c = true :=
  List.all_eq_true.mp all c (List.contains_iff_mem.mp member)

theorem isAscii_of_isVisible (visible : isVisible c = true) : isAscii c = true := by
  have most := of_decide_eq_true (Bool.and_eq_true_iff.mp visible).2
  exact decide_eq_true (UInt8.lt_of_le_of_lt most (by decide))

theorem isAscii_of_isDigit (digit : isDigit c = true) : isAscii c = true :=
  isAscii_of_isVisible (isVisible_of_isDigit digit)

theorem isLetter_or_isDigit (hex : isHex c = true) : isLetter c = true ∨ isDigit c = true := by
  have within : ∀ first last top : UInt8, last ≤ top → (first ≤ c && c ≤ last) = true →
      (first ≤ c && c ≤ top) = true := by
    intro first last top order range
    obtain ⟨above, below⟩ := Bool.and_eq_true_iff.mp range
    exact Bool.and_eq_true_iff.mpr
      ⟨above, decide_eq_true (UInt8.le_trans (of_decide_eq_true below) order)⟩
  rcases Bool.or_eq_true_iff.mp hex with digitOrLower | upper
  · rcases Bool.or_eq_true_iff.mp digitOrLower with digit | lower
    · exact .inr digit
    · exact .inl (Bool.or_eq_true_iff.mpr (.inl (within _ _ _ (by decide) lower)))
  · exact .inl (Bool.or_eq_true_iff.mpr (.inr (within _ _ _ (by decide) upper)))

theorem isAscii_of_isHex (hex : isHex c = true) : isAscii c = true := by
  rcases isLetter_or_isDigit hex with letter | digit
  · exact isAscii_of_isVisible (isVisible_of_isLetter letter)
  · exact isAscii_of_isDigit digit

theorem shouldEscape_of_isDigit (digit : isDigit c = true) (mode : Encoding) :
    shouldEscape c mode = false := by
  unfold shouldEscape
  rw [digit, Bool.or_true, if_pos rfl]

theorem shouldEscape_of_isLetter (letter : isLetter c = true) (mode : Encoding) :
    shouldEscape c mode = false := by
  unfold shouldEscape
  rw [letter, Bool.true_or, if_pos rfl]

/-- A host and a zone are printed alike. -/
theorem shouldEscape_zone (c : UInt8) : shouldEscape c .zone = shouldEscape c .host := rfl

theorem shouldEscape_of_isHex (hex : isHex c = true) (mode : Encoding) :
    shouldEscape c mode = false := by
  rcases isLetter_or_isDigit hex with letter | digit
  · exact shouldEscape_of_isLetter letter mode
  · exact shouldEscape_of_isDigit digit mode

/-- What is printed without an escape is visible. -/
theorem isVisible_of_plain {mode : Encoding} (plain : shouldEscape c mode = false) :
    isVisible c = true := by
  unfold shouldEscape at plain
  split at plain
  next named =>
    rcases Bool.or_eq_true_iff.mp named with letter | digit
    · exact isVisible_of_isLetter letter
    · exact isVisible_of_isDigit digit
  · split at plain
    next allowed =>
      exact isVisible_of_contains (by decide) (Bool.and_eq_true_iff.mp allowed).2
    · split at plain
      next allowed => exact isVisible_of_contains (by decide) allowed
      · split at plain
        next special => exact isVisible_of_contains (by decide) special
        · split at plain
          next allowed =>
            exact isVisible_of_contains (by decide) (Bool.and_eq_true_iff.mp allowed).2
          · cases plain

theorem isAscii_of_plain {mode : Encoding} (plain : shouldEscape c mode = false) :
    isAscii c = true := isAscii_of_isVisible (isVisible_of_plain plain)

end Bytes

/-! ## Escapes -/

section Coding

variable {mode printed : Encoding} {c : UInt8} {text value rest : Bytes}

def highDigit (c : UInt8) : UInt8 := upperHex (c >>> 4)

def lowDigit (c : UInt8) : UInt8 := upperHex (c &&& 15)

/-- What holds of the sixteen digits one by one. -/
theorem of_digits {property : UInt8 → Bool}
    (all : ∀ number : Fin 16, property (UInt8.ofNat number) = true) {digit : UInt8}
    (small : digit < 16) : property digit = true := by
  have holds := all ⟨digit.toNat, UInt8.lt_iff_toNat_lt.mp small⟩
  rwa [UInt8.ofNat_toNat] at holds

theorem upperHex_reads {digit : UInt8} (small : digit < 16) :
    isHex (upperHex digit) = true ∧ unhex (upperHex digit) = digit := by
  have all := @of_digits (fun digit => isHex (upperHex digit) && unhex (upperHex digit) = digit)
    (by decide) digit small
  rw [Bool.and_eq_true] at all
  exact ⟨all.1, of_decide_eq_true all.2⟩

/-- The place of a byte in a range of at most sixteen. -/
theorem sub_add_lt {c first more : UInt8} (from_first : first ≤ c)
    (near : c.toNat + more.toNat < first.toNat + 16) : c - first + more < 16 := by
  rw [UInt8.lt_iff_toNat_lt, UInt8.toNat_add, UInt8.toNat_sub_of_le _ _ from_first]
  have order := UInt8.le_iff_toNat_le.mp from_first
  change _ < 16
  omega

theorem unhex_lt (c : UInt8) : unhex c < 16 := by
  unfold unhex isDigit
  split
  next range =>
    obtain ⟨low, high⟩ := Bool.and_eq_true_iff.mp range
    have top : c.toNat ≤ 57 := UInt8.le_iff_toNat_le.mp (of_decide_eq_true high)
    have place := @sub_add_lt c (byte '0') 0 (of_decide_eq_true low) (by
      change c.toNat + 0 < 48 + 16
      omega)
    rwa [UInt8.add_zero] at place
  · split
    next range =>
      obtain ⟨low, high⟩ := Bool.and_eq_true_iff.mp range
      have top : c.toNat ≤ 102 := UInt8.le_iff_toNat_le.mp (of_decide_eq_true high)
      exact sub_add_lt (of_decide_eq_true low) (by
        change c.toNat + 10 < 97 + 16
        omega)
    · split
      next range =>
        obtain ⟨low, high⟩ := Bool.and_eq_true_iff.mp range
        have top : c.toNat ≤ 70 := UInt8.le_iff_toNat_le.mp (of_decide_eq_true high)
        exact sub_add_lt (of_decide_eq_true low) (by
          change c.toNat + 10 < 65 + 16
          omega)
      · decide

theorem high_lt (c : UInt8) : c >>> 4 < 16 := by
  have bound := c.toNat_lt
  rw [UInt8.lt_iff_toNat_lt, UInt8.toNat_shiftRight]
  change c.toNat >>> 4 < 16
  rw [Nat.shiftRight_eq_div_pow]
  omega

theorem low_lt (c : UInt8) : c &&& 15 < 16 := by
  rw [UInt8.lt_iff_toNat_lt, UInt8.toNat_and]
  exact Nat.lt_succ_of_le Nat.and_le_right

/-- The first digit of a byte that is not ASCII is at least eight. -/
theorem unhex_highDigit (other : isAscii c = false) : ¬ unhex (highDigit c) < 8 := by
  have large : 0x80 ≤ c.toNat := by
    rw [isAscii, decide_eq_false_iff_not, UInt8.lt_iff_toNat_lt] at other
    exact Nat.not_lt.mp other
  have digit : (c >>> 4).toNat = c.toNat / 16 := by
    rw [UInt8.toNat_shiftRight]
    exact Nat.shiftRight_eq_div_pow _ _
  unfold highDigit
  rw [(upperHex_reads (high_lt c)).2, UInt8.lt_iff_toNat_lt, digit]
  change ¬ _ < 8
  omega

/-- The byte of two digits of which the first is at least eight. -/
theorem isAscii_hexByte {high low : UInt8} (large : ¬ unhex high < 8) :
    isAscii (hexByte high low) = false := by
  have all := @of_digits (fun digit => digit < 8 || 0x80 ≤ (digit <<< 4).toNat)
    (by decide) (unhex high) (unhex_lt high)
  simp only [large, decide_false, Bool.false_or, decide_eq_true_eq] at all
  unfold isAscii hexByte
  rw [decide_eq_false_iff_not, UInt8.lt_iff_toNat_lt, UInt8.toNat_or]
  exact Nat.not_lt.mpr (Nat.le_trans all Nat.left_le_or)

/-- A byte is put together from its halves. -/
theorem halves_or (c : UInt8) : c >>> 4 <<< 4 ||| (c &&& 15) = c := by
  have bound := c.toNat_lt
  have high : (c >>> 4 <<< 4).toNat = (c.toNat / 2 ^ 4) <<< 4 := by
    rw [UInt8.toNat_shiftLeft, UInt8.toNat_shiftRight]
    change (c.toNat >>> 4) <<< 4 % 2 ^ 8 = _
    rw [Nat.shiftRight_eq_div_pow, Nat.shiftLeft_eq]
    omega
  have low : (c &&& 15).toNat = c.toNat % 2 ^ 4 := by
    rw [UInt8.toNat_and]
    exact Nat.and_two_pow_sub_one_eq_mod c.toNat 4
  apply UInt8.toNat_inj.mp
  rw [UInt8.toNat_or, high, low,
    ← Nat.shiftLeft_add_eq_or_of_lt (Nat.mod_lt _ (by decide)), Nat.shiftLeft_eq]
  exact Nat.div_add_mod' c.toNat (2 ^ 4)

theorem percent_reads (c : UInt8) :
    isHex (highDigit c) = true ∧ isHex (lowDigit c) = true ∧
      hexByte (highDigit c) (lowDigit c) = c := by
  obtain ⟨high, same⟩ := upperHex_reads (high_lt c)
  obtain ⟨low, same'⟩ := upperHex_reads (low_lt c)
  refine ⟨high, low, ?_⟩
  unfold hexByte highDigit lowDigit
  rw [same, same', halves_or]

theorem shouldEscape_percent (mode : Encoding) : shouldEscape (byte '%') mode = true := by
  cases mode <;> decide

/-- The printed form of a byte is read as the byte. -/
def readsBack (printed mode : Encoding) (c : UInt8) : Bool :=
  if shouldEscape c printed then !refusesEscape mode (highDigit c) (lowDigit c)
  else !refusesByte mode c

theorem unescape_percent (c : UInt8) (rest : Bytes) :
    unescape mode (percent c ++ rest) =
      if refusesEscape mode (highDigit c) (lowDigit c) then
        .error (.invalidEscape (percent c))
      else (unescape mode rest).map (c :: ·) := by
  obtain ⟨high, low, same⟩ := percent_reads c
  change unescape mode (byte '%' :: highDigit c :: lowDigit c :: rest) = _
  rw [unescape, if_pos rfl]
  simp only [high, low, same, Bool.and_self, Bool.not_true, Bool.false_or]
  rfl

theorem unescape_cons (other : c ≠ byte '%') (rest : Bytes) :
    unescape mode (c :: rest) =
      if refusesByte mode c then .error (.invalidHost [c]) else (unescape mode rest).map (c :: ·) := by
  rw [unescape.eq_def]
  exact if_neg other

theorem escape_append (mode : Encoding) (first second : Bytes) :
    escape mode (first ++ second) = escape mode first ++ escape mode second := List.flatMap_append

theorem escape_cons (mode : Encoding) (c : UInt8) (text : Bytes) :
    escape mode (c :: text) =
      (if shouldEscape c mode then percent c else [c]) ++ escape mode text := List.flatMap_cons

theorem escape_eq_nil : escape mode text = [] ↔ text = [] := by
  cases text with
  | nil => exact Iff.rfl
  | cons c rest =>
      rw [escape_cons]
      split <;> simp [percent]

/-- What is printed ends in the last byte or in a digit of its escape. -/
theorem getLast_escape (last : (escape mode text).getLast? = some c) :
    text.getLast? = some c ∨ isHex c = true := by
  rcases List.eq_nil_or_concat' text with rfl | ⟨init, d, rfl⟩
  · cases last
  · rw [escape_append, escape_cons] at last
    split at last
    · right
      have shape : escape mode init ++ (percent d ++ escape mode []) =
          (escape mode init ++ [byte '%', highDigit d]) ++ [lowDigit d] := by
        rw [List.append_assoc]
        rfl
      rw [shape, List.getLast?_concat] at last
      rw [← Option.some.inj last]
      exact (percent_reads d).2.1
    · left
      change (escape mode init ++ [d]).getLast? = _ at last
      rwa [List.getLast?_concat] at last ⊢

/-- **Percent-encoding is read back.** -/
theorem unescape_escape_append (reads : ∀ c ∈ text, readsBack printed mode c = true)
    (rest : Bytes) :
    unescape mode (escape printed text ++ rest) = (unescape mode rest).map (text ++ ·) := by
  induction text with
  | nil =>
      change unescape mode rest = (unescape mode rest).map id
      cases unescape mode rest <;> rfl
  | cons c text ih =>
      have later := ih fun other member => reads other (List.mem_cons_of_mem _ member)
      have reading := reads c List.mem_cons_self
      rw [escape_cons, List.append_assoc]
      unfold readsBack at reading
      split at reading
      case isTrue special =>
        rw [if_pos special, unescape_percent, later, if_neg (by simpa using reading)]
        cases unescape mode rest <;> rfl
      case isFalse plain =>
        have other : c ≠ byte '%' := by
          rintro rfl
          exact plain (shouldEscape_percent printed)
        rw [if_neg plain, List.singleton_append, unescape_cons other, later,
          if_neg (by simpa using reading)]
        cases unescape mode rest <;> rfl

theorem unescape_escape (reads : ∀ c ∈ text, readsBack printed mode c = true) :
    unescape mode (escape printed text) = .ok text := by
  have whole := unescape_escape_append reads []
  rw [List.append_nil] at whole
  rw [whole]
  exact congrArg Except.ok (List.append_nil text)

/-- What is read at all is read back. -/
theorem readsBack_of_unescape (read : unescape mode (escape printed text) = .ok value) :
    ∀ c ∈ text, readsBack printed mode c = true := by
  induction text generalizing value with
  | nil => exact List.forall_mem_nil _
  | cons c text ih =>
      have of_map : ∀ {result : Except ParseError Bytes},
          result.map (c :: ·) = .ok value → ∃ later, result = .ok later := by
        intro result mapped
        cases result with
        | error error => cases mapped
        | ok later => exact ⟨later, rfl⟩
      rw [escape_cons] at read
      have both : readsBack printed mode c = true ∧
          ∃ later, unescape mode (escape printed text) = .ok later := by
        unfold readsBack
        split at read
        case isTrue special =>
          rw [unescape_percent] at read
          split at read
          · cases read
          next accepted =>
            rw [if_pos special]
            exact ⟨by simpa using accepted, of_map read⟩
        case isFalse plain =>
          have other : c ≠ byte '%' := by
            rintro rfl
            exact plain (shouldEscape_percent printed)
          rw [List.singleton_append, unescape_cons other] at read
          split at read
          · cases read
          next accepted =>
            rw [if_neg plain]
            exact ⟨by simpa using accepted, of_map read⟩
      obtain ⟨first, later, others⟩ := both
      exact List.forall_mem_cons.mpr ⟨first, ih others⟩

/-- What holds of a text and what it is read as. -/
theorem unescape_induction {motive : Bytes → Bytes → Prop} (nil : motive [] [])
    (escaped : ∀ high low others value, refusesEscape mode high low = false →
      isHex high = true → isHex low = true → motive others value →
        motive (byte '%' :: high :: low :: others) (hexByte high low :: value))
    (plain : ∀ c rest value, c ≠ byte '%' → refusesByte mode c = false → motive rest value →
      motive (c :: rest) (c :: value))
    (read : unescape mode text = .ok value) : motive text value := by
  have of_map : ∀ {c : UInt8} {result : Except ParseError Bytes} {value : Bytes},
      result.map (c :: ·) = .ok value → ∃ later, result = .ok later ∧ value = c :: later := by
    intro c result value mapped
    cases result with
    | error error => cases mapped
    | ok later =>
        cases mapped
        exact ⟨later, rfl, rfl⟩
  induction size : text.length using Nat.strongRecOn generalizing text value with
  | ind length ih =>
      subst size
      cases text with
      | nil =>
          cases read
          exact nil
      | cons c rest =>
          rw [unescape.eq_def] at read
          simp only at read
          split at read
          next mark =>
            split at read
            next high low others =>
              split at read
              · cases read
              next accepted =>
                obtain ⟨later, same, rfl⟩ := of_map read
                simp only [Bool.or_eq_true, Bool.not_eq_true', Bool.and_eq_false_iff, not_or,
                  Bool.not_eq_false, Bool.not_eq_true] at accepted
                rw [mark]
                exact escaped high low others later accepted.2 accepted.1.1 accepted.1.2
                  (ih _ (by simp; omega) same rfl)
            · cases read
          next other =>
            split at read
            · cases read
            next accepted =>
              obtain ⟨later, same, rfl⟩ := of_map read
              exact plain c rest later other (by simpa using accepted) (ih _ (by simp) same rfl)

end Coding

end NetUrl
