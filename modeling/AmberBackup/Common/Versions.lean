import Mathlib.Data.List.TakeWhile
import AmberBackup.GoAgent.Restic
import AmberBackup.Jobs.IntegrityChecks
import AmberBackup.Lib.NatDouble

/-! # Versions

The agent and the command line update themselves to versions that are greater. Versions are compared
number by number, and what is no number counts as 0. The web client compares a release with its own
version to hint at an upgrade, and the server asks whether an agent is too old for a check, each with
a parser of its own. On versions of releases all comparisons are the order of the numbers
(`versions_agree`).
-/

namespace AmberBackup

open GoAgent (isSpace trimSpace)

/-- The number of decimal digits. -/
def decimal (digits : List Char) : Nat := Nat.ofDigitChars 10 digits 0

/-- `fmt.Sscanf(text, "%d", &n)`: the number the text begins with, 0 where there is none or it is
out of range. A line feed is not passed over. -/
def scanInt (text : List Char) : Int :=
  let rest := text.dropWhile fun char => isSpace char && char ≠ '\n'
  let negative := rest.head? = some '-'
  let unsigned := if rest.head? = some '-' || rest.head? = some '+' then rest.tail else rest
  let number := decimal (unsigned.takeWhile Char.isDigit)
  if negative then if number ≤ 2 ^ 63 then -number else 0
  else if number < 2 ^ 63 then number else 0

/-- The text up to the next dot, and what comes after it. -/
def cutDot (text : List Char) : List Char × List Char :=
  (text.takeWhile (· ≠ '.'), (text.dropWhile (· ≠ '.')).tail)

/-- `[3]int` of a version. -/
def parseVersion (text : String) : Int × Int × Int :=
  let trimmed := (trimSpace text).toList
  let version := if trimmed.head? = some 'v' then trimmed.tail else trimmed
  let (major, later) := cutDot version
  let (minor, patch) := cutDot later
  (scanInt major, scanInt minor, scanInt patch)

/-- Whether the first version is strictly newer. -/
def versionGreater (first second : String) : Bool :=
  let (major, minor, patch) := parseVersion first
  let (major', minor', patch') := parseVersion second
  if major ≠ major' then major > major'
  else if minor ≠ minor' then minor > minor'
  else patch > patch'

/-- `\d+\.\d+\.\d+`. -/
def isReleaseVersion (text : List Char) : Bool :=
  match text.splitOn '.' with
  | [major, minor, patch] =>
      [major, minor, patch].all fun digits => digits ≠ [] && digits.all Char.isDigit
  | _ => false

/-- The version of a release tag, `^v(\d+\.\d+\.\d+)$`. -/
def releaseVersion? (tag : String) : Option String :=
  match tag.toList with
  | 'v' :: version => if isReleaseVersion version then some (String.ofList version) else none
  | _ => none

/-! ## The client -/

/-- What `Number.parseInt` passes over. -/
def parseIntSpace (char : Char) : Bool :=
  asciiSpace char || spaceSeparator char || char.toNat = 0xFEFF

/-- `Number.parseInt(n, 10) || 0` of a part without signs. -/
def partNumber (part : List Char) : NatDouble :=
  .ofNat (decimal ((part.dropWhile parseIntSpace).takeWhile Char.isDigit))

/-- The text up to the next of `.`, `+` and `-`, and what comes after it. -/
def cutSeparator (text : List Char) : List Char × List Char :=
  let separator := fun char => char = '.' || char = '+' || char = '-'
  (text.takeWhile fun char => !separator char, (text.dropWhile fun char => !separator char).tail)

def parseClientVersion (text : String) : NatDouble × NatDouble × NatDouble :=
  let version := if text.toList.head? = some 'v' then text.toList.tail else text.toList
  let (major, later) := cutSeparator version
  let (minor, rest) := cutSeparator later
  (partNumber major, partNumber minor, partNumber (cutSeparator rest).1)

/-- `x > y`. -/
def exceeds : NatDouble → NatDouble → Bool
  | .finite number, .finite other => number > other
  | .infinity, .finite _ => true
  | _, .infinity => false

/-- `isNewerVersion` of the client. -/
def isNewerVersion (candidate current : String) : Bool :=
  let (major, minor, patch) := parseClientVersion candidate
  let (major', minor', patch') := parseClientVersion current
  if major ≠ major' then exceeds major major'
  else if minor ≠ minor' then exceeds minor minor'
  else exceeds patch patch'

section Order

variable {first second third : String}

theorem versionGreater_iff :
    versionGreater first second = true ↔
      (parseVersion second).1 < (parseVersion first).1 ∨
        (parseVersion second).1 = (parseVersion first).1 ∧
          ((parseVersion second).2.1 < (parseVersion first).2.1 ∨
            (parseVersion second).2.1 = (parseVersion first).2.1 ∧
              (parseVersion second).2.2 < (parseVersion first).2.2) := by
  unfold versionGreater
  generalize parseVersion first = version
  generalize parseVersion second = other
  obtain ⟨major, minor, patch⟩ := version
  obtain ⟨major', minor', patch'⟩ := other
  dsimp only
  split
  · rw [decide_eq_true_eq]
    omega
  · split <;> rw [decide_eq_true_eq] <;> omega

theorem versionGreater_irrefl : versionGreater first first = false := by
  rw [← Bool.not_eq_true, versionGreater_iff]
  omega

theorem versionGreater_trans (newer : versionGreater first second = true)
    (new : versionGreater second third = true) : versionGreater first third = true := by
  rw [versionGreater_iff] at *
  omega

end Order

/-! ## Versions of releases -/

/-- A number as a version spells it. -/
structure Digits (digits : List Char) : Prop where
  nonempty : digits ≠ []
  all : ∀ char ∈ digits, char.isDigit = true

/-- What may follow the numbers: nothing, or a label after a plus or minus sign. -/
structure Label (label : List Char) : Prop where
  marked : label = [] ∨ ∃ mark rest, label = mark :: rest ∧ (mark = '-' ∨ mark = '+')
  spaceless : ∀ char ∈ label, isSpace char = false

/-- A version of a release, with the digits of its numbers. -/
structure ReleaseText (text : String) (major minor patch : List Char) : Prop where
  first : Digits major
  second : Digits minor
  third : Digits patch
  spelled : ∃ label, Label label ∧
    text.toList = major ++ '.' :: (minor ++ '.' :: (patch ++ label))

section Release

variable {major minor patch digits rest label : List Char} {text : String}

theorem isSpace_of_isDigit {char : Char} (digit : char.isDigit = true) : isSpace char = false := by
  obtain ⟨low, high⟩ : 48 ≤ char.toNat ∧ char.toNat ≤ 57 := Char.isDigit_iff_toNat.mp digit
  simp only [isSpace, asciiSpace, spaceSeparator, Bool.or_eq_false_iff, Bool.and_eq_false_iff,
    decide_eq_false_iff_not]
  omega

theorem parseIntSpace_of_isDigit {char : Char} (digit : char.isDigit = true) :
    parseIntSpace char = false := by
  obtain ⟨low, high⟩ : 48 ≤ char.toNat ∧ char.toNat ≤ 57 := Char.isDigit_iff_toNat.mp digit
  simp only [parseIntSpace, asciiSpace, spaceSeparator, Bool.or_eq_false_iff, Bool.and_eq_false_iff,
    decide_eq_false_iff_not]
  omega

theorem ne_of_isDigit {char other : Char} (digit : char.isDigit = true)
    (noDigit : other.isDigit = false) : char ≠ other := by
  rintro rfl
  rw [digit] at noDigit
  cases noDigit

/-- A text of digits begins with a digit, and so does what it is followed by. -/
theorem Digits.head (number : Digits digits) (rest : List Char) :
    ∃ char others, digits ++ rest = char :: others ∧ char.isDigit = true := by
  cases digits with
  | nil => exact absurd rfl number.nonempty
  | cons char others => exact ⟨char, others ++ rest, rfl, number.all char List.mem_cons_self⟩

/-- Nothing in front of a digit is passed over. -/
theorem Digits.dropWhile (number : Digits digits) (rest : List Char) {passes : Char → Bool}
    (stops : ∀ char, char.isDigit = true → passes char = false) :
    (digits ++ rest).dropWhile passes = digits ++ rest := by
  obtain ⟨char, others, begins, digit⟩ := number.head rest
  rw [begins]
  exact List.dropWhile_cons_of_neg (by rw [stops char digit]; exact Bool.false_ne_true)

/-- The digits up to something else. -/
theorem Digits.takeWhile (number : Digits digits)
    (ends : ∀ char, rest.head? = some char → char.isDigit = false) :
    (digits ++ rest).takeWhile Char.isDigit = digits := by
  rw [List.takeWhile_append_of_pos number.all]
  cases rest with
  | nil => exact List.append_nil digits
  | cons char others =>
      rw [List.takeWhile_cons_of_neg (by rw [ends char rfl]; exact Bool.false_ne_true),
        List.append_nil]

theorem Digits.head_ne (number : Digits digits) (rest : List Char) {char : Char}
    (noDigit : char.isDigit = false) : (digits ++ rest).head? ≠ some char := by
  obtain ⟨first, others, begins, digit⟩ := number.head rest
  rw [begins, List.head?_cons]
  exact fun same => ne_of_isDigit digit noDigit (Option.some.inj same)

theorem scanInt_digits (number : Digits digits) (small : decimal digits < 2 ^ 63)
    (ends : ∀ char, rest.head? = some char → char.isDigit = false) :
    scanInt (digits ++ rest) = decimal digits := by
  unfold scanInt
  dsimp only
  rw [number.dropWhile rest fun char digit => by rw [isSpace_of_isDigit digit]; rfl,
    decide_eq_false (number.head_ne rest (by decide)),
    decide_eq_false (number.head_ne rest (by decide)),
    if_neg (number.head_ne rest (by decide))]
  simp only [Bool.or_false, Bool.false_eq_true, if_false, number.takeWhile ends, if_pos small]

theorem partNumber_digits (number : Digits digits) (small : decimal digits < 2 ^ 53) :
    partNumber digits = .finite (decimal digits) := by
  have dropped := number.dropWhile [] fun char digit => parseIntSpace_of_isDigit digit
  have taken : (digits ++ []).takeWhile Char.isDigit = digits := number.takeWhile nofun
  rw [List.append_nil] at dropped taken
  unfold partNumber
  rw [dropped, taken, NatDouble.ofNat_of_lt small]

/-- A number is cut off at the dot after it. -/
theorem cutDot_digits (number : Digits digits) (rest : List Char) :
    cutDot (digits ++ '.' :: rest) = (digits, rest) := by
  have noDot : ∀ char ∈ digits, decide (char ≠ '.') = true := fun char member =>
    decide_eq_true (ne_of_isDigit (number.all char member) (by decide))
  unfold cutDot
  rw [List.takeWhile_append_of_pos noDot, List.dropWhile_append_of_pos noDot]
  simp

theorem cutSeparator_digits (number : Digits digits) {rest : List Char}
    (ends : rest = [] ∨ ∃ mark others, rest = mark :: others ∧
      (mark = '.' ∨ mark = '+' ∨ mark = '-')) :
    cutSeparator (digits ++ rest) = (digits, rest.tail) := by
  have plain : ∀ char ∈ digits,
      (!(decide (char = '.') || decide (char = '+') || decide (char = '-'))) = true := by
    intro char member
    have digit := number.all char member
    rw [decide_eq_false (ne_of_isDigit digit (by decide)),
      decide_eq_false (ne_of_isDigit digit (by decide)),
      decide_eq_false (ne_of_isDigit digit (by decide))]
    rfl
  unfold cutSeparator
  dsimp only
  rw [List.takeWhile_append_of_pos plain, List.dropWhile_append_of_pos plain]
  rcases ends with rfl | ⟨mark, others, rfl, rfl | rfl | rfl⟩ <;> simp

theorem trimSpace_of_spaceless (spaceless : ∀ char ∈ text.toList, isSpace char = false) :
    trimSpace text = text := by
  have kept : ∀ {chars : List Char}, (∀ char ∈ chars, isSpace char = false) →
      chars.dropWhile isSpace = chars := by
    intro chars plain
    cases chars with
    | nil => rfl
    | cons char others =>
        refine List.dropWhile_cons_of_neg ?_
        rw [plain char List.mem_cons_self]
        exact Bool.false_ne_true
  unfold trimSpace trimWith
  rw [kept spaceless, kept fun char member => spaceless char (List.mem_reverse.mp member),
    List.reverse_reverse, String.ofList_toList]

theorem ReleaseText.spaceless (release : ReleaseText text major minor patch) :
    ∀ char ∈ text.toList, isSpace char = false := by
  obtain ⟨label, labelled, spelled⟩ := release.spelled
  intro char member
  rw [spelled] at member
  simp only [List.mem_append, List.mem_cons] at member
  rcases member with number | rfl | number | rfl | number | last
  · exact isSpace_of_isDigit (release.first.all char number)
  · decide
  · exact isSpace_of_isDigit (release.second.all char number)
  · decide
  · exact isSpace_of_isDigit (release.third.all char number)
  · exact labelled.spaceless char last

theorem Label.head_isDigit (labelled : Label label) :
    ∀ char, label.head? = some char → char.isDigit = false := by
  intro char begins
  rcases labelled.marked with rfl | ⟨mark, rest, rfl, rfl | rfl⟩
  · cases begins
  · cases begins
    decide
  · cases begins
    decide

theorem parseVersion_release (release : ReleaseText text major minor patch)
    (smallMajor : decimal major < 2 ^ 63) (smallMinor : decimal minor < 2 ^ 63)
    (smallPatch : decimal patch < 2 ^ 63) :
    parseVersion text = (↑(decimal major), ↑(decimal minor), ↑(decimal patch)) := by
  have noRest : ∀ {number : List Char}, Digits number → decimal number < 2 ^ 63 →
      scanInt number = decimal number := by
    intro number digits small
    have scanned : scanInt (number ++ []) = decimal number := scanInt_digits digits small nofun
    rwa [List.append_nil] at scanned
  obtain ⟨label, labelled, spelled⟩ := release.spelled
  unfold parseVersion
  rw [trimSpace_of_spaceless release.spaceless, spelled]
  dsimp only
  rw [if_neg (release.first.head_ne _ (by decide)), cutDot_digits release.first,
    cutDot_digits release.second, noRest release.first smallMajor, noRest release.second smallMinor,
    scanInt_digits release.third smallPatch labelled.head_isDigit]

theorem parseClientVersion_release (release : ReleaseText text major minor patch)
    (smallMajor : decimal major < 2 ^ 53) (smallMinor : decimal minor < 2 ^ 53)
    (smallPatch : decimal patch < 2 ^ 53) :
    parseClientVersion text =
      (.finite (decimal major), .finite (decimal minor), .finite (decimal patch)) := by
  obtain ⟨label, labelled, spelled⟩ := release.spelled
  have third : label = [] ∨ ∃ mark rest, label = mark :: rest ∧
      (mark = '.' ∨ mark = '+' ∨ mark = '-') := by
    rcases labelled.marked with none | ⟨mark, rest, same, dash | plus⟩
    · exact .inl none
    · exact .inr ⟨mark, rest, same, .inr (.inr dash)⟩
    · exact .inr ⟨mark, rest, same, .inr (.inl plus)⟩
  unfold parseClientVersion
  rw [spelled, if_neg (release.first.head_ne _ (by decide))]
  dsimp only
  rw [cutSeparator_digits release.first (.inr ⟨'.', _, rfl, .inl rfl⟩)]
  dsimp only
  rw [List.tail_cons, cutSeparator_digits release.second (.inr ⟨'.', _, rfl, .inl rfl⟩)]
  dsimp only
  rw [List.tail_cons, cutSeparator_digits release.third third,
    partNumber_digits release.first smallMajor, partNumber_digits release.second smallMinor,
    partNumber_digits release.third smallPatch]

/-- The numbers of one version are greater than those of another. -/
def Greater (numbers others : Nat × Nat × Nat) : Prop :=
  others.1 < numbers.1 ∨ others.1 = numbers.1 ∧
    (others.2.1 < numbers.2.1 ∨ others.2.1 = numbers.2.1 ∧ others.2.2 < numbers.2.2)

theorem versionGreater_release {other : String} {major' minor' patch' : List Char}
    (release : ReleaseText text major minor patch) (before : ReleaseText other major' minor' patch')
    (small : ∀ digits ∈ [major, minor, patch, major', minor', patch'], decimal digits < 2 ^ 63) :
    versionGreater text other = true ↔
      Greater (decimal major, decimal minor, decimal patch)
        (decimal major', decimal minor', decimal patch') := by
  rw [versionGreater_iff,
    parseVersion_release release (small _ (by simp)) (small _ (by simp)) (small _ (by simp)),
    parseVersion_release before (small _ (by simp)) (small _ (by simp)) (small _ (by simp))]
  unfold Greater
  dsimp only
  omega

theorem isNewerVersion_release {other : String} {major' minor' patch' : List Char}
    (release : ReleaseText text major minor patch) (before : ReleaseText other major' minor' patch')
    (small : ∀ digits ∈ [major, minor, patch, major', minor', patch'], decimal digits < 2 ^ 53) :
    isNewerVersion text other = true ↔
      Greater (decimal major, decimal minor, decimal patch)
        (decimal major', decimal minor', decimal patch') := by
  have apart : ∀ number other : Nat,
      (NatDouble.finite number ≠ .finite other) = (number ≠ other) := by
    intro number other
    rw [ne_eq, NatDouble.finite.injEq]
  unfold isNewerVersion
  rw [
    parseClientVersion_release release (small _ (by simp)) (small _ (by simp)) (small _ (by simp)),
    parseClientVersion_release before (small _ (by simp)) (small _ (by simp)) (small _ (by simp))]
  unfold exceeds Greater
  dsimp only
  simp only [apart]
  split
  · rw [decide_eq_true_eq]
    omega
  · split <;> rw [decide_eq_true_eq] <;> omega

/-! ### The server -/

theorem splitDots_head (text : List Char) :
    ∃ parts, splitDots text = text.takeWhile (· ≠ '.') :: parts := by
  induction text with
  | nil => exact ⟨[], rfl⟩
  | cons char rest ih =>
      obtain ⟨parts, split⟩ := ih
      by_cases dot : char = '.'
      · subst dot
        exact ⟨splitDots rest, by simp [splitDots]⟩
      · refine ⟨parts, ?_⟩
        rw [splitDots.eq_3 char rest dot, split, List.takeWhile_cons, if_pos (decide_eq_true dot)]

theorem splitDots_digits (number : ∀ char ∈ digits, char.isDigit = true) (rest : List Char) :
    splitDots (digits ++ '.' :: rest) = digits :: splitDots rest := by
  induction digits with
  | nil => rfl
  | cons char others ih =>
      have plain : char ≠ '.' :=
        ne_of_isDigit (number char List.mem_cons_self) (by decide)
      rw [List.cons_append, splitDots.eq_3 char _ plain,
        ih fun other member => number other (List.mem_cons_of_mem char member)]

theorem foldl_digits (digits : List Char) (value : Nat)
    (number : ∀ char ∈ digits, char.isDigit = true) :
    digits.foldl (fun (value : Int) digit => value * 10 + (digit.toNat - '0'.toNat)) value =
      Nat.ofDigitChars 10 digits value := by
  induction digits generalizing value with
  | nil => rfl
  | cons char others ih =>
      obtain ⟨low, -⟩ : 48 ≤ char.toNat ∧ char.toNat ≤ 57 :=
        Char.isDigit_iff_toNat.mp (number char List.mem_cons_self)
      have next : (value : Int) * 10 + (char.toNat - '0'.toNat) =
          ((10 * value + (char.toNat - '0'.toNat) : Nat) : Int) := by
        change (value : Int) * 10 + ((char.toNat : Int) - (48 : Nat)) = _
        change _ = ((10 * value + (char.toNat - 48) : Nat) : Int)
        omega
      rw [List.foldl_cons, next, Nat.ofDigitChars_cons,
        ih _ fun other member => number other (List.mem_cons_of_mem char member)]

theorem isWhitespace_of_isDigit {char : Char} (digit : char.isDigit = true) :
    char.isWhitespace = false := by
  cases space : char.isWhitespace with
  | false => rfl
  | true =>
      simp only [Char.isWhitespace, Bool.or_eq_true, decide_eq_true_eq] at space
      rcases space with ((rfl | rfl) | rfl) | rfl <;> cases digit

theorem parseIntOrZero_digits (number : Digits digits)
    (ends : ∀ char, rest.head? = some char → char.isDigit = false) :
    parseIntOrZero (digits ++ rest) = decimal digits := by
  unfold parseIntOrZero
  rw [number.dropWhile rest fun char digit => isWhitespace_of_isDigit digit]
  have minus : (digits ++ rest).head? ≠ some '-' := number.head_ne rest (by decide)
  have plus : (digits ++ rest).head? ≠ some '+' := number.head_ne rest (by decide)
  split
  · next begins => exact absurd (congrArg List.head? begins) minus
  · next begins => exact absurd (congrArg List.head? begins) plus
  · dsimp only
    rw [number.takeWhile ends]
    exact foldl_digits digits 0 number.all

theorem versionNumbers_release (release : ReleaseText text major minor patch) :
    versionNumbers text = [↑(decimal major), ↑(decimal minor), ↑(decimal patch)] := by
  obtain ⟨label, labelled, spelled⟩ := release.spelled
  have noRest : ∀ {number : List Char}, Digits number →
      parseIntOrZero number = decimal number := by
    intro number digits
    have read : parseIntOrZero (number ++ []) = decimal number :=
      parseIntOrZero_digits digits nofun
    rwa [List.append_nil] at read
  obtain ⟨parts, split⟩ := splitDots_head (patch ++ label)
  have plain : ∀ char ∈ patch, decide (char ≠ '.') = true := fun char member =>
    decide_eq_true (ne_of_isDigit (release.third.all char member) (by decide))
  have ends : ∀ char, (label.takeWhile (· ≠ '.')).head? = some char → char.isDigit = false := by
    intro char begins
    cases label with
    | nil => cases begins
    | cons mark others =>
        rw [List.takeWhile_cons] at begins
        split at begins
        · exact labelled.head_isDigit char begins
        · cases begins
  have bare : versionNumbers text = ((splitDots text.toList).take 3).map parseIntOrZero := by
    unfold versionNumbers
    dsimp only
    rw [spelled, release.first.dropWhile _ fun char digit => isWhitespace_of_isDigit digit]
    split
    · next begins =>
        exact absurd (congrArg List.head? begins) (release.first.head_ne _ (by decide))
    · rfl
  rw [bare, spelled, splitDots_digits release.first.all, splitDots_digits release.second.all, split,
    List.takeWhile_append_of_pos plain]
  simp only [List.take_succ_cons, List.take_zero, List.map_cons, List.map_nil,
    noRest release.first, noRest release.second, parseIntOrZero_digits release.third ends]

theorem versionLess_release {other : String} {major' minor' patch' : List Char}
    (release : ReleaseText text major minor patch)
    (before : ReleaseText other major' minor' patch') :
    versionLess other text = true ↔
      Greater (decimal major, decimal minor, decimal patch)
        (decimal major', decimal minor', decimal patch') := by
  unfold versionLess
  rw [versionNumbers_release release, versionNumbers_release before]
  unfold Greater
  simp only [List.getD_cons_zero, List.getD_cons_succ]
  split
  · rw [decide_eq_true_eq]
    omega
  · split <;> rw [decide_eq_true_eq] <;> omega

/-- **Versions agree.** The agent, the command line, the client and the server compare two versions
of releases alike, as their numbers are ordered. -/
theorem versions_agree {other : String} {major' minor' patch' : List Char}
    (release : ReleaseText text major minor patch) (before : ReleaseText other major' minor' patch')
    (small : ∀ digits ∈ [major, minor, patch, major', minor', patch'], decimal digits < 2 ^ 53) :
    isNewerVersion text other = versionGreater text other ∧
      versionLess other text = versionGreater text other ∧
      (versionGreater text other = true ↔
        Greater (decimal major, decimal minor, decimal patch)
          (decimal major', decimal minor', decimal patch')) := by
  have order := versionGreater_release release before fun digits member =>
    Nat.lt_trans (small digits member) (by decide)
  have client := isNewerVersion_release release before small
  have server := versionLess_release release before
  exact ⟨Bool.eq_iff_iff.mpr (client.trans order.symm), Bool.eq_iff_iff.mpr (server.trans order.symm),
    order⟩

end Release

/-- A release and a later one with a label. -/
theorem versions_agree_labelled :
    isNewerVersion "0.10.0-rc.1" "0.9.12" = versionGreater "0.10.0-rc.1" "0.9.12" ∧
      versionLess "0.9.12" "0.10.0-rc.1" = versionGreater "0.10.0-rc.1" "0.9.12" ∧
      (versionGreater "0.10.0-rc.1" "0.9.12" = true ↔
        Greater (decimal ['0'], decimal ['1', '0'], decimal ['0'])
          (decimal ['0'], decimal ['9'], decimal ['1', '2'])) := by
  have digits : ∀ text : List Char, text ≠ [] → text.all Char.isDigit = true → Digits text :=
    fun text nonempty all => ⟨nonempty, List.all_eq_true.mp all⟩
  have spaceless : ∀ char ∈ "-rc.1".toList, isSpace char = false := by
    have all : "-rc.1".toList.all (fun char => !isSpace char) = true := by decide
    exact fun char member => by simpa using List.all_eq_true.mp all char member
  exact versions_agree
    ⟨digits _ nofun rfl, digits _ nofun rfl, digits _ nofun rfl, "-rc.1".toList,
      ⟨.inr ⟨'-', _, rfl, .inl rfl⟩, spaceless⟩, rfl⟩
    ⟨digits _ nofun rfl, digits _ nofun rfl, digits _ nofun rfl, [], ⟨.inl rfl, nofun⟩, rfl⟩
    (by decide)

end AmberBackup
