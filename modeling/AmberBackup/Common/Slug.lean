import AmberBackup.Database.Types
import AmberBackup.Lib.NatDouble
import Mathlib.Tactic.Common

/-! # Slugs

A slug is derived from a name: every run of characters that are no ASCII letter or digit
becomes one dash, and the dashes at both ends are dropped. What remains is empty or has the
form of a slug (`matchesSlug_trimDashes`).
-/

namespace AmberBackup

open Relational

/-- `[a-z0-9]`. -/
def slugChar (char : Char) : Bool := char.isLower || char.isDigit

/-- The expression `[a-z0-9]+(-[a-z0-9]+)*`, from inside of a group or from its start. -/
def matchesFrom : Bool → List Char → Bool
  | begun, [] => begun
  | begun, char :: rest =>
      if slugChar char then matchesFrom true rest
      else begun && char = '-' && matchesFrom false rest

/-- A slug: groups of ASCII letters in lower case and digits, joined by single dashes. -/
def matchesSlug (slug : String) : Bool := matchesFrom false slug.toList

/-- Replaces every run of characters that are not kept by a dash, from inside of a run or
from outside. -/
def dashed (keeps : Char → Bool) : Bool → List Char → List Char
  | _, [] => []
  | inRun, char :: rest =>
      if keeps char then char :: dashed keeps false rest
      else if inRun then dashed keeps true rest
      else '-' :: dashed keeps true rest

/-- `replace(/^-+|-+$/g, '')`. -/
def trimDashes (text : List Char) : List Char :=
  ((text.dropWhile (· = '-')).reverse.dropWhile (· = '-')).reverse

/-- A slug base; a text without usable characters falls back to `entity`. -/
def slugBase (text : List Char) : String :=
  if trimDashes text = [] then "entity" else String.ofList (trimDashes text)

/-- `String.prototype.toLowerCase`, as far as it yields ASCII characters; a character
without one of these is left as it is. -/
def lowerCase (char : Char) : List Char :=
  if char.toNat = 0x212A then ['k']
  else if char.toNat = 0x130 then ['i', Char.ofNat 0x307]
  else [char.toLower]

/-- `slugify`. -/
def slugify (name : String) : String :=
  slugBase (dashed slugChar false (name.toList.flatMap lowerCase))

/-- The number a slug ends in after the base and a dash. -/
def suffixNumber (base : String) (slug : String) : Option Nat :=
  let digits := slug.toList.drop (base.toList.length + 1)
  if (base.toList ++ ['-']).isPrefixOf slug.toList && digits ≠ [] && digits.all Char.isDigit then
    some (Nat.ofDigitChars 10 digits 0)
  else none

/-- `maxSuffix`, a double as every number is. -/
def maxSuffix (taken : List String) (base : String) : NatDouble :=
  NatDouble.greatest (.finite 1) (taken.filterMap (suffixNumber base))

/-- The slug with the number after the greatest one. -/
def nextSlug (taken : List String) (base : String) : String :=
  base ++ "-" ++ String.ofList (maxSuffix taken base).succ.text

/-- `uniqueSlug`, among the slugs of the other rows. -/
def uniqueSlug (taken : List String) (name : String) : String :=
  if taken.contains (slugify name) then nextSlug taken (slugify name) else slugify name

/-- A text of slug characters and single dashes. -/
structure Dashed (text : List Char) : Prop where
  chars : ∀ char ∈ text, slugChar char = true ∨ char = '-'
  single : text.IsChain fun first second => ¬ (first = '-' ∧ second = '-')

namespace Dashed

variable {text : List Char}

theorem suffix (kebab : Dashed text) {rest : List Char} (ends : rest <:+ text) : Dashed rest where
  chars := fun char listed => kebab.chars char (ends.subset listed)
  single := kebab.single.suffix ends

theorem reverse (kebab : Dashed text) : Dashed text.reverse where
  chars := fun char listed => kebab.chars char (List.mem_reverse.mp listed)
  single := by
    rw [List.isChain_reverse]
    exact kebab.single.imp fun _ _ single both => single both.symm

theorem trimDashes (kebab : Dashed text) : Dashed (trimDashes text) :=
  (((kebab.suffix (List.dropWhile_suffix _)).reverse).suffix (List.dropWhile_suffix _)).reverse

end Dashed

theorem slugChar_dash : slugChar '-' = false := by decide

/-- The rest of a slug matches: it has single dashes and ends in no dash, and it does not
begin with one where a group is still to begin. -/
theorem matchesFrom_of_dashed {text : List Char} (kebab : Dashed text) {begun : Bool}
    (first : begun = false → text ≠ [] ∧ text.head? ≠ some '-')
    (last : text.getLast? ≠ some '-') : matchesFrom begun text = true := by
  induction text generalizing begun with
  | nil =>
      cases begun with
      | true => rfl
      | false => exact absurd rfl (first rfl).1
  | cons char rest ih =>
      have tail : Dashed rest := kebab.suffix (List.suffix_cons _ _)
      have lastRest : rest.getLast? ≠ some '-' := by
        cases rest with
        | nil => simp
        | cons next others => simpa [List.getLast?_cons_cons] using last
      unfold matchesFrom
      rcases kebab.chars char List.mem_cons_self with letter | rfl
      · rw [if_pos letter]
        exact ih tail (fun impossible => by cases impossible) lastRest
      · rw [if_neg (by rw [slugChar_dash]; exact Bool.false_ne_true)]
        have inGroup : begun = true := by
          cases begun with
          | true => rfl
          | false => exact absurd rfl (first rfl).2
        have goesOn : rest ≠ [] ∧ rest.head? ≠ some '-' := by
          cases rest with
          | nil => exact absurd rfl last
          | cons next others =>
              refine ⟨List.cons_ne_nil _ _, fun dash => ?_⟩
              have single := (List.isChain_cons_cons.mp kebab.single).1
              exact single ⟨rfl, Option.some.inj dash⟩
        rw [inGroup, ih tail (fun _ => goesOn) lastRest]
        rfl

theorem head?_dropWhile_dash (text : List Char) :
    (text.dropWhile (· = '-')).head? ≠ some '-' := by
  intro dash
  have kept := List.head?_dropWhile_not (p := (· = '-')) text
  rw [dash] at kept
  simp at kept

/-- What is left of a text of single dashes is empty or a slug. -/
theorem matchesFrom_trimDashes {text : List Char} (kebab : Dashed text)
    (left : trimDashes text ≠ []) : matchesFrom false (trimDashes text) = true := by
  refine matchesFrom_of_dashed kebab.trimDashes (fun _ => ⟨left, ?_⟩) ?_
  · intro dash
    have front : trimDashes text <+: text.dropWhile (· = '-') := by
      rw [← List.reverse_suffix, trimDashes, List.reverse_reverse]
      exact List.dropWhile_suffix _
    obtain ⟨dropped, whole⟩ := front
    apply head?_dropWhile_dash text
    rw [← whole, List.head?_append_of_ne_nil _ left]
    exact dash
  · unfold trimDashes
    rw [List.getLast?_reverse]
    exact head?_dropWhile_dash _

/-- A base made of a text of single dashes is a slug. -/
theorem matchesSlug_slugBase {text : List Char} (kebab : Dashed text) :
    matchesSlug (slugBase text) = true := by
  unfold slugBase matchesSlug
  split
  case isTrue => decide
  case isFalse left =>
    rw [String.toList_ofList]
    exact matchesFrom_trimDashes kebab left

/-- What replaces runs by dashes yields single dashes, between the characters it keeps. -/
theorem dashed_spec (keeps : Char → Bool) (text : List Char) (noDash : keeps '-' = false)
    (inRun : Bool) :
    (∀ char ∈ dashed keeps inRun text, keeps char = true ∨ char = '-') ∧
      (dashed keeps inRun text).IsChain (fun first second => ¬ (first = '-' ∧ second = '-')) ∧
      (inRun = true → (dashed keeps inRun text).head? ≠ some '-') := by
  induction text generalizing inRun with
  | nil => exact ⟨by simp [dashed], List.isChain_nil, by simp [dashed]⟩
  | cons char rest ih =>
      unfold dashed
      by_cases kept : keeps char = true
      · obtain ⟨chars, single, -⟩ := ih false
        have letter : char ≠ '-' := fun same => by
          rw [same, noDash] at kept
          cases kept
        rw [if_pos kept]
        refine ⟨?_, ?_, fun _ dash => letter (Option.some.inj dash)⟩
        · intro other listed
          rcases List.mem_cons.mp listed with rfl | later
          · exact Or.inl kept
          · exact chars other later
        · exact List.isChain_cons.mpr ⟨fun _ _ both => letter both.1, single⟩
      · obtain ⟨chars, single, noStart⟩ := ih true
        rw [if_neg kept]
        cases inRun with
        | true => exact ⟨chars, single, noStart⟩
        | false =>
            refine ⟨?_, ?_, fun impossible => by cases impossible⟩
            · intro other listed
              rcases List.mem_cons.mp listed with rfl | later
              · exact Or.inr rfl
              · exact chars other later
            · refine List.isChain_cons.mpr ⟨fun next here both => ?_, single⟩
              exact noStart rfl (both.2 ▸ Option.mem_def.mp here)

/-- Every slug base of a name is a slug. -/
theorem matchesSlug_slugify (name : String) : matchesSlug (slugify name) = true := by
  obtain ⟨chars, single, -⟩ :=
    dashed_spec slugChar (name.toList.flatMap lowerCase) slugChar_dash false
  exact matchesSlug_slugBase ⟨chars, single⟩

/-- A number in decimal digits is the rest of a slug's last group. -/
theorem matchesFrom_digits {begun : Bool} {digits : List Char} (begins : begun = true ∨ digits ≠ [])
    (each : ∀ char ∈ digits, char.isDigit = true) : matchesFrom begun digits = true := by
  induction digits generalizing begun with
  | nil => exact begins.resolve_right fun left => left rfl
  | cons char rest ih =>
      have digit : slugChar char = true := by
        rw [slugChar, each char List.mem_cons_self, Bool.or_true]
      rw [matchesFrom, if_pos digit]
      exact ih (Or.inl rfl) fun other listed => each other (List.mem_cons_of_mem _ listed)

/-- A slug goes on with a dash and a number. -/
theorem matchesFrom_suffix {begun : Bool} {base digits : List Char}
    (slug : matchesFrom begun base = true) (numbered : digits ≠ [])
    (each : ∀ char ∈ digits, char.isDigit = true) :
    matchesFrom begun (base ++ '-' :: digits) = true := by
  induction base generalizing begun with
  | nil =>
      change begun = true at slug
      rw [List.nil_append, matchesFrom, if_neg (by rw [slugChar_dash]; exact Bool.false_ne_true),
        slug, matchesFrom_digits (Or.inr numbered) each]
      rfl
  | cons char rest ih =>
      rw [List.cons_append, matchesFrom]
      rw [matchesFrom] at slug
      split at slug
      case isTrue letter =>
        rw [if_pos letter]
        exact ih slug
      case isFalse other =>
        rw [if_neg other]
        rw [Bool.and_eq_true] at slug ⊢
        exact ⟨slug.1, ih slug.2⟩

theorem digits_toString (number : Nat) :
    (toString number).toList ≠ [] ∧ ∀ char ∈ (toString number).toList, char.isDigit = true := by
  have shown : (toString number).toList = Nat.toDigits 10 number := Nat.toList_repr
  rw [shown]
  exact ⟨Nat.toDigits_ne_nil, fun char listed =>
    Nat.isDigit_of_mem_toDigits (by decide) (by decide) listed⟩

/-- A slug with digits after a dash is a slug. -/
theorem matchesSlug_suffixed {base suffix : String} (slug : matchesSlug base = true)
    (numbered : suffix.toList ≠ []) (each : ∀ char ∈ suffix.toList, char.isDigit = true) :
    matchesSlug (base ++ "-" ++ suffix) = true := by
  unfold matchesSlug at slug ⊢
  rw [String.toList_append, String.toList_append, List.append_assoc]
  exact matchesFrom_suffix slug numbered each

/-- A numbered slug is a slug. -/
theorem matchesSlug_numbered {base : String} (slug : matchesSlug base = true) (number : Nat) :
    matchesSlug (base ++ "-" ++ toString number) = true :=
  matchesSlug_suffixed slug (digits_toString number).1 (digits_toString number).2

/-- Digits after the last dash tell a numbered slug apart from every other one. -/
theorem numbered_injective {base other : String} {number second : Nat}
    (same : base ++ "-" ++ toString number = other ++ "-" ++ toString second) :
    base = other ∧ number = second := by
  have split : ∀ {first rest following others : List Char}, '-' ∉ first → '-' ∉ rest →
      first ++ '-' :: following = rest ++ '-' :: others → first = rest ∧ following = others := by
    intro first
    induction first with
    | nil =>
        rintro (_ | ⟨char, rest⟩) following others _ noDash equal
        · exact ⟨rfl, List.cons.inj equal |>.2⟩
        · exact absurd ((List.cons.inj equal).1 ▸ List.mem_cons_self) noDash
    | cons char first ih =>
        rintro (_ | ⟨next, rest⟩) following others noDash noOther equal
        · exact absurd ((List.cons.inj equal).1 ▸ List.mem_cons_self) noDash
        · obtain ⟨head, tail⟩ := List.cons.inj equal
          obtain ⟨begins, ends⟩ := ih (fun listed => noDash (List.mem_cons_of_mem _ listed))
            (fun listed => noOther (List.mem_cons_of_mem _ listed)) tail
          exact ⟨congrArg₂ List.cons head begins, ends⟩
  have noDash : ∀ number : Nat, '-' ∉ (toString number).toList.reverse := by
    intro number listed
    have digit := (digits_toString number).2 _ (List.mem_reverse.mp listed)
    cases digit
  have lists := congrArg (fun text : String => text.toList.reverse) same
  simp only [String.toList_append, List.reverse_append] at lists
  obtain ⟨digits, bases⟩ := split (noDash number) (noDash second) lists
  refine ⟨String.toList_inj.mp (List.reverse_inj.mp bases), ?_⟩
  have equal : Nat.toDigits 10 number = Nat.toDigits 10 second := by
    have shown := List.reverse_inj.mp digits
    rwa [Nat.toString_eq_repr, Nat.toString_eq_repr, Nat.toList_repr, Nat.toList_repr] at shown
  have read := congrArg (fun digits => Nat.ofDigitChars 10 digits 0) equal
  simpa only [Nat.ofDigitChars_ten_toDigits] using read

end AmberBackup
