import Mathlib.Data.List.Infix
import Mathlib.Tactic.Common

/-! # Patterns of `LIKE`

In a pattern a percent sign stands for any text and an underscore for any character; a
backslash takes the character after it literally. A term whose special characters are escaped,
between two percent signs, is matched by the texts that have the term as a substring
(`like_escaped`), and without a look at the case where both sides are folded (`ilike_escaped`).
-/

namespace LikePattern

/-- The characters with a meaning of their own in a pattern. -/
def special : List Char := ['\\', '%', '_']

/-- `text LIKE pattern`. A pattern that ends in an open escape matches nothing here; the
database reports it as an error. -/
def like : List Char → List Char → Bool
  | [], text => text.isEmpty
  | '%' :: pattern, text => text.tails.any (like pattern)
  | '_' :: pattern, text =>
      match text with
      | [] => false
      | _ :: rest => like pattern rest
  | ['\\'], _ => false
  | '\\' :: literal :: pattern, text =>
      match text with
      | [] => false
      | char :: rest => char == literal && like pattern rest
  | literal :: pattern, text =>
      match text with
      | [] => false
      | char :: rest => char == literal && like pattern rest

/-- A term with a backslash before each special character. -/
def escape (term : List Char) : List Char :=
  term.flatMap fun char => if char ∈ special then ['\\', char] else [char]

/-- How characters are brought to lower case. The special characters have no case. -/
structure CaseFold where
  lower : Char → Char
  special_lower : ∀ char ∈ special, lower char = char
  of_special : ∀ char, lower char ∈ special → lower char = char

/-- Capital letters of the Latin alphabet are lowered. -/
def CaseFold.ascii : CaseFold where
  lower := Char.toLower
  special_lower := by
    intro char reserved
    simp only [special, List.mem_cons, List.not_mem_nil, or_false] at reserved
    rcases reserved with rfl | rfl | rfl <;> decide
  of_special := by
    intro char reserved
    by_cases capital : char.val ≥ 65 ∧ char.val ≤ 90
    · have letters : ∀ value : Fin 91, 65 ≤ value.val →
          Char.toLower (Char.ofNat value.val) ∉ special := by decide +kernel
      have bound : char.toNat < 91 := by
        have upper := capital.2
        rw [UInt32.le_iff_toNat_le] at upper
        exact Nat.lt_succ_of_le upper
      have least : 65 ≤ char.toNat := by
        have lower := capital.1
        rw [ge_iff_le, UInt32.le_iff_toNat_le] at lower
        exact lower
      have none := letters ⟨char.toNat, bound⟩ least
      rw [Char.ofNat_toNat] at none
      exact absurd reserved none
    · exact dif_neg capital

/-- `text ILIKE pattern`. -/
def ilike (fold : CaseFold) (pattern text : List Char) : Bool :=
  like (pattern.map fold.lower) (text.map fold.lower)

theorem like_percent (pattern text : List Char) :
    like ('%' :: pattern) text = true ↔ ∃ rest, rest <:+ text ∧ like pattern rest = true := by
  simp only [like, List.any_eq_true, List.mem_tails]

theorem like_literal {char : Char} (plain : char ∉ special) (pattern text : List Char) :
    like (char :: pattern) text = true ↔
      ∃ rest, text = char :: rest ∧ like pattern rest = true := by
  simp only [special, List.mem_cons, List.not_mem_nil, or_false, not_or] at plain
  rw [like.eq_def]
  split <;> simp_all
  split <;> simp_all

theorem like_backslash (literal : Char) (pattern text : List Char) :
    like ('\\' :: literal :: pattern) text = true ↔
      ∃ rest, text = literal :: rest ∧ like pattern rest = true := by
  cases text with
  | nil =>
      change false = true ↔ _
      simp
  | cons first text =>
      change (first == literal && like pattern text) = true ↔ _
      simp only [Bool.and_eq_true, beq_iff_eq, List.cons.injEq]
      constructor
      · rintro ⟨same, matched⟩
        exact ⟨text, ⟨same, rfl⟩, matched⟩
      · rintro ⟨rest, ⟨same, rfl⟩, matched⟩
        exact ⟨same, matched⟩

theorem escape_cons (char : Char) (term : List Char) :
    escape (char :: term) =
      (if char ∈ special then ['\\', char] else [char]) ++ escape term := rfl

theorem like_escaped_append (term pattern text : List Char) :
    like (escape term ++ pattern) text = true ↔
      ∃ rest, text = term ++ rest ∧ like pattern rest = true := by
  induction term generalizing text with
  | nil => simp [escape]
  | cons char term ih =>
      have first : like (escape (char :: term) ++ pattern) text = true ↔
          ∃ rest, text = char :: rest ∧ like (escape term ++ pattern) rest = true := by
        rw [escape_cons, List.append_assoc]
        by_cases reserved : char ∈ special
        · rw [if_pos reserved]
          exact like_backslash char _ text
        · rw [if_neg reserved]
          exact like_literal reserved _ text
      rw [first]
      constructor
      · rintro ⟨after, rfl, whole⟩
        obtain ⟨rest, rfl, matched⟩ := (ih after).mp whole
        exact ⟨rest, rfl, matched⟩
      · rintro ⟨rest, rfl, matched⟩
        exact ⟨term ++ rest, rfl, (ih _).mpr ⟨rest, rfl, matched⟩⟩

/-- **Escaped terms.** A text matches an escaped term between percent signs if and only if it
has the term as a substring. -/
theorem like_escaped (term text : List Char) :
    like ('%' :: escape term ++ ['%']) text = true ↔ term <:+: text := by
  have anything : ∀ rest, like ['%'] rest = true := by
    intro rest
    exact (like_percent [] rest).mpr ⟨[], List.nil_suffix, rfl⟩
  rw [List.cons_append, like_percent]
  constructor
  · rintro ⟨rest, ⟨before, rfl⟩, matched⟩
    obtain ⟨after, rfl, -⟩ := (like_escaped_append term ['%'] rest).mp matched
    exact ⟨before, after, by rw [List.append_assoc]⟩
  · rintro ⟨before, after, rfl⟩
    refine ⟨term ++ after, ⟨before, by rw [List.append_assoc]⟩, ?_⟩
    exact (like_escaped_append term ['%'] _).mpr ⟨after, rfl, anything after⟩

theorem escape_map (fold : CaseFold) (term : List Char) :
    (escape term).map fold.lower = escape (term.map fold.lower) := by
  induction term with
  | nil => rfl
  | cons char term ih =>
      rw [List.map_cons, escape_cons, escape_cons, List.map_append, ih]
      by_cases reserved : char ∈ special
      · have same := fold.special_lower char reserved
        have backslash := fold.special_lower '\\' (by decide)
        simp [same, reserved, backslash]
      · have still : fold.lower char ∉ special := by
          intro other
          rw [fold.of_special char other] at other
          exact reserved other
        simp [reserved, still]

/-- An escaped term between percent signs is found without a look at the case. -/
theorem ilike_escaped (fold : CaseFold) (term text : List Char) :
    ilike fold ('%' :: escape term ++ ['%']) text = true ↔
      term.map fold.lower <:+: text.map fold.lower := by
  have percent := fold.special_lower '%' (by decide)
  unfold ilike
  rw [List.map_append, List.map_cons, escape_map, percent, List.map_cons, List.map_nil, percent]
  exact like_escaped _ _

end LikePattern
