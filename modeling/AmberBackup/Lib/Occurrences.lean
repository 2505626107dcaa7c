import Mathlib.Data.List.Infix

/-! # Occurrences of a pattern

A pattern is searched in a text whose items are folded first, as letters are in a search that
ignores case. An item that the pattern does not have separates the text into parts of their own
(`Occurs.separated_iff`, and `Occurs.splitOn_iff` for all parts). Two texts are interchangeable
if no context tells them apart by an occurrence of the pattern.
-/

namespace AmberBackup

variable {α β : Type}

/-- The pattern occurs in the folded text. -/
def Occurs (fold : α → β) (pattern : List β) (text : List α) : Prop :=
  pattern <:+: text.map fold

instance [DecidableEq β] (fold : α → β) (pattern : List β) (text : List α) :
    Decidable (Occurs fold pattern text) :=
  inferInstanceAs (Decidable (pattern <:+: text.map fold))

namespace Occurs

variable {fold : α → β} {pattern : List β} {text first second : List α} {sep : α}

theorem append_left (found : Occurs fold pattern first) :
    Occurs fold pattern (first ++ second) := by
  unfold Occurs at *
  rw [List.map_append]
  exact found.trans (List.prefix_append _ _).isInfix

/-- An occurrence does not reach across an item that the pattern does not have. -/
theorem separated_iff (absent : fold sep ∉ pattern) :
    Occurs fold pattern (first ++ sep :: second) ↔
      Occurs fold pattern first ∨ Occurs fold pattern second := by
  unfold Occurs
  rw [List.map_append, List.map_cons]
  constructor
  · intro found
    rcases List.infix_append_iff.mp found with before | after | ⟨start, rest, split, ends, begins⟩
    · exact .inl before
    · rcases List.infix_cons_iff.mp after with begins | inside
      · cases pattern with
        | nil => exact .inl (List.nil_infix)
        | cons item others =>
            obtain ⟨rfl, -⟩ := List.cons_prefix_cons.mp begins
            exact absurd List.mem_cons_self absent
      · exact .inr inside
    · cases rest with
      | nil =>
          rw [List.append_nil] at split
          exact .inl (split ▸ ends.isInfix)
      | cons item others =>
          obtain ⟨rfl, -⟩ := List.cons_prefix_cons.mp begins
          refine absurd ?_ absent
          rw [split]
          exact List.mem_append_right _ List.mem_cons_self
  · rintro (before | after)
    · exact before.trans (List.prefix_append _ _).isInfix
    · exact after.trans ((List.suffix_cons _ _).trans (List.suffix_append _ _)).isInfix

/-- An item that closes the text and that the pattern does not have. -/
theorem concat_iff (absent : fold sep ∉ pattern) :
    Occurs fold pattern (text ++ [sep]) ↔ Occurs fold pattern text := by
  rw [separated_iff absent]
  refine ⟨?_, .inl⟩
  rintro (found | nowhere)
  · exact found
  · have empty : pattern = [] := List.infix_nil.mp nowhere
    rw [empty]
    exact List.nil_infix

/-- A text without one of the pattern's items has no occurrence of it. -/
theorem of_missing {item : β} (needed : item ∈ pattern)
    (missing : ∀ char ∈ text, fold char ≠ item) :
    ¬ Occurs fold pattern text := by
  intro found
  obtain ⟨char, member, folded⟩ := List.mem_map.mp (found.subset needed)
  exact missing char member folded

/-- A fold that agrees on the items folded to the pattern finds the same occurrences. -/
theorem of_agreeing {other : α → β} (agree : ∀ char, fold char ∈ pattern → other char = fold char)
    (found : Occurs fold pattern text) : Occurs other pattern text := by
  obtain ⟨part, inside, rfl⟩ := List.infix_map_iff.mp found
  have same : part.map other = part.map fold := by
    apply List.map_congr_left
    intro char member
    exact agree char (List.mem_map_of_mem member)
  unfold Occurs
  rw [← same]
  exact inside.map other

/-- The pattern occurs in a text if it occurs in one of the parts between the separators. -/
theorem splitOn_iff [BEq α] [LawfulBEq α] (absent : fold sep ∉ pattern) (text : List α) :
    Occurs fold pattern text ↔ ∃ part ∈ text.splitOn sep, Occurs fold pattern part := by
  induction size : text.length using Nat.strongRecOn generalizing text with
  | ind size shorter =>
      by_cases inside : sep ∈ text
      · obtain ⟨first, second, rfl⟩ := List.append_of_mem inside
        rw [separated_iff absent, List.splitOn_append_cons_self]
        rw [List.length_append, List.length_cons] at size
        rw [shorter first.length (by omega) first rfl,
          shorter second.length (by omega) second rfl]
        simp only [List.mem_append, or_and_right, exists_or]
      · rw [List.splitOn_eq_singleton inside]
        simp only [List.mem_singleton, exists_eq_left]

end Occurs

/-! ## Interchangeable texts -/

/-- No context tells the texts apart by an occurrence of the pattern. -/
def Interchangeable (fold : α → β) (pattern : List β) (first second : List α) : Prop :=
  ∀ before after, Occurs fold pattern (before ++ first ++ after) ↔
    Occurs fold pattern (before ++ second ++ after)

namespace Interchangeable

variable {fold : α → β} {pattern : List β} {first second third other : List α} {left right : α}

theorem refl (text : List α) : Interchangeable fold pattern text text := fun _ _ => Iff.rfl

theorem trans (same : Interchangeable fold pattern first second)
    (next : Interchangeable fold pattern second third) :
    Interchangeable fold pattern first third :=
  fun before after => (same before after).trans (next before after)

theorem occurs_iff (same : Interchangeable fold pattern first second) :
    Occurs fold pattern first ↔ Occurs fold pattern second := by
  have alone := same [] []
  rwa [List.nil_append, List.nil_append, List.append_nil, List.append_nil] at alone

theorem append (same : Interchangeable fold pattern first second)
    (next : Interchangeable fold pattern third other) :
    Interchangeable fold pattern (first ++ third) (second ++ other) := by
  intro before after
  have start := same before (third ++ after)
  have rest := next (before ++ second) after
  simp only [List.append_assoc] at start rest ⊢
  exact start.trans rest

theorem flatMap {γ : Type} {write writeOther : γ → List α}
    (same : ∀ item, Interchangeable fold pattern (write item) (writeOther item)) (items : List γ) :
    Interchangeable fold pattern (items.flatMap write) (items.flatMap writeOther) := by
  induction items with
  | nil => exact refl _
  | cons item rest ih =>
      rw [List.flatMap_cons, List.flatMap_cons]
      exact (same item).append ih

/-- Between two separators any text can be replaced by one in which the pattern does not occur
either. -/
theorem between (leftAbsent : fold left ∉ pattern) (rightAbsent : fold right ∉ pattern)
    (nowhere : ¬ Occurs fold pattern first) (otherwise : ¬ Occurs fold pattern second) :
    Interchangeable fold pattern (left :: first ++ [right]) (left :: second ++ [right]) := by
  intro before after
  simp only [List.append_assoc, List.cons_append, List.nil_append]
  rw [Occurs.separated_iff leftAbsent, Occurs.separated_iff leftAbsent,
    Occurs.separated_iff rightAbsent, Occurs.separated_iff rightAbsent]
  simp only [nowhere, otherwise, false_or]

end Interchangeable

/-! ## Letters -/

/-- Only a letter becomes another character in lower case. -/
theorem eq_of_toLower {char other : Char} (lowered : char.toLower = other)
    (plain : other.isLower = false) : char = other := by
  unfold Char.toLower at lowered
  split at lowered
  case isFalse => exact lowered
  case isTrue upper =>
    have above : 65 ≤ char.toNat := UInt32.le_iff_toNat_le.mp upper.1
    have below : char.toNat ≤ 90 := UInt32.le_iff_toNat_le.mp upper.2
    have letter : other.isLower = true := by
      rw [← lowered]
      apply Bool.and_eq_true_iff.mpr
      constructor
      · apply decide_eq_true
        rw [ge_iff_le, UInt32.le_iff_toNat_le, UInt32.toNat_add]
        change 97 ≤ (char.toNat + 32) % 2 ^ 32
        omega
      · apply decide_eq_true
        rw [UInt32.le_iff_toNat_le, UInt32.toNat_add]
        change (char.toNat + 32) % 2 ^ 32 ≤ 122
        omega
    rw [plain] at letter
    cases letter

end AmberBackup
