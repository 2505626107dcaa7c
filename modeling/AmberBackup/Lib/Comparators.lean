import Mathlib.Data.List.Basic
import Mathlib.Tactic.Common

/-! # Comparators

A comparator returns a number whose sign says which of two values comes first. A sort may rely on
it for a list if it is consistent there (`Consistent`), and then returns the values in order; what
it returns otherwise depends on the sort. A merge sort is one (`mergeSort_correct`). Consistent
comparators are those of strict weak orders (`strictWeak_iff`).
-/

namespace Comparator

variable {α : Type}

/-- On the values of a list the comparator is the sign of an order, with ties. -/
structure Consistent (compare : α → α → Int) (values : List α) : Prop where
  antisymm : ∀ first ∈ values, ∀ second ∈ values,
    0 < compare first second ↔ compare second first < 0
  trans : ∀ first ∈ values, ∀ second ∈ values, ∀ third ∈ values,
    compare first second ≤ 0 → compare second third ≤ 0 → compare first third ≤ 0

/-- What comes before is a strict order, and what does not come before each other is tied. -/
structure StrictWeak (compare : α → α → Int) (values : List α) : Prop where
  antisymm : ∀ first ∈ values, ∀ second ∈ values,
    0 < compare first second ↔ compare second first < 0
  before : ∀ first ∈ values, ∀ second ∈ values, ∀ third ∈ values,
    compare first second < 0 → compare second third < 0 → compare first third < 0
  tie : ∀ first ∈ values, ∀ second ∈ values, ∀ third ∈ values,
    compare first second = 0 → compare second third = 0 → compare first third = 0

def Sorted (compare : α → α → Int) (values : List α) : Prop :=
  values.Pairwise fun first second => compare first second ≤ 0

/-- A sort that may rely on its comparator being consistent. -/
structure CorrectSort (compare : α → α → Int) (sort : List α → List α) : Prop where
  perm : ∀ values, (sort values).Perm values
  sorted : ∀ values, Consistent compare values → Sorted compare (sort values)

section Order

variable {compare : α → α → Int} {values : List α} {first second third : α}

/-- Two values are tied from either side. -/
theorem tie_symm (antisymm : ∀ first ∈ values, ∀ second ∈ values,
    0 < compare first second ↔ compare second first < 0) (inFirst : first ∈ values)
    (inSecond : second ∈ values) (tie : compare first second = 0) :
    compare second first = 0 := by
  have forth := antisymm first inFirst second inSecond
  have back := antisymm second inSecond first inFirst
  omega

theorem Consistent.before_trans (consistent : Consistent compare values) (inFirst : first ∈ values)
    (inSecond : second ∈ values) (inThird : third ∈ values) (start : compare first second < 0)
    (rest : compare second third < 0) : compare first third < 0 := by
  by_contra other
  have after := (consistent.antisymm second inSecond first inFirst).mpr start
  -- otherwise the third value is not after the first, and so not after the second
  have back : compare third first ≤ 0 := by
    by_contra later
    exact other ((consistent.antisymm third inThird first inFirst).mp (Int.not_le.mp later))
  have round := consistent.trans second inSecond third inThird first inFirst (Int.le_of_lt rest) back
  omega

theorem Consistent.tie_trans (consistent : Consistent compare values) (inFirst : first ∈ values)
    (inSecond : second ∈ values) (inThird : third ∈ values) (start : compare first second = 0)
    (rest : compare second third = 0) : compare first third = 0 := by
  have forth := consistent.trans first inFirst second inSecond third inThird (Int.le_of_eq start)
    (Int.le_of_eq rest)
  have back := consistent.trans third inThird second inSecond first inFirst
    (Int.le_of_eq (tie_symm consistent.antisymm inSecond inThird rest))
    (Int.le_of_eq (tie_symm consistent.antisymm inFirst inSecond start))
  by_contra unequal
  have negative : compare first third < 0 := by omega
  have positive := (consistent.antisymm third inThird first inFirst).mpr negative
  omega

/-- In a strict weak order a value that is not after a second is not after what follows it. -/
theorem StrictWeak.trans (weak : StrictWeak compare values) (inFirst : first ∈ values)
    (inSecond : second ∈ values) (inThird : third ∈ values) (start : compare first second ≤ 0)
    (rest : compare second third ≤ 0) : compare first third ≤ 0 := by
  by_contra other
  have back := (weak.antisymm first inFirst third inThird).mp (Int.not_le.mp other)
  rcases Int.lt_or_eq_of_le start with before | tie
  · -- the third value comes before the first, and so before the second
    have early := weak.before third inThird first inFirst second inSecond back before
    have late := (weak.antisymm second inSecond third inThird).mpr early
    omega
  · rcases Int.lt_or_eq_of_le rest with before | tied
    · have early := weak.before second inSecond third inThird first inFirst before back
      have same := tie_symm weak.antisymm inFirst inSecond tie
      omega
    · have same := weak.tie first inFirst second inSecond third inThird tie tied
      omega

theorem strictWeak_iff : StrictWeak compare values ↔ Consistent compare values := by
  constructor
  · intro weak
    refine ⟨weak.antisymm, ?_⟩
    intro first inFirst second inSecond third inThird
    exact weak.trans inFirst inSecond inThird
  · intro consistent
    refine ⟨consistent.antisymm, ?_, ?_⟩
    · intro first inFirst second inSecond third inThird
      exact consistent.before_trans inFirst inSecond inThird
    · intro first inFirst second inSecond third inThird
      exact consistent.tie_trans inFirst inSecond inThird

theorem Consistent.total (consistent : Consistent compare values) (inFirst : first ∈ values)
    (inSecond : second ∈ values) : compare first second ≤ 0 ∨ compare second first ≤ 0 := by
  by_cases before : compare first second ≤ 0
  · exact .inl before
  · have after := (consistent.antisymm first inFirst second inSecond).mp (Int.not_le.mp before)
    exact .inr (Int.le_of_lt after)

theorem mergeSort_correct (compare : α → α → Int) :
    CorrectSort compare fun values =>
      values.mergeSort fun first second => decide (compare first second ≤ 0) := by
  refine ⟨fun values => List.mergeSort_perm _ _, ?_⟩
  intro values consistent
  -- the comparator is an order on the values of the list only
  have attached : (values.attach.mergeSort fun first second =>
      decide (compare first.1 second.1 ≤ 0)).map Subtype.val =
      values.mergeSort fun first second => decide (compare first second ≤ 0) := by
    have mapped := @List.map_mergeSort _ _
      (fun first second : { value // value ∈ values } => decide (compare first.1 second.1 ≤ 0))
      (fun first second => decide (compare first second ≤ 0)) Subtype.val values.attach
      fun _ _ _ _ => rfl
    rw [mapped, List.attach_map_subtype_val]
  have sorted := @List.pairwise_mergeSort _
    (fun first second : { value // value ∈ values } => decide (compare first.1 second.1 ≤ 0))
    ?_ ?_ values.attach
  · unfold Sorted
    rw [← attached, List.pairwise_map]
    exact sorted.imp of_decide_eq_true
  · intro first second third start rest
    exact decide_eq_true (consistent.trans _ first.2 _ second.2 _ third.2
      (of_decide_eq_true start) (of_decide_eq_true rest))
  · intro first second
    rcases consistent.total first.2 second.2 with before | after
    · rw [decide_eq_true before, Bool.true_or]
    · rw [decide_eq_true after, Bool.or_true]

end Order

end Comparator
