import Mathlib.Algebra.BigOperators.Group.List.Basic
import Mathlib.Algebra.BigOperators.Ring.List
import Mathlib.Algebra.GroupWithZero.Nat
import Mathlib.Algebra.Order.BigOperators.Group.List
import Mathlib.Algebra.Order.Group.Nat
import Mathlib.Data.List.Dedup
import Mathlib.Tactic.Common

/-! # Counting twice

Sums over a list of counts in another are the same in either order (`sum_countP_comm`), and sums
that are ordered item by item agree exactly if the items do (`sum_eq_iff`). Rows that are grouped
by a key give the count of all rows of a group back (`countP_of_group`).
-/

section Counting

variable {α β : Type}

/-- The sum over a list of what one of its items counts for. -/
theorem sum_map_ite [DecidableEq α] (items : List α) (wanted : α) (number : α → Nat) :
    (items.map fun item => if item = wanted then number item else 0).sum =
      items.count wanted * number wanted := by
  induction items with
  | nil => rw [List.count_nil, Nat.zero_mul]; rfl
  | cons item items ih =>
      rw [List.map_cons, List.sum_cons, ih, List.count_cons]
      by_cases same : item = wanted
      · subst same
        simp only [↓reduceIte, beq_self_eq_true, Nat.add_mul, Nat.one_mul]
        omega
      · simp [same]

theorem countP_eq_sum (rows : List α) (wanted : α → Bool) :
    rows.countP wanted = (rows.map fun row => (wanted row).toNat).sum := by
  induction rows with
  | nil => rfl
  | cons row rows ih =>
      rw [List.countP_cons, ih, List.map_cons, List.sum_cons]
      cases wanted row
      · exact (Nat.zero_add _).symm
      · exact Nat.add_comm _ _

/-- Pairs are counted from either side. -/
theorem sum_countP_comm (rows : List α) (keys : List β) (related : β → α → Bool) :
    (keys.map fun key => rows.countP (related key)).sum =
      (rows.map fun row => keys.countP fun key => related key row).sum := by
  induction keys with
  | nil =>
      refine (List.sum_eq_zero ?_).symm
      intro value member
      obtain ⟨row, -, rfl⟩ := List.mem_map.mp member
      exact List.countP_nil
  | cons key keys ih =>
      rw [List.map_cons, List.sum_cons, ih, countP_eq_sum, ← List.sum_map_add]
      congr 1
      apply List.map_congr_left
      intro row _
      rw [List.countP_cons]
      cases related key row
      · exact Nat.zero_add _
      · exact Nat.add_comm _ _

/-- Sums of which one is never below the other. -/
theorem sum_eq_iff {items : List α} {more less : α → Nat}
    (ordered : ∀ item ∈ items, less item ≤ more item) :
    (items.map more).sum = (items.map less).sum ↔ ∀ item ∈ items, more item = less item := by
  induction items with
  | nil => exact iff_of_true rfl (List.forall_mem_nil _)
  | cons item items ih =>
      have here := ordered item List.mem_cons_self
      have later := ih fun other member => ordered other (List.mem_cons_of_mem _ member)
      have most : (items.map less).sum ≤ (items.map more).sum :=
        List.sum_le_sum fun other member => ordered other (List.mem_cons_of_mem _ member)
      rw [List.map_cons, List.sum_cons, List.map_cons, List.sum_cons, List.forall_mem_cons, ← later]
      omega

/-- One row for each key, with how often it occurs: where the keys of a kind are the same, the last
row of the kind has the number of all of them. -/
theorem countP_of_group [DecidableEq α] [BEq α] [LawfulBEq α] (keys : List α)
    (kind : α → Bool)
    (same : ∀ first ∈ keys, ∀ second ∈ keys, kind first = true → kind second = true →
      first = second) :
    (((keys.dedup.filter kind).getLast?).map fun key => keys.count key).getD 0 =
      keys.countP kind := by
  cases last : (keys.dedup.filter kind).getLast? with
  | none =>
      rw [List.getLast?_eq_none_iff, List.filter_eq_nil_iff] at last
      refine (List.countP_eq_zero.mpr ?_).symm
      intro key member
      exact last key (List.mem_dedup.mpr member)
  | some key =>
      have member := List.mem_filter.mp (List.mem_of_getLast? last)
      have listed := List.mem_dedup.mp member.1
      refine List.countP_congr ?_
      intro other found
      rw [beq_iff_eq]
      constructor
      · rintro rfl
        exact member.2
      · intro alike
        exact same other found key listed alike member.2

end Counting
