import AmberBackup.Lib.Ranks
import Mathlib.Data.List.Sort

/-! # Pages of an ordered list

A page is a stretch of a list, given by its length and by how many rows stand before it. Pages
of one length put together are the list (`pages_eq`). In a list ordered by a strict order the
first rows are those with few rows before them, wherever the rows come from
(`countP_take_iff`).
-/

namespace AmberBackup

open Ranks

variable {α : Type}

/-- `LIMIT limit OFFSET offset`. -/
def page (limit offset : Nat) (rows : List α) : List α := (rows.drop offset).take limit

/-- The first pages of a length. -/
def pages (limit count : Nat) (rows : List α) : List α :=
  (List.range count).flatMap fun index => page limit (index * limit) rows

theorem pages_eq_take (limit count : Nat) (rows : List α) :
    pages limit count rows = rows.take (count * limit) := by
  induction count with
  | zero => simp [pages]
  | succ count ih =>
      unfold pages at *
      rw [List.range_succ, List.flatMap_append, ih, List.flatMap_singleton, Nat.succ_mul,
        List.take_add]
      rfl

/-- Enough pages show the whole list. -/
theorem pages_eq {limit count : Nat} {rows : List α} (enough : rows.length ≤ count * limit) :
    pages limit count rows = rows := by
  rw [pages_eq_take, List.take_of_length_le enough]

section Rank

variable {before : α → α → Bool} {rows : List α} {row : α} {size : Nat}

theorem rank_perm {others : List α} (same : rows.Perm others) (row : α) :
    rank before rows row = rank before others row :=
  same.countP_eq _

/-- A row of the beginning has fewer rows before it than the beginning has. -/
theorem rank_lt_of_mem_take (ordered : rows.Pairwise fun first second => before first second)
    (asymm : ∀ first second, before first second = true → before second first = false)
    (inside : row ∈ rows.take size) : rank before rows row < size := by
  obtain ⟨index, bound, rfl⟩ := List.mem_iff_getElem.mp inside
  rw [List.length_take] at bound
  rw [List.getElem_take]
  have irrefl : ∀ other, before other other = false := by
    intro other
    by_contra itself
    rw [Bool.not_eq_false] at itself
    exact absurd itself (by simp [asymm other other itself])
  have parts : rows = rows.take index ++ rows.drop index := (List.take_append_drop index rows).symm
  have later : (rows.drop index).countP (fun other => before other rows[index]) = 0 := by
    rw [List.countP_eq_zero]
    intro other member
    rw [List.drop_eq_getElem_cons (by omega)] at member
    rcases List.mem_cons.mp member with rfl | after
    · simp [irrefl]
    · obtain ⟨place, within, rfl⟩ := List.mem_iff_getElem.mp after
      rw [List.length_drop] at within
      rw [List.getElem_drop]
      have follows : before rows[index] rows[index + 1 + place] = true :=
        List.pairwise_iff_getElem.mp ordered index _ (by omega) (by omega) (by omega)
      simp [asymm _ _ follows]
  calc rank before rows rows[index]
      = (rows.take index).countP (fun other => before other rows[index]) +
          (rows.drop index).countP (fun other => before other rows[index]) := by
        rw [← List.countP_append, ← parts]
        rfl
    _ ≤ (rows.take index).length := by
        rw [later]
        exact List.countP_le_length
    _ < size := by
        rw [List.length_take]
        omega

/-- A row that comes after the beginning has at least as many rows before it. -/
theorem le_rank_of_mem_drop (ordered : rows.Pairwise fun first second => before first second)
    (beyond : row ∈ rows.drop size) : size ≤ rank before rows row := by
  have longer : size < rows.length := by
    have some : 0 < (rows.drop size).length := List.length_pos_of_mem beyond
    rw [List.length_drop] at some
    omega
  have split := ordered
  rw [← List.take_append_drop size rows, List.pairwise_append] at split
  have all : (rows.take size).countP (fun other => before other row) = (rows.take size).length := by
    rw [List.countP_eq_length]
    intro other member
    exact split.2.2 other member row beyond
  have part : (rows.take size).countP (fun other => before other row) ≤ rank before rows row :=
    (List.take_sublist size rows).countP_le
  rw [all, List.length_take] at part
  omega

/-- The beginning has every row of a kind if and only if each of them has few rows before
it. -/
theorem countP_take_iff (ordered : rows.Pairwise fun first second => before first second)
    (asymm : ∀ first second, before first second = true → before second first = false)
    (kind : α → Bool) :
    (rows.take size).countP kind = rows.countP kind ↔
      ∀ row ∈ rows, kind row = true → rank before rows row < size := by
  have parts : rows.countP kind = (rows.take size).countP kind + (rows.drop size).countP kind := by
    rw [← List.countP_append, List.take_append_drop]
  constructor
  · intro same row member matching
    have none : (rows.drop size).countP kind = 0 := by omega
    rw [← List.take_append_drop size rows] at member
    rcases List.mem_append.mp member with inside | beyond
    · exact rank_lt_of_mem_take ordered asymm inside
    · exact absurd matching (List.countP_eq_zero.mp none row beyond)
  · intro early
    have none : (rows.drop size).countP kind = 0 := by
      rw [List.countP_eq_zero]
      intro row beyond matching
      have far := le_rank_of_mem_drop ordered beyond
      have near := early row (List.mem_of_mem_drop beyond) matching
      omega
    omega

end Rank

end AmberBackup
