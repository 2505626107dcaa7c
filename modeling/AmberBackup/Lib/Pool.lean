import Mathlib.Algebra.BigOperators.Group.List.Basic
import Mathlib.Algebra.GroupWithZero.Nat
import Mathlib.Tactic.Common

/-! # Weighted pools

A pool is a list of concurrent processes. One step replaces one of them and appends those
it starts, and an invariant of a protocol often bounds the sum of a weight over the pool.
-/

namespace Pool

variable {α : Type} (weight : α → Nat)

/-- The sum of the weights of the processes. -/
def total (pool : List α) : Nat := (pool.map weight).sum

/-- The pool after the process at the index has moved on and started others. -/
def advance (pool : List α) (index : Nat) (next : α) (started : List α) : List α :=
  pool.set index next ++ started

variable {weight} {pool started : List α} {index other : Nat} {current next process : α}

@[simp] theorem total_nil : total weight [] = 0 := rfl

@[simp] theorem total_cons : total weight (process :: pool) = weight process + total weight pool :=
  List.sum_cons

@[simp] theorem total_append :
    total weight (pool ++ started) = total weight pool + total weight started := by
  simp [total]

theorem total_set (present : pool[index]? = some current) :
    total weight (pool.set index next) + weight current = total weight pool + weight next := by
  induction pool generalizing index with
  | nil => cases present
  | cons head rest ih =>
      cases index with
      | zero =>
          simp only [List.getElem?_cons_zero, Option.some.injEq] at present
          subst present
          simp only [List.set_cons_zero, total_cons]
          omega
      | succ index =>
          simp only [List.getElem?_cons_succ] at present
          have moved := ih present
          simp only [List.set_cons_succ, total_cons]
          omega

/-- What a step changes about the total is what it changes about the process that moves
and what it starts. -/
theorem total_advance (present : pool[index]? = some current) :
    total weight (advance pool index next started) + weight current =
      total weight pool + weight next + total weight started := by
  have moved : total weight (pool.set index next) + weight current =
      total weight pool + weight next := total_set present
  unfold advance
  rw [total_append]
  omega

theorem le_total (present : pool[index]? = some current) :
    weight current ≤ total weight pool := by
  induction pool generalizing index with
  | nil => cases present
  | cons head rest ih =>
      cases index with
      | zero =>
          simp only [List.getElem?_cons_zero, Option.some.injEq] at present
          simp [present]
      | succ index =>
          have later := ih present
          simp only [total_cons]
          omega

theorem le_total_of_mem (member : process ∈ pool) : weight process ≤ total weight pool := by
  obtain ⟨index, present⟩ := List.mem_iff_getElem?.mp member
  exact le_total present

/-- Two processes at different places both count. -/
theorem add_le_total (first : pool[index]? = some current) (second : pool[other]? = some next)
    (different : index ≠ other) : weight current + weight next ≤ total weight pool := by
  induction pool generalizing index other with
  | nil => cases first
  | cons head rest ih =>
      cases index with
      | zero =>
          cases other with
          | zero => exact absurd rfl different
          | succ other =>
              have later : weight next ≤ total weight rest := le_total second
              simp only [List.getElem?_cons_zero, Option.some.injEq] at first
              subst first
              simp only [total_cons]
              omega
      | succ index =>
          cases other with
          | zero =>
              have later : weight current ≤ total weight rest := le_total first
              simp only [List.getElem?_cons_zero, Option.some.injEq] at second
              subst second
              simp only [total_cons]
              omega
          | succ other =>
              have later := ih first second fun same => different (congrArg Nat.succ same)
              simp only [total_cons]
              omega

theorem total_eq_zero : (∀ process ∈ pool, weight process = 0) → total weight pool = 0 := by
  intro none
  induction pool with
  | nil => rfl
  | cons head rest ih =>
      rw [total_cons, none head List.mem_cons_self,
        ih fun process member => none process (List.mem_cons_of_mem _ member)]

/-- The processes after a step: those of before, the one that moved and the started ones. -/
theorem total_le_total {heavier : α → Nat}
    (lighter : ∀ process ∈ pool, weight process ≤ heavier process) :
    total weight pool ≤ total heavier pool := by
  induction pool with
  | nil => exact Nat.le_refl 0
  | cons head rest ih =>
      rw [total_cons, total_cons]
      exact Nat.add_le_add (lighter head List.mem_cons_self)
        (ih fun process member => lighter process (List.mem_cons_of_mem head member))

theorem mem_advance (member : process ∈ advance pool index next started) :
    process ∈ pool ∨ process = next ∨ process ∈ started := by
  rcases List.mem_append.mp member with kept | new
  · rcases List.mem_or_eq_of_mem_set kept with old | same
    · exact Or.inl old
    · exact Or.inr (Or.inl same)
  · exact Or.inr (Or.inr new)

/-- What stands at a place after a step. -/
theorem getElem?_advance (found : (advance pool index next started)[other]? = some process) :
    (other = index ∧ process = next) ∨ (other ≠ index ∧ pool[other]? = some process) ∨
      (pool.length ≤ other ∧ process ∈ started) := by
  unfold advance at found
  by_cases inside : other < pool.length
  · rw [List.getElem?_append_left (by simpa using inside), List.getElem?_set] at found
    by_cases same : index = other
    · subst same
      simp only [inside, ↓reduceIte, Option.some.injEq] at found
      exact Or.inl ⟨rfl, found.symm⟩
    · simp only [same, ↓reduceIte] at found
      exact Or.inr (Or.inl ⟨fun equal => same equal.symm, found⟩)
  · have outside : pool.length ≤ other := Nat.le_of_not_lt inside
    rw [List.getElem?_append_right (by simpa using outside)] at found
    exact Or.inr (Or.inr ⟨outside, List.mem_of_getElem? found⟩)

theorem getElem?_advance_self (present : pool[index]? = some current) :
    (advance pool index next started)[index]? = some next := by
  have inside : index < pool.length := (List.getElem?_eq_some_iff.mp present).1
  unfold advance
  rw [List.getElem?_append_left (by simpa using inside), List.getElem?_set]
  simp [inside]

theorem getElem?_advance_of_ne (found : pool[other]? = some process) (different : other ≠ index) :
    (advance pool index next started)[other]? = some process := by
  have inside : other < pool.length := (List.getElem?_eq_some_iff.mp found).1
  unfold advance
  rw [List.getElem?_append_left (by simpa using inside), List.getElem?_set]
  simp [different.symm, found]

end Pool
