import Mathlib.Data.List.Basic
import Mathlib.Data.List.Nodup
import Mathlib.Tactic.Common

/-! # Keyed tables

A table holds rows under pairwise distinct keys, in the order of their insertion.
Statements read it through the row of a key (`Table.get?`) or through the keys a
condition selects (`Table.keysWhere`), and write it by inserting one row under a
fresh key (`Table.insert`) or by changing every row a condition hits
(`Table.update`). Each statement is one function of the table, so it is atomic.
-/

namespace Relational

variable {κ ρ : Type} [DecidableEq κ]

/-- The row listed under `key`. -/
def find (key : κ) : List (κ × ρ) → Option ρ
  | [] => none
  | (other, row) :: rest => if other = key then some row else find key rest

theorem find_eq_none {rows : List (κ × ρ)} {key : κ} :
    find key rows = none ↔ key ∉ rows.map Prod.fst := by
  induction rows with
  | nil => simp only [find, List.map_nil, List.not_mem_nil, not_false_eq_true]
  | cons entry rest ih =>
      obtain ⟨other, row⟩ := entry
      by_cases same : other = key
      · simp [find, same]
      · have different : ¬ key = other := fun equal => same equal.symm
        simp [find, same, different, ih]

theorem find_append (first second : List (κ × ρ)) (key : κ) :
    find key (first ++ second) = (find key first).or (find key second) := by
  induction first with
  | nil => rfl
  | cons entry rest ih =>
      obtain ⟨other, row⟩ := entry
      by_cases same : other = key
      · simp [find, same]
      · simp [find, same, ih]

theorem find_map (rows : List (κ × ρ)) (change : κ → ρ → ρ) (key : κ) :
    find key (rows.map fun entry => (entry.1, change entry.1 entry.2)) =
      (find key rows).map (change key) := by
  induction rows with
  | nil => rfl
  | cons entry rest ih =>
      obtain ⟨other, row⟩ := entry
      by_cases same : other = key
      · simp [find, same]
      · simp [find, same, ih]

theorem mem_of_find {rows : List (κ × ρ)} {key : κ} {row : ρ}
    (found : find key rows = some row) : (key, row) ∈ rows := by
  induction rows with
  | nil => cases found
  | cons entry rest ih =>
      obtain ⟨other, value⟩ := entry
      by_cases same : other = key
      · simp only [find, same, ↓reduceIte, Option.some.injEq] at found
        simp [same, found]
      · simp only [find, same, ↓reduceIte] at found
        exact List.mem_cons_of_mem _ (ih found)

theorem find_of_mem {rows : List (κ × ρ)} {key : κ} {row : ρ}
    (distinct : (rows.map Prod.fst).Nodup) (member : (key, row) ∈ rows) :
    find key rows = some row := by
  induction rows with
  | nil => cases member
  | cons entry rest ih =>
      obtain ⟨other, value⟩ := entry
      rw [List.map_cons, List.nodup_cons] at distinct
      rcases List.mem_cons.mp member with head | tail
      · cases head
        simp [find]
      · have listed : key ∈ rest.map Prod.fst := List.mem_map_of_mem tail
        have different : ¬ other = key := fun same => distinct.1 (same ▸ listed)
        simp only [find, different, ↓reduceIte]
        exact ih distinct.2 tail

/-- Rows under pairwise distinct keys. -/
structure Table (κ ρ : Type) where
  rows : List (κ × ρ)
  distinct : (rows.map Prod.fst).Nodup

namespace Table

omit [DecidableEq κ] in
@[ext] theorem ext {table other : Table κ ρ} (same : table.rows = other.rows) :
    table = other := by
  cases table
  cases other
  cases same
  rfl

def empty : Table κ ρ := ⟨[], List.nodup_nil⟩

/-- The table of the listed rows; a key listed again is ignored. -/
def ofList (rows : List (κ × ρ)) : Table κ ρ :=
  if distinct : (rows.map Prod.fst).Nodup then ⟨rows, distinct⟩ else empty

def get? (table : Table κ ρ) (key : κ) : Option ρ := find key table.rows

/-- `INSERT`: a row under a fresh key. A key in use leaves the table as it is. -/
def insert (table : Table κ ρ) (key : κ) (row : ρ) : Table κ ρ :=
  if fresh : table.get? key = none then
    ⟨table.rows ++ [(key, row)], by
      rw [List.map_append, List.nodup_append]
      refine ⟨table.distinct, by simp, ?_⟩
      intro first listed second member same
      simp only [List.map_cons, List.map_nil, List.mem_singleton] at member
      exact find_eq_none.mp fresh (member ▸ same ▸ listed)⟩
  else table

/-- `UPDATE … SET change WHERE hit`. -/
def update (table : Table κ ρ) (hit : κ → ρ → Bool) (change : ρ → ρ) : Table κ ρ :=
  ⟨table.rows.map fun entry =>
      (entry.1, if hit entry.1 entry.2 then change entry.2 else entry.2), by
    rw [List.map_map]
    exact table.distinct⟩

/-- `DELETE … WHERE hit`. -/
def delete (table : Table κ ρ) (hit : κ → ρ → Bool) : Table κ ρ :=
  ⟨table.rows.filter fun entry => !hit entry.1 entry.2,
    table.distinct.sublist (List.filter_sublist.map Prod.fst)⟩

/-- `SELECT key WHERE hit`, in the order of insertion. -/
def keysWhere (table : Table κ ρ) (hit : κ → ρ → Bool) : List κ :=
  (table.rows.filter fun entry => hit entry.1 entry.2).map Prod.fst

/-- Whether a condition hits any row. -/
def anyWhere (table : Table κ ρ) (hit : κ → ρ → Bool) : Bool :=
  table.rows.any fun entry => hit entry.1 entry.2

variable {table : Table κ ρ} {key other : κ} {row : ρ}

@[simp] theorem get?_empty : (empty : Table κ ρ).get? key = none := rfl

theorem mem_rows : (key, row) ∈ table.rows ↔ table.get? key = some row :=
  ⟨find_of_mem table.distinct, mem_of_find⟩

theorem rows_insert (fresh : table.get? key = none) :
    (table.insert key row).rows = table.rows ++ [(key, row)] := by
  unfold insert
  rw [dif_pos fresh]

theorem get?_insert_self (fresh : table.get? key = none) :
    (table.insert key row).get? key = some row := by
  unfold get? at fresh ⊢
  rw [rows_insert fresh, find_append, fresh]
  simp [find]

theorem get?_insert_of_ne (different : other ≠ key) :
    (table.insert key row).get? other = table.get? other := by
  by_cases fresh : table.get? key = none
  · unfold get?
    rw [rows_insert fresh, find_append]
    simp [find, different.symm]
  · unfold insert
    rw [dif_neg fresh]

/-- Every row of a table is still there after an insertion. -/
theorem get?_insert_of_some (present : table.get? other = some row) (value : ρ) :
    (table.insert key value).get? other = some row := by
  by_cases same : other = key
  · subst same
    unfold insert
    rw [dif_neg (by simp [present])]
    exact present
  · rw [get?_insert_of_ne same, present]

theorem get?_insert (fresh : table.get? key = none) :
    (table.insert key row).get? other = if other = key then some row else table.get? other := by
  by_cases same : other = key
  · subst same
    simp [get?_insert_self fresh]
  · simp [get?_insert_of_ne same, same]

/-- A row after an insertion is the new one, or was there. -/
theorem insert_cases {value : ρ} (fresh : table.get? key = none)
    (found : (table.insert key row).get? other = some value) :
    (other = key ∧ value = row) ∨ (other ≠ key ∧ table.get? other = some value) := by
  rw [get?_insert fresh] at found
  split at found
  case isTrue same => exact .inl ⟨same, (Option.some.inj found).symm⟩
  case isFalse different => exact .inr ⟨different, found⟩

theorem get?_update (hit : κ → ρ → Bool) (change : ρ → ρ) :
    (table.update hit change).get? key =
      (table.get? key).map fun row => if hit key row then change row else row :=
  find_map table.rows (fun key row => if hit key row then change row else row) key

/-- An update of one key keeps the rows of the others. -/
theorem get?_update_of_ne (different : other ≠ key) (change : ρ → ρ) :
    (table.update (fun id _ => id = key) change).get? other = table.get? other := by
  rw [get?_update]
  cases table.get? other with
  | none => rfl
  | some row => simp [different]

theorem get?_update_self (change : ρ → ρ) :
    (table.update (fun id _ => id = key) change).get? key = (table.get? key).map change := by
  rw [get?_update]
  simp

/-- A row after an update of one key is the row of that key, changed, or as it was. -/
theorem update_cases {change : ρ → ρ} {value : ρ}
    (found : (table.update (fun id _ => id = key) change).get? other = some value) :
    (other = key ∧ ∃ old, table.get? key = some old ∧ value = change old) ∨
      (other ≠ key ∧ table.get? other = some value) := by
  by_cases same : other = key
  · subst same
    rw [get?_update_self] at found
    obtain ⟨old, present, changed⟩ := Option.map_eq_some_iff.mp found
    exact .inl ⟨rfl, old, present, changed.symm⟩
  · rw [get?_update_of_ne same] at found
    exact .inr ⟨same, found⟩

theorem get?_delete (hit : κ → ρ → Bool) :
    (table.delete hit).get? key = (table.get? key).filter fun row => !hit key row := by
  ext row
  rw [← mem_rows, Option.filter_eq_some_iff, ← mem_rows]
  simp [delete]

/-- A deletion of one key keeps the rows of the others. -/
theorem get?_delete_of_ne (different : other ≠ key) :
    (table.delete fun id _ => id = key).get? other = table.get? other := by
  rw [get?_delete]
  cases table.get? other with
  | none => rfl
  | some row => simp [different]

theorem get?_delete_self : (table.delete fun id _ => id = key).get? key = none := by
  rw [get?_delete]
  cases table.get? key with
  | none => rfl
  | some row => simp

theorem mem_keysWhere {hit : κ → ρ → Bool} :
    key ∈ table.keysWhere hit ↔ ∃ row, table.get? key = some row ∧ hit key row = true := by
  simp only [keysWhere, List.mem_map, List.mem_filter, Prod.exists, exists_and_right,
    exists_eq_right]
  exact exists_congr fun row => and_congr_left fun _ => mem_rows

omit [DecidableEq κ] in
theorem nodup_keysWhere (hit : κ → ρ → Bool) : (table.keysWhere hit).Nodup :=
  table.distinct.sublist (List.filter_sublist.map Prod.fst)

/-- The rows a condition selects, where it selects one. -/
theorem filter_rows_of_unique {hit : κ → ρ → Bool} (present : table.get? key = some row)
    (hits : hit key row = true)
    (only : ∀ other value, table.get? other = some value → hit other value = true → other = key) :
    (table.rows.filter fun entry => hit entry.1 entry.2) = [(key, row)] := by
  refine List.perm_singleton.mp ((List.perm_ext_iff_of_nodup ?_ (List.nodup_singleton _)).mpr ?_)
  · exact (List.Nodup.of_map Prod.fst table.distinct).filter _
  · rintro ⟨other, value⟩
    rw [List.mem_filter, List.mem_singleton, mem_rows]
    constructor
    · rintro ⟨found, hit⟩
      obtain rfl := only other value found hit
      rw [present] at found
      rw [Option.some.inj found]
    · rintro ⟨⟩
      exact ⟨present, hits⟩

theorem anyWhere_iff {hit : κ → ρ → Bool} :
    table.anyWhere hit = true ↔ ∃ key row, table.get? key = some row ∧ hit key row = true := by
  simp only [anyWhere, List.any_eq_true, Prod.exists]
  exact exists_congr fun key => exists_congr fun row => and_congr_left fun _ => mem_rows

theorem anyWhere_eq_false {hit : κ → ρ → Bool} :
    table.anyWhere hit = false ↔
      ∀ key row, table.get? key = some row → hit key row = false := by
  rw [← Bool.not_eq_true, anyWhere_iff]
  simp

omit [DecidableEq κ] in
/-- An update that changes nothing a condition looks at. -/
theorem anyWhere_update {hit condition : κ → ρ → Bool} {change : ρ → ρ}
    (same : ∀ key row, condition key (change row) = condition key row) :
    (table.update hit change).anyWhere condition = table.anyWhere condition := by
  unfold anyWhere update
  rw [List.any_map]
  congr 1
  funext entry
  dsimp only [Function.comp_apply]
  split
  · exact same _ _
  · rfl

/-- A deletion that hits no row leaves the table as it was, and only such a deletion does. -/
theorem delete_eq_self_iff {hit : κ → ρ → Bool} :
    table.delete hit = table ↔ table.anyWhere hit = false := by
  rw [anyWhere_eq_false]
  constructor
  · intro same key row found
    have kept : (table.delete hit).get? key = some row := by rw [same, found]
    rw [get?_delete, Option.filter_eq_some_iff] at kept
    simpa using kept.2
  · intro unhit
    apply ext
    refine List.filter_eq_self.mpr ?_
    rintro ⟨key, row⟩ member
    simp [unhit key row (mem_rows.mp member)]

/-- An update that changes no row it hits leaves the table as it was, and only
such an update does. -/
theorem update_eq_self_iff {hit : κ → ρ → Bool} {change : ρ → ρ} :
    table.update hit change = table ↔
      ∀ key row, table.get? key = some row → hit key row = true → change row = row := by
  constructor
  · intro same key row present hits
    have kept := congrArg (fun table => table.get? key) same
    simpa only [get?_update, present, Option.map_some, hits, ↓reduceIte, Option.some.injEq]
      using kept
  · intro quiet
    apply ext
    apply List.map_congr_left (g := id) _ |>.trans (List.map_id _)
    intro entry member
    obtain ⟨key, row⟩ := entry
    by_cases hits : hit key row = true
    · simp [hits, quiet key row (mem_rows.mp member) hits]
    · simp [hits]

/-- An insertion under a fresh key always changes the table. -/
theorem insert_ne_self (fresh : table.get? key = none) : table.insert key row ≠ table := by
  intro same
  have present : (table.insert key row).get? key = some row := get?_insert_self fresh
  rw [same, fresh] at present
  cases present

theorem keysWhere_insert (fresh : table.get? key = none) (hit : κ → ρ → Bool) :
    (table.insert key row).keysWhere hit =
      table.keysWhere hit ++ if hit key row then [key] else [] := by
  unfold keysWhere
  rw [rows_insert fresh, List.filter_append, List.map_append]
  by_cases hits : hit key row <;> simp [hits]

omit [DecidableEq κ] in
/-- A condition no update touches selects the same keys afterwards. -/
theorem keysWhere_update {hit condition : κ → ρ → Bool} {change : ρ → ρ}
    (kept : ∀ key row, condition key (change row) = condition key row) :
    (table.update hit change).keysWhere condition = table.keysWhere condition := by
  unfold keysWhere update
  rw [List.filter_map, List.map_map]
  congr 1
  apply List.filter_congr
  intro entry _
  by_cases hits : hit entry.1 entry.2 <;> simp [hits, kept]

end Table

end Relational
