import AmberBackup.Common.Slug
import AmberBackup.Lib.Occurrences
import AmberBackup.Lib.Ranks
import AmberBackup.Lib.Table

/-! # The migration that introduced slugs

Existing rows got a slug from their names: the rows of one base are numbered in the order
of their creation, and every row but the first has its number appended. The numbers do not
look at the other bases, so that the slugs are distinct exactly when no base is one of the
numbered slugs of another (`backfill_unique_iff`).
-/

namespace AmberBackup

open Relational Ranks

/-- The columns the migration reads. -/
structure NamedRow where
  name : String
  createdAt : Nat
  deriving DecidableEq, Repr

/-- `lower(regexp_replace(name, '[^a-zA-Z0-9]+', '-', 'g'))` without dashes at its ends, or
`entity`. -/
def migrationBase (name : String) : String :=
  slugBase ((dashed Char.isAlphanum false name.toList).map Char.toLower)

/-- `ORDER BY created_at, id`. -/
def createdBefore (first second : Uuid × NamedRow) : Bool :=
  first.2.createdAt < second.2.createdAt ||
    first.2.createdAt = second.2.createdAt && first.1 < second.1

section Backfill

variable (table : Table Uuid NamedRow)

/-- The rows of one base. -/
def partition (base : String) : List (Uuid × NamedRow) :=
  table.rows.filter fun entry => migrationBase entry.2.name = base

/-- `row_number() OVER (PARTITION BY base ORDER BY created_at, id)`. -/
def rowNumber (entry : Uuid × NamedRow) : Nat :=
  rank createdBefore (partition table (migrationBase entry.2.name)) entry + 1

/-- `CASE WHEN rn > 1 THEN base || '-' || rn ELSE base END`. -/
def backfilledSlug (entry : Uuid × NamedRow) : String :=
  if 1 < rowNumber table entry then
    migrationBase entry.2.name ++ "-" ++ toString (rowNumber table entry)
  else migrationBase entry.2.name

/-- The slugs the migration assigns, row by row. -/
def backfill : List String := table.rows.map (backfilledSlug table)

/-- The base of a row is a slug that the numbering of another base arrives at. -/
def numberingClashes : Prop :=
  ∃ base number, 1 < number ∧ number ≤ (partition table base).length ∧
    partition table (base ++ "-" ++ toString number) ≠ []

end Backfill

section Distinctness

variable {table : Table Uuid NamedRow} {base : String} {entry other : Uuid × NamedRow}

theorem matchesSlug_migrationBase (name : String) : matchesSlug (migrationBase name) = true := by
  obtain ⟨chars, single, -⟩ :=
    dashed_spec Char.isAlphanum name.toList (by decide) false
  have dashLowered : ∀ char : Char, char.toLower = '-' → char = '-' := by
    intro char same
    exact eq_of_toLower same (by decide)
  have lowered : ∀ char : Char, char.isAlphanum = true → slugChar char.toLower = true := by
    intro char kept
    have small : char.toNat < 128 := by
      have bounded : ∀ {last : Char}, char.val ≤ last.val → last.toNat < 128 →
          char.toNat < 128 := fun le last => Nat.lt_of_le_of_lt (UInt32.le_iff_toNat_le.mp le) last
      rcases Bool.or_eq_true_iff.mp kept with letter | digit
      · rcases Bool.or_eq_true_iff.mp letter with upper | lower
        · have le : char.val ≤ 'Z'.val := (of_decide_eq_true upper).2
          exact bounded le (by decide)
        · have le := of_decide_eq_true (Bool.and_eq_true_iff.mp lower).2
          exact bounded le (by decide)
      · have le := of_decide_eq_true (Bool.and_eq_true_iff.mp digit).2
        exact bounded le (by decide)
    have all : ∀ number < 128, (Char.ofNat number).isAlphanum = true →
        slugChar (Char.ofNat number).toLower = true := by decide
    have at_char := all char.toNat small
    rw [Char.ofNat_toNat] at at_char
    exact at_char kept
  refine matchesSlug_slugBase ⟨?_, ?_⟩
  · intro char listed
    obtain ⟨source, member, rfl⟩ := List.mem_map.mp listed
    rcases chars source member with kept | rfl
    · exact Or.inl (lowered source kept)
    · exact Or.inr rfl
  · refine List.isChain_map_of_isChain _ (fun first second single both => ?_) single
    exact single ⟨dashLowered first both.1, dashLowered second both.2⟩

/-- The rows of a base are ordered strictly by creation and identifier. -/
theorem orders_createdBefore (base : String) : Orders createdBefore (partition table base) where
  irrefl := fun entry => by simp [createdBefore]
  trans := fun first second third => by
    simp only [createdBefore, Bool.or_eq_true, Bool.and_eq_true, decide_eq_true_eq]
    rintro (sooner | ⟨same, lower⟩) (later | ⟨equal, higher⟩)
    · exact Or.inl (Nat.lt_trans sooner later)
    · exact Or.inl (equal ▸ sooner)
    · exact Or.inl (same ▸ later)
    · exact Or.inr ⟨same.trans equal, Nat.lt_trans lower higher⟩
  total := fun first member second other different => by
    have ids : first.1 ≠ second.1 := by
      intro same
      have present := Table.mem_rows.mp (List.mem_of_mem_filter member)
      have absent := Table.mem_rows.mp (List.mem_of_mem_filter other)
      rw [same, absent] at present
      exact different (Prod.ext same (Option.some.inj present).symm)
    simp only [createdBefore, Bool.or_eq_true, Bool.and_eq_true, decide_eq_true_eq]
    rcases Nat.lt_trichotomy first.2.createdAt second.2.createdAt with sooner | same | later
    · exact Or.inl (Or.inl sooner)
    · rcases Nat.lt_or_gt_of_ne ids with lower | higher
      · exact Or.inl (Or.inr ⟨same, lower⟩)
      · exact Or.inr (Or.inr ⟨same.symm, higher⟩)
    · exact Or.inr (Or.inl later)

theorem mem_partition : entry ∈ partition table base ↔
    entry ∈ table.rows ∧ migrationBase entry.2.name = base := by
  simp [partition]

theorem nodup_partition (base : String) : (partition table base).Nodup :=
  (List.Nodup.of_map _ table.distinct).filter _

/-- The rows of a base are numbered from one on, without gaps. -/
theorem exists_rowNumber {number : Nat} (positive : 0 < number)
    (within : number ≤ (partition table base).length) :
    ∃ entry ∈ table.rows, migrationBase entry.2.name = base ∧ rowNumber table entry = number := by
  obtain ⟨entry, member, ranked⟩ := exists_rank (orders_createdBefore base) (nodup_partition base)
    (show number - 1 < (partition table base).length by omega)
  obtain ⟨listed, rfl⟩ := mem_partition.mp member
  exact ⟨entry, listed, rfl, by unfold rowNumber; omega⟩

theorem rowNumber_le (listed : entry ∈ table.rows) :
    rowNumber table entry ≤ (partition table (migrationBase entry.2.name)).length :=
  rank_lt_length (orders_createdBefore _) (mem_partition.mpr ⟨listed, rfl⟩)

/-- Rows of one base and number are the same. -/
theorem rowNumber_injective (listed : entry ∈ table.rows) (member : other ∈ table.rows)
    (bases : migrationBase entry.2.name = migrationBase other.2.name)
    (same : rowNumber table entry = rowNumber table other) : entry = other := by
  unfold rowNumber at same
  rw [bases] at same
  exact rank_injective (orders_createdBefore _) (mem_partition.mpr ⟨listed, bases⟩)
    (mem_partition.mpr ⟨member, rfl⟩) (Nat.succ.inj same)

theorem matchesSlug_backfilled (entry : Uuid × NamedRow) :
    matchesSlug (backfilledSlug table entry) = true := by
  unfold backfilledSlug
  split
  · exact matchesSlug_numbered (matchesSlug_migrationBase _) _
  · exact matchesSlug_migrationBase _

/-- A row without a number and a numbered one share a slug only in a clash. -/
theorem clashes_of_base {number : Nat} (listed : entry ∈ table.rows) (member : other ∈ table.rows)
    (numbered : number = rowNumber table entry) (second : 1 < number)
    (same : migrationBase other.2.name =
      migrationBase entry.2.name ++ "-" ++ toString number) : numberingClashes table :=
  ⟨migrationBase entry.2.name, number, second, numbered ▸ rowNumber_le listed,
    List.ne_nil_of_mem (mem_partition.mpr ⟨member, same⟩)⟩

/-- Two rows share a slug only in a clash. -/
theorem eq_of_backfilledSlug (listed : entry ∈ table.rows) (member : other ∈ table.rows)
    (clear : ¬ numberingClashes table)
    (same : backfilledSlug table entry = backfilledSlug table other) : entry = other := by
  have positive : ∀ entry : Uuid × NamedRow, 0 < rowNumber table entry := fun entry =>
    Nat.succ_pos _
  unfold backfilledSlug at same
  split at same
  case isTrue numbered =>
    split at same
    case isTrue =>
      obtain ⟨bases, numbers⟩ := numbered_injective same
      exact rowNumber_injective listed member bases numbers
    case isFalse => exact absurd (clashes_of_base listed member rfl numbered same.symm) clear
  case isFalse first =>
    split at same
    case isTrue numbered => exact absurd (clashes_of_base member listed rfl numbered same) clear
    case isFalse second =>
      have one := positive entry
      have other := positive other
      exact rowNumber_injective listed member same (by omega)

/-- **The slug migration.** Every slug it assigns has the form of a slug, and the slugs of a
table are distinct if and only if no row's base is a slug the numbering of another base
arrives at. -/
theorem backfill_unique_iff (table : Table Uuid NamedRow) :
    (∀ slug ∈ backfill table, matchesSlug slug = true) ∧
      ((backfill table).Nodup ↔ ¬ numberingClashes table) := by
  refine ⟨?_, ?_, ?_⟩
  · intro slug listed
    obtain ⟨entry, _, rfl⟩ := List.mem_map.mp listed
    exact matchesSlug_backfilled entry
  · rintro distinct ⟨base, number, second, within, clash⟩
    obtain ⟨entry, listed, based, numbered⟩ := exists_rowNumber (by omega) within
    have other : 0 < (partition table (base ++ "-" ++ toString number)).length :=
      List.length_pos_iff.mpr clash
    obtain ⟨first, member, firstBased, firstNumbered⟩ := exists_rowNumber Nat.one_pos other
    have same : backfilledSlug table entry = backfilledSlug table first := by
      unfold backfilledSlug
      rw [if_pos (numbered.symm ▸ second), if_neg (by omega), based, numbered, firstBased]
    have equal : entry = first :=
      (List.nodup_map_iff_inj_on (List.Nodup.of_map _ table.distinct)).mp distinct entry listed
        first member same
    rw [equal, firstNumbered] at numbered
    omega
  · intro clear
    refine (List.nodup_map_iff_inj_on (List.Nodup.of_map _ table.distinct)).mpr ?_
    exact fun entry listed other member same => eq_of_backfilledSlug listed member clear same

/-- Two connections named `nas`, and one named `nas 2`. -/
def nasTable : Table Uuid NamedRow := .ofList [
  (1, { name := "nas", createdAt := 10 }), (2, { name := "NAS", createdAt := 20 }),
  (3, { name := "nas 2", createdAt := 30 })]

/-- The second one and the last one get the same slug. -/
theorem backfill_clashes : ¬ ∀ table : Table Uuid NamedRow, (backfill table).Nodup := by
  intro distinct
  have assigned : backfill nasTable = ["nas", "nas-2", "nas-2"] := by decide +kernel
  have impossible := distinct nasTable
  rw [assigned] at impossible
  revert impossible
  decide

end Distinctness

end AmberBackup
