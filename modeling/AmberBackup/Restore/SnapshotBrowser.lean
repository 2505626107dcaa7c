import AmberBackup.Lib.Comparators

/-! # The entries of a snapshot

A directory of a snapshot is read from restic's output and listed with directories first, by path.
The comparator tells directories apart from everything else, and compares paths only within one
type: it is an order exactly on lists whose entries that are no directories have one type, and
there every sort lists them as intended (`ls_ordered_iff`).
-/

namespace AmberBackup

/-- A line of the output that is a JSON object. -/
structure ResticNode where
  structType : Option String := none
  name : Option String := none
  type : Option String := none
  path : Option String := none
  size : Option Nat := none
  mtime : Option String := none
  deriving DecidableEq, Repr

structure ResticLsEntry where
  name : Option String := none
  type : Option String
  path : String
  size : Option Nat := none
  mtime : Option String := none
  deriving DecidableEq, Repr

namespace ResticService

/-- The directory that is listed. -/
def lsTarget (dir : Option String) : String := (dir.filter (· ≠ "")).getD "/"

/-- The entry of a node; restic lists the directory itself too. -/
def lsEntry (target : String) (node : ResticNode) : Option ResticLsEntry :=
  if node.structType = some "node" ∨ node.name.any (· ≠ "") then
    match node.path with
    | none => none
    | some path =>
        if path ≠ "" ∧ path ≠ target then
          some { name := node.name, type := node.type, path, size := node.size, mtime := node.mtime }
        else none
  else none

def ls (nodes : List ResticNode) (dir : Option String) : List ResticLsEntry :=
  nodes.filterMap (lsEntry (lsTarget dir))

theorem lsEntry_type {target : String} {node : ResticNode} {entry : ResticLsEntry}
    (made : lsEntry target node = some entry) : entry.type = node.type := by
  unfold lsEntry at made
  by_cases listed : node.structType = some "node" ∨ node.name.any (· ≠ "")
  · rw [if_pos listed] at made
    cases path : node.path with
    | none =>
      rw [path] at made
      cases made
    | some text =>
      rw [path] at made
      by_cases inside : text ≠ "" ∧ text ≠ target
      · simp only [if_pos inside, Option.some.injEq] at made
        rw [← made]
      · simp only [if_neg inside, reduceCtorEq] at made
  · rw [if_neg listed] at made
    cases made

end ResticService

namespace SnapshotsService

open Comparator (Consistent CorrectSort StrictWeak)

/-- Sort directories first, then by name. -/
def compareEntries (localeCompare : String → String → Int) (first second : ResticLsEntry) : Int :=
  if first.type ≠ second.type then
    if first.type = some "dir" then -1 else 1
  else localeCompare first.path second.path

/-- The entries of a directory, listed by the engine's sort. -/
def ls (sort : List ResticLsEntry → List ResticLsEntry) (nodes : List ResticNode)
    (dir : Option String) : List ResticLsEntry :=
  sort (ResticService.ls nodes dir)

/-- A collation orders all texts, with ties. -/
structure Collation (localeCompare : String → String → Int) : Prop where
  antisymm : ∀ first second, 0 < localeCompare first second ↔ localeCompare second first < 0
  trans : ∀ first second third, localeCompare first second ≤ 0 →
    localeCompare second third ≤ 0 → localeCompare first third ≤ 0

/-- Directories stand first, and paths ascend within directories and within the rest. -/
structure Browsable (localeCompare : String → String → Int) (listed : List ResticLsEntry) :
    Prop where
  dirsFirst : listed.Pairwise fun first second =>
    second.type = some "dir" → first.type = some "dir"
  ascending : listed.Pairwise fun first second =>
    (first.type = some "dir" ↔ second.type = some "dir") →
      localeCompare first.path second.path ≤ 0

/-- Entries that are no directories have one type. -/
def OneOtherType (entries : List ResticLsEntry) : Prop :=
  ∀ first ∈ entries, ∀ second ∈ entries, first.type ≠ some "dir" → second.type ≠ some "dir" →
    first.type = second.type

section Order

variable {localeCompare : String → String → Int} {entries listed : List ResticLsEntry}
  {first second third : ResticLsEntry}

/-- Directories come first; two directories, and two other entries, come in the order of their
paths. -/
theorem compareEntries_eq (one : OneOtherType entries) (inFirst : first ∈ entries)
    (inSecond : second ∈ entries) :
    compareEntries localeCompare first second =
      if first.type = some "dir" then
        if second.type = some "dir" then localeCompare first.path second.path else -1
      else if second.type = some "dir" then 1
      else localeCompare first.path second.path := by
  unfold compareEntries
  by_cases dir : first.type = some "dir"
  · by_cases other : second.type = some "dir"
    · rw [if_neg (not_not.mpr (dir.trans other.symm)), if_pos dir, if_pos other]
    · rw [if_pos fun same => other (same.symm.trans dir), if_pos dir, if_pos dir, if_neg other]
  · by_cases other : second.type = some "dir"
    · rw [if_pos fun same => dir (same.trans other), if_neg dir, if_neg dir, if_pos other]
    · have same := one first inFirst second inSecond dir other
      rw [if_neg (not_not.mpr same), if_neg dir, if_neg other]

/-- With one other type the comparator is an order. -/
theorem compareEntries_consistent (collation : Collation localeCompare)
    (one : OneOtherType entries) : Consistent (compareEntries localeCompare) entries := by
  refine ⟨?_, ?_⟩
  · intro first inFirst second inSecond
    rw [compareEntries_eq one inFirst inSecond, compareEntries_eq one inSecond inFirst]
    by_cases dir : first.type = some "dir"
    · by_cases other : second.type = some "dir"
      · rw [if_pos dir, if_pos other, if_pos other, if_pos dir]
        exact collation.antisymm first.path second.path
      · rw [if_pos dir, if_neg other, if_neg other, if_pos dir]
        decide
    · by_cases other : second.type = some "dir"
      · rw [if_neg dir, if_pos other, if_pos other, if_neg dir]
        decide
      · rw [if_neg dir, if_neg other, if_neg other, if_neg dir]
        exact collation.antisymm first.path second.path
  · intro first inFirst second inSecond third inThird
    rw [compareEntries_eq one inFirst inSecond, compareEntries_eq one inSecond inThird,
      compareEntries_eq one inFirst inThird]
    have paths := collation.trans first.path second.path third.path
    by_cases dir : first.type = some "dir"
    · by_cases middle : second.type = some "dir"
      · by_cases last : third.type = some "dir"
        · simpa only [dir, middle, last, if_true] using paths
        · intro _ _
          rw [if_pos dir, if_neg last]
          decide
      · by_cases last : third.type = some "dir"
        · intro _ after
          rw [if_neg middle, if_pos last] at after
          exact absurd after (by decide)
        · intro _ _
          rw [if_pos dir, if_neg last]
          decide
    · by_cases middle : second.type = some "dir"
      · intro before
        rw [if_neg dir, if_pos middle] at before
        exact absurd before (by decide)
      · by_cases last : third.type = some "dir"
        · intro _ after
          rw [if_neg middle, if_pos last] at after
          exact absurd after (by decide)
        · simpa only [dir, middle, last, if_false] using paths

/-- Two entries of different types that are no directories come one after the other. -/
theorem oneOtherType_of_consistent
    (consistent : Consistent (compareEntries localeCompare) entries) : OneOtherType entries := by
  intro first inFirst second inSecond dir other
  by_contra different
  have later : ∀ {left right : ResticLsEntry}, left.type ≠ right.type →
      left.type ≠ some "dir" → compareEntries localeCompare left right = 1 := by
    intro left right types dir
    unfold compareEntries
    rw [if_pos types, if_neg dir]
  have both := consistent.antisymm first inFirst second inSecond
  rw [later different dir, later (Ne.symm different) other] at both
  exact absurd (both.mp (by decide)) (by decide)

/-- Entries that are sorted are listed as intended. -/
theorem browsable_of_sorted (one : OneOtherType entries) (perm : listed.Perm entries)
    (sorted : Comparator.Sorted (compareEntries localeCompare) listed) :
    Browsable localeCompare listed := by
  have ordered := List.Pairwise.and_mem.mp sorted
  refine ⟨ordered.imp ?_, ordered.imp ?_⟩
  · rintro first second ⟨inFirst, inSecond, before⟩ last
    rw [compareEntries_eq one (perm.mem_iff.mp inFirst) (perm.mem_iff.mp inSecond)] at before
    by_contra dir
    rw [if_neg dir, if_pos last] at before
    exact absurd before (by decide)
  · rintro first second ⟨inFirst, inSecond, before⟩ alike
    rw [compareEntries_eq one (perm.mem_iff.mp inFirst) (perm.mem_iff.mp inSecond)] at before
    by_cases dir : first.type = some "dir"
    · rwa [if_pos dir, if_pos (alike.mp dir)] at before
    · rwa [if_neg dir, if_neg fun last => dir (alike.mpr last)] at before

/-- A correct sort lists such entries as intended. -/
theorem browsable_of_oneOtherType (collation : Collation localeCompare)
    (one : OneOtherType entries) {sort : List ResticLsEntry → List ResticLsEntry}
    (correct : CorrectSort (compareEntries localeCompare) sort) :
    (sort entries).Perm entries ∧ Browsable localeCompare (sort entries) := by
  have consistent := compareEntries_consistent collation one
  have perm := correct.perm entries
  exact ⟨perm, browsable_of_sorted one perm (correct.sorted entries consistent)⟩

/-- A directory that holds nothing but files and directories is listed as intended. -/
theorem ls_browsable (collation : Collation localeCompare)
    {sort : List ResticLsEntry → List ResticLsEntry}
    (correct : CorrectSort (compareEntries localeCompare) sort) {nodes : List ResticNode}
    {dir : Option String} (plain : ∀ node ∈ nodes, node.type = some "file" ∨
      node.type = some "dir") :
    (ls sort nodes dir).Perm (ResticService.ls nodes dir) ∧
      Browsable localeCompare (ls sort nodes dir) := by
  apply browsable_of_oneOtherType collation _ correct
  have types : ∀ entry ∈ ResticService.ls nodes dir, entry.type ≠ some "dir" →
      entry.type = some "file" := by
    intro entry mem other
    obtain ⟨node, inNodes, made⟩ := List.mem_filterMap.mp mem
    rw [ResticService.lsEntry_type made] at other ⊢
    exact (plain node inNodes).resolve_right other
  intro first inFirst second inSecond dir other
  exact (types first inFirst dir).trans (types second inSecond other).symm

/-- **The order of the browser.** The comparator is an order on the entries, and every sort lists
them as intended, exactly if the entries that are no directories have one type. -/
theorem ls_ordered_iff (collation : Collation localeCompare) (entries : List ResticLsEntry) :
    (StrictWeak (compareEntries localeCompare) entries ∧
      ∀ sort, CorrectSort (compareEntries localeCompare) sort →
        (sort entries).Perm entries ∧ Browsable localeCompare (sort entries)) ↔
      OneOtherType entries := by
  constructor
  · rintro ⟨weak, -⟩
    exact oneOtherType_of_consistent (Comparator.strictWeak_iff.mp weak)
  · intro one
    refine ⟨Comparator.strictWeak_iff.mpr (compareEntries_consistent collation one), ?_⟩
    intro sort correct
    exact browsable_of_oneOtherType collation one correct

end Order

/-- The order of code points. -/
def codePoints (first second : String) : Int :=
  if first < second then -1 else if second < first then 1 else 0

theorem codePoints_nonpos {first second : String} :
    codePoints first second ≤ 0 ↔ first ≤ second := by
  unfold codePoints
  by_cases before : first < second
  · rw [if_pos before]
    exact ⟨fun _ => String.not_lt.mp (String.lt_asymm before), fun _ => by decide⟩
  · by_cases after : second < first
    · rw [if_neg before, if_pos after]
      exact ⟨fun positive => absurd positive (by decide),
        fun le => absurd after (String.not_lt.mpr le)⟩
    · rw [if_neg before, if_neg after]
      exact ⟨fun _ => String.not_lt.mp after, fun _ => Int.le_refl 0⟩

theorem codePoints_collation : Collation codePoints := by
  refine ⟨?_, ?_⟩
  · intro first second
    unfold codePoints
    by_cases before : first < second
    · rw [if_pos before, if_neg (String.lt_asymm before), if_pos before]
      decide
    · by_cases after : second < first
      · rw [if_neg before, if_pos after, if_pos after]
        decide
      · rw [if_neg before, if_neg after, if_neg after, if_neg before]
  · intro first second third start rest
    rw [codePoints_nonpos] at start rest ⊢
    exact String.le_trans start rest

def entry (type path : String) : ResticLsEntry := { type := some type, path }

theorem codePoints_ordered :
    StrictWeak (compareEntries codePoints)
        [entry "file" "/b", entry "dir" "/c", entry "file" "/a"] ∧
      ∀ sort, CorrectSort (compareEntries codePoints) sort →
        (sort [entry "file" "/b", entry "dir" "/c", entry "file" "/a"]).Perm
            [entry "file" "/b", entry "dir" "/c", entry "file" "/a"] ∧
          Browsable codePoints (sort [entry "file" "/b", entry "dir" "/c", entry "file" "/a"]) :=
  (ls_ordered_iff codePoints_collation _).mpr (by unfold OneOtherType; decide +kernel)

/-- A file and a symbolic link each come after the other, and a merge sort lists the link first. -/
theorem ls_not_ordered :
    ¬ StrictWeak (compareEntries codePoints) [entry "file" "/a", entry "symlink" "/b"] ∧
      ∃ sort, CorrectSort (compareEntries codePoints) sort ∧
        sort [entry "file" "/a", entry "symlink" "/b"] =
          [entry "symlink" "/b", entry "file" "/a"] ∧
        ¬ Browsable codePoints (sort [entry "file" "/a", entry "symlink" "/b"]) := by
  have swapped : (List.mergeSort [entry "file" "/a", entry "symlink" "/b"] fun first second =>
      decide (compareEntries codePoints first second ≤ 0)) =
      [entry "symlink" "/b", entry "file" "/a"] := by
    have after : ¬ compareEntries codePoints (entry "file" "/a") (entry "symlink" "/b") ≤ 0 := by
      decide +kernel
    simp [List.mergeSort, List.MergeSort.Internal.splitInTwo, after]
  refine ⟨?_, _, Comparator.mergeSort_correct _, swapped, ?_⟩
  · intro weak
    have both := weak.antisymm (entry "file" "/a") List.mem_cons_self (entry "symlink" "/b")
      (List.mem_cons_of_mem _ List.mem_cons_self)
    exact absurd (both.mp (by decide +kernel)) (by decide +kernel)
  · intro browsable
    have listed := browsable.ascending
    rw [swapped] at listed
    have paths := List.rel_of_pairwise_cons listed List.mem_cons_self (by decide +kernel)
    exact absurd paths (by decide +kernel)

end SnapshotsService

end AmberBackup
