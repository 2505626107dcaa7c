import AmberBackup.Lib.Timestamp
import Mathlib.Data.List.Pairwise

/-! # Snapshots of a repository

Snapshots are read from the repository on demand and listed newest first. They are sorted by the
texts of their times, so that the list is in the order of the instants exactly if the texts of
the snapshots are (`list_newest_first_iff`).
-/

namespace AmberBackup

structure Snapshot where
  id : String
  time : Timestamp
  hostname : String

namespace SnapshotsService

/-- The order in which `list` returns the snapshots that restic lists. The sort is stable and
compares the texts of the times. -/
def list (snaps : List Snapshot) : List Snapshot :=
  snaps.mergeSort fun first second => !(first.time.text < second.time.text)

/-- The instants never increase. -/
def NewestFirst (snaps : List Snapshot) : Prop :=
  snaps.Pairwise fun first second => second.time.instant ≤ first.time.instant

/-- The texts of the times are in the order of the instants. -/
def Chronological (snaps : List Snapshot) : Prop :=
  ∀ first ∈ snaps, ∀ second ∈ snaps, first.time.text < second.time.text →
    first.time.instant ≤ second.time.instant

/-- Times with one offset and one number of digits are chronological. -/
theorem chronological_of_uniform {zone : Zone} {digits : Nat} {snaps : List Snapshot}
    (uniform : ∀ snap ∈ snaps, snap.time.zone = zone ∧ snap.time.digits = digits) :
    Chronological snaps := by
  intro first listed second member ordered
  obtain ⟨zones, places⟩ := uniform first listed
  obtain ⟨otherZones, otherPlaces⟩ := uniform second member
  exact Timestamp.instant_le_of_uniform (zones.trans otherZones.symm)
    (places.trans otherPlaces.symm) ordered

variable {snaps : List Snapshot}

theorem list_perm (snaps : List Snapshot) : (list snaps).Perm snaps := List.mergeSort_perm _ _

/-- The texts never increase. -/
theorem list_texts (snaps : List Snapshot) :
    (list snaps).Pairwise fun first second => ¬ first.time.text < second.time.text := by
  have sorted := @List.pairwise_mergeSort _
    (fun first second : Snapshot => !(first.time.text < second.time.text)) ?_ ?_ snaps
  · refine sorted.imp ?_
    intro first second ordered
    simpa using ordered
  · intro first second third
    simp only [Bool.not_eq_true', decide_eq_false_iff_not]
    intro start rest
    exact List.not_lt.mpr (List.le_trans (List.not_lt.mp rest) (List.not_lt.mp start))
  · intro first second
    simp only [Bool.or_eq_true, Bool.not_eq_true', decide_eq_false_iff_not]
    exact (List.le_total second.time.text first.time.text).imp List.not_lt.mpr List.not_lt.mpr

theorem chronological_of_newestFirst (newest : NewestFirst (list snaps)) :
    Chronological snaps := by
  intro first listed second member
  have agree : (list snaps).Pairwise fun first second =>
      (first.time.text < second.time.text → first.time.instant ≤ second.time.instant) ∧
        (second.time.text < first.time.text → second.time.instant ≤ first.time.instant) := by
    refine (newest.and (list_texts snaps)).imp ?_
    rintro first second ⟨later, notBefore⟩
    exact ⟨fun before => absurd before notBefore, fun _ => later⟩
  have both := agree.forall_of_forall_of_flip
    (fun snap _ => ⟨fun _ => le_rfl, fun _ => le_rfl⟩) (agree.imp fun pair => pair.symm)
  exact (both ((list_perm snaps).mem_iff.mpr listed) ((list_perm snaps).mem_iff.mpr member)).1

theorem newestFirst_of_chronological (chronological : Chronological snaps) :
    NewestFirst (list snaps) := by
  refine (list_texts snaps).imp_of_mem ?_
  intro first second listed member notBefore
  have first' := (list_perm snaps).mem_iff.mp listed
  have second' := (list_perm snaps).mem_iff.mp member
  by_cases after : second.time.text < first.time.text
  · exact chronological second second' first first' after
  · have same : first.time.text = second.time.text :=
      List.le_antisymm (List.not_lt.mp after) (List.not_lt.mp notBefore)
    exact (Timestamp.instant_eq_of_text same).ge

/-- **Newest first.** The snapshots are listed newest first exactly if the texts of their times
are in the order of the instants. -/
theorem list_newest_first_iff (snaps : List Snapshot) :
    (list snaps).Perm snaps ∧ (NewestFirst (list snaps) ↔ Chronological snaps) :=
  ⟨list_perm snaps, chronological_of_newestFirst, newestFirst_of_chronological⟩

/-- Behind a whole second a fraction sorts before `Z`. -/
theorem list_not_always_newest_first : ¬ ∀ snaps : List Snapshot, NewestFirst (list snaps) := by
  intro always
  have newest := always
    [{ id := "a", hostname := "srv"
       time := ⟨2026, 1, 1, 10, 0, 0, 0, 0, .utc, ⟨by decide, by decide, by decide⟩,
        by decide, by decide, by decide, by decide, by decide⟩ },
      { id := "b", hostname := "srv"
        time := ⟨2026, 1, 1, 10, 0, 0, 5, 1, .utc, ⟨by decide, by decide, by decide⟩,
          by decide, by decide, by decide, by decide, by decide⟩ }]
  have pair := chronological_of_newestFirst newest _ (List.mem_cons_of_mem _ List.mem_cons_self)
    _ List.mem_cons_self (by decide +kernel)
  exact absurd pair (by decide +kernel)

end SnapshotsService

end AmberBackup
