import AmberBackup.Database.Service

/-! # Which rows a change touches

Two states of the database agree on a row when it is in both with the same columns, or in
neither. What a call may touch is given by a set of rows: outside of it the states before
and after the call agree (`OnlyRows`).
-/

namespace AmberBackup

open Relational

/-- A row, by its table and its identifier; a row of a table without identifiers is given
by its columns. -/
inductive RowRef where
  | job (id : Uuid)
  | repository (id : Uuid)
  | run (id : Uuid)
  | restore (id : Uuid)
  | target (id : Uuid)
  | secret (id : Uuid)
  | agent (id : Uuid)
  | channel (id : Uuid)
  | grant (row : ResourceGrant)
  | reading (row : RepositoryStatsHistory)
  deriving DecidableEq, Repr

/-- The states agree on a row. -/
def SameRow (before after : Db) : RowRef → Prop
  | .job id => after.backupJobs.get? id = before.backupJobs.get? id
  | .repository id => after.repositories.get? id = before.repositories.get? id
  | .run id => after.jobRuns.get? id = before.jobRuns.get? id
  | .restore id => after.restoreRuns.get? id = before.restoreRuns.get? id
  | .target id => after.targets.get? id = before.targets.get? id
  | .secret id => after.secrets.get? id = before.secrets.get? id
  | .agent id => after.agents.get? id = before.agents.get? id
  | .channel id => after.notificationChannels.get? id = before.notificationChannels.get? id
  | .grant row => after.resourceGrants.count row = before.resourceGrants.count row
  | .reading row =>
      after.repositoryStatsHistory.count row = before.repositoryStatsHistory.count row

/-- The states agree outside of a set of rows. -/
def OnlyRows (rows : RowRef → Prop) (before after : Db) : Prop :=
  ∀ ref, ¬ rows ref → SameRow before after ref

section Agreement

variable {rows others : RowRef → Prop} {db first second third : Db} {ref : RowRef}

theorem SameRow.refl (db : Db) (ref : RowRef) : SameRow db db ref := by
  cases ref <;> exact rfl

theorem SameRow.trans (before : SameRow first second ref) (after : SameRow second third ref) :
    SameRow first third ref := by
  cases ref <;> exact Eq.trans after before

namespace OnlyRows

theorem refl (rows : RowRef → Prop) (db : Db) : OnlyRows rows db db :=
  fun ref _ => SameRow.refl db ref

theorem trans (before : OnlyRows rows first second) (after : OnlyRows rows second third) :
    OnlyRows rows first third :=
  fun ref outside => (before ref outside).trans (after ref outside)

theorem mono (only : OnlyRows rows first second) (wider : ∀ ref, rows ref → others ref) :
    OnlyRows others first second :=
  fun ref outside => only ref fun inside => outside (wider ref inside)

/-- A row on which the states differ is one of the set. -/
theorem differs (only : OnlyRows rows first second) (differs : ¬ SameRow first second ref) :
    rows ref := by
  by_contra outside
  exact differs (only ref outside)

/-- Statements on one table touch its rows alone. -/
theorem of_jobs {table : Table Uuid BackupJob}
    (kept : ∀ id, ¬ rows (.job id) → table.get? id = db.backupJobs.get? id) :
    OnlyRows rows db { db with backupJobs := table } := by
  intro ref outside
  cases ref with
  | job id => exact kept id outside
  | _ => exact rfl

theorem of_repositories {table : Table Uuid Repository}
    (kept : ∀ id, ¬ rows (.repository id) → table.get? id = db.repositories.get? id) :
    OnlyRows rows db { db with repositories := table } := by
  intro ref outside
  cases ref with
  | repository id => exact kept id outside
  | _ => exact rfl

theorem of_runs {table : Table Uuid JobRun}
    (kept : ∀ id, ¬ rows (.run id) → table.get? id = db.jobRuns.get? id) :
    OnlyRows rows db { db with jobRuns := table } := by
  intro ref outside
  cases ref with
  | run id => exact kept id outside
  | _ => exact rfl

theorem of_restores {table : Table Uuid RestoreRun}
    (kept : ∀ id, ¬ rows (.restore id) → table.get? id = db.restoreRuns.get? id) :
    OnlyRows rows db { db with restoreRuns := table } := by
  intro ref outside
  cases ref with
  | restore id => exact kept id outside
  | _ => exact rfl

theorem of_targets {table : Table Uuid Target}
    (kept : ∀ id, ¬ rows (.target id) → table.get? id = db.targets.get? id) :
    OnlyRows rows db { db with targets := table } := by
  intro ref outside
  cases ref with
  | target id => exact kept id outside
  | _ => exact rfl

theorem of_secrets {table : Table Uuid Secret}
    (kept : ∀ id, ¬ rows (.secret id) → table.get? id = db.secrets.get? id) :
    OnlyRows rows db { db with secrets := table } := by
  intro ref outside
  cases ref with
  | secret id => exact kept id outside
  | _ => exact rfl

theorem of_grants {grants : List ResourceGrant}
    (kept : ∀ row, ¬ rows (.grant row) → grants.count row = db.resourceGrants.count row) :
    OnlyRows rows db { db with resourceGrants := grants } := by
  intro ref outside
  cases ref with
  | grant row => exact kept row outside
  | _ => exact rfl

theorem of_readings {readings : List RepositoryStatsHistory}
    (kept : ∀ row, ¬ rows (.reading row) →
      readings.count row = db.repositoryStatsHistory.count row) :
    OnlyRows rows db { db with repositoryStatsHistory := readings } := by
  intro ref outside
  cases ref with
  | reading row => exact kept row outside
  | _ => exact rfl

end OnlyRows

end Agreement

end AmberBackup
