import AmberBackup.Database.Types

/-! # Statements on the run tables

Every `UPDATE` the server issues on `job_runs` and on `restore_runs`, each as its
condition (`hits`) and its new row (`set`), under the name of the code that issues it.
The identity of a run never changes (`RunUpdate.set_identity`), a run that has left the
queue does not come back to it (`RunUpdate.set_queued`), and only an agent's claim
hands it to an agent (`RunUpdate.set_agentId`).
-/

namespace AmberBackup

open Relational

/-- Cancelled on the server while an agent executes it; older agents carry on. -/
def cancelledOnServerAgentMessage : String :=
  "Cancelled on the server — the agent may still be running this task."

/-- Cancelled while running without a process this server owns. -/
def cancelledNoProcessMessage : String := "Cancelled — no running process found."

/-- The agent confirmed it stopped restic after the cancel. -/
def cancelledOnAgentMessage : String := "Cancelled on the agent."

/-- The outcomes an agent or a check reports. -/
inductive ResultStatus where
  | success | failed | cancelled
  deriving DecidableEq, Repr

def ResultStatus.toRunStatus : ResultStatus → RunStatus
  | .success => .success
  | .failed => .failed
  | .cancelled => .cancelled

/-- The prune an agent ran after a backup. -/
structure PruneResult where
  failed : Bool
  startedAt : Nat
  finishedAt : Nat
  error : Option String := none
  log : Option String := none
  deriving DecidableEq, Repr

structure RepoStats where
  sizeBytes : Nat
  snapshotCount : Nat
  deriving DecidableEq, Repr

/-- What an agent posts when it is done with a task. -/
structure TaskResult where
  status : ResultStatus
  snapshotId : Option String := none
  stats : Option String := none
  forgetResult : Option String := none
  prune : Option PruneResult := none
  repoStats : Option RepoStats := none
  repoStatsError : Option String := none
  damaged : Option Bool := none
  error : Option String := none
  log : Option String := none
  deriving DecidableEq, Repr

/-- Final outcome of a check, whether it ran on the server or on an agent. -/
structure CheckOutcome where
  status : ResultStatus
  damaged : Bool
  error : Option String := none
  log : Option String := none
  deriving DecidableEq, Repr

/-- The updates of `job_runs`. -/
inductive RunUpdate where
  /-- `executeLocal` marks the run running. -/
  | openLocal (run : Uuid)
  | succeedLocal (run : Uuid) (snapshotId : Option String) (stats : String)
      (forgetResult : Option String) (log : String)
  /-- The catch blocks of the backup and the prune runner. -/
  | failLocal (run : Uuid) (aborted : Bool) (error log : String)
  | succeedPrune (run : Uuid) (log : String)
  | writeStats (run : Uuid) (stats : String)
  | failStale (kind : RunKind) (staleBefore : Nat) (error : String)
  | clearNotBefore (asOf : Nat)
  /-- `RunsService.cancel` of a run without a local process. -/
  | forceCancel (run : Uuid) (error : Option String)
  | settleCheck (run : Uuid) (info : CheckInfo) (outcome : CheckOutcome)
  | cancelledOnAgent (run : Uuid) (log : Option String)
  | claim (run agent : Uuid)
  | recordResult (run : Uuid) (result : TaskResult)
  | backupProgress (run agent : Uuid) (stats : String)
  deriving DecidableEq, Repr

/-- Whether the run's job is executed by the server. -/
def Db.localJob (db : Db) (job : Uuid) : Bool :=
  (db.backupJobs.get? job).any fun row => row.location = .«local»

/-- The `WHERE` clause. -/
def RunUpdate.hits (db : Db) : RunUpdate → Uuid → JobRun → Bool
  | .openLocal run, id, _ => id = run
  | .succeedLocal run .., id, _ => id = run
  | .failLocal run .., id, _ => id = run
  | .succeedPrune run _, id, _ => id = run
  | .writeStats run _, id, _ => id = run
  | .failStale kind staleBefore _, _, row =>
      row.kind = kind && row.status = .queued &&
        row.notBefore.getD row.createdAt < staleBefore
  | .clearNotBefore asOf, _, row =>
      row.kind = .backup && row.status = .queued && row.notBefore.any (· ≤ asOf) &&
        db.localJob row.jobId
  | .forceCancel run _, id, _ => id = run
  | .settleCheck run .., id, row => id = run && row.status = .running
  | .cancelledOnAgent run _, id, row =>
      id = run && (row.status = .running || row.status = .cancelled)
  | .claim run _, id, row => id = run && row.status = .queued
  | .recordResult run _, id, row => id = run && row.status = .running
  | .backupProgress run agent _, id, row =>
      id = run && row.agentId = some agent && row.status = .running

/-- The `SET` clause. -/
def RunUpdate.set (now : Nat) : RunUpdate → JobRun → JobRun
  | .openLocal _, row => { row with status := .running, startedAt := some now }
  | .succeedLocal _ snapshotId stats forgetResult log, row =>
      { row with
        status := .success, finishedAt := some now, snapshotId, stats := some stats,
        forgetResult, log := some log }
  | .failLocal _ aborted error log, row =>
      { row with
        status := if aborted then .cancelled else .failed, finishedAt := some now,
        error := some error, log := some log }
  | .succeedPrune _ log, row =>
      { row with status := .success, finishedAt := some now, log := some log }
  | .writeStats _ stats, row => { row with stats := some stats }
  | .failStale _ _ error, row =>
      { row with status := .failed, finishedAt := some now, error := some error }
  | .clearNotBefore _, row => { row with notBefore := none }
  | .forceCancel _ error, row =>
      { row with status := .cancelled, finishedAt := some now, error }
  | .settleCheck _ info outcome, row =>
      { row with
        status := outcome.status.toRunStatus, finishedAt := some now, error := outcome.error,
        log := outcome.log, checkInfo := some { info with damaged := some outcome.damaged } }
  | .cancelledOnAgent _ log, row =>
      { row with
        status := .cancelled, finishedAt := some (row.finishedAt.getD now),
        error := some cancelledOnAgentMessage, log }
  | .claim _ agent, row =>
      { row with status := .running, agentId := some agent, startedAt := some now }
  | .recordResult _ result, row =>
      { row with
        status := result.status.toRunStatus, finishedAt := some now,
        snapshotId := result.snapshotId, stats := result.stats,
        forgetResult := result.forgetResult, error := result.error, log := result.log }
  | .backupProgress _ _ stats, row => { row with stats := some stats }

/-- Executes an update of `job_runs`. -/
def Db.updateRuns (db : Db) (now : Nat) (update : RunUpdate) : Db :=
  { db with jobRuns := db.jobRuns.update (update.hits db) (update.set now) }

/-- The ids an update of `job_runs` returns: the rows it hits. -/
def Db.runsHit (db : Db) (update : RunUpdate) : List Uuid :=
  db.jobRuns.keysWhere (update.hits db)

/-- The updates of `restore_runs`. -/
inductive RestoreUpdate where
  /-- `executeLocal` marks the restore running. -/
  | openLocal (restore : Uuid)
  | succeedLocal (restore : Uuid) (stats : String) (destination : RestoreDestination)
      (downloadExpiresAt : Option Nat) (log : String)
  | failLocal (restore : Uuid) (aborted : Bool) (error log : String)
  | writeStats (restore : Uuid) (stats : String)
  /-- `RestoreService.cancel` of a restore without a local process. -/
  | cancel (restore : Uuid) (error : Option String)
  | claim (restore : Uuid)
  | cancelledOnAgent (restore : Uuid) (log : Option String)
  | recordResult (restore : Uuid) (result : TaskResult)
  | restoreProgress (restore agent : Uuid) (stats : String)
  deriving DecidableEq, Repr

/-- The `WHERE` clause. -/
def RestoreUpdate.hits : RestoreUpdate → Uuid → RestoreRun → Bool
  | .openLocal restore, id, _ => id = restore
  | .succeedLocal restore .., id, _ => id = restore
  | .failLocal restore .., id, _ => id = restore
  | .writeStats restore _, id, row => id = restore && row.status = .running
  | .cancel restore _, id, row => id = restore && row.status.active
  | .claim restore, id, row => id = restore && row.status = .queued
  | .cancelledOnAgent restore _, id, row =>
      id = restore && (row.status = .running || row.status = .cancelled)
  | .recordResult restore _, id, row => id = restore && row.status = .running
  | .restoreProgress restore agent _, id, row =>
      id = restore && row.agentId = some agent && row.status = .running

/-- The `SET` clause. -/
def RestoreUpdate.set (now : Nat) : RestoreUpdate → RestoreRun → RestoreRun
  | .openLocal _, row => { row with status := .running, startedAt := some now }
  | .succeedLocal _ stats destination downloadExpiresAt log, row =>
      { row with
        status := .success, finishedAt := some now, stats := some stats, destination,
        downloadExpiresAt, log := some log }
  | .failLocal _ aborted error log, row =>
      { row with
        status := if aborted then .cancelled else .failed, finishedAt := some now,
        error := some error, log := some log }
  | .writeStats _ stats, row => { row with stats := some stats }
  | .cancel _ error, row => { row with status := .cancelled, finishedAt := some now, error }
  | .claim _, row => { row with status := .running, startedAt := some now }
  | .cancelledOnAgent _ log, row =>
      { row with
        status := .cancelled, finishedAt := some (row.finishedAt.getD now),
        error := some cancelledOnAgentMessage, log }
  | .recordResult _ result, row =>
      { row with
        status := result.status.toRunStatus, finishedAt := some now, stats := result.stats,
        error := result.error, log := result.log }
  | .restoreProgress _ _ stats, row => { row with stats := some stats }

/-- Executes an update of `restore_runs`. -/
def Db.updateRestores (db : Db) (now : Nat) (update : RestoreUpdate) : Db :=
  { db with restoreRuns := db.restoreRuns.update update.hits (update.set now) }

/-- What never changes about a run. -/
structure JobRun.SameIdentity (before after : JobRun) : Prop where
  jobId : after.jobId = before.jobId
  kind : after.kind = before.kind
  trigger : after.trigger = before.trigger
  attempt : after.attempt = before.attempt
  retryOfRunId : after.retryOfRunId = before.retryOfRunId
  createdAt : after.createdAt = before.createdAt

theorem RunUpdate.set_identity (now : Nat) (update : RunUpdate) (row : JobRun) :
    row.SameIdentity (update.set now row) := by
  cases update <;> exact ⟨rfl, rfl, rfl, rfl, rfl, rfl⟩

/-- No update makes a run queued that was not. -/
theorem RunUpdate.set_queued {db : Db} {now : Nat} {update : RunUpdate} {id : Uuid}
    {row : JobRun} (hit : update.hits db id row = true)
    (queued : (update.set now row).status = .queued) : row.status = .queued := by
  cases update with
  | failLocal run aborted error log => cases aborted <;> cases queued
  | settleCheck run info outcome =>
      rcases outcome with ⟨status, _, _, _⟩
      cases status <;> cases queued
  | recordResult run result =>
      rcases result with ⟨status, _, _, _, _, _, _, _, _, _⟩
      cases status <;> cases queued
  | writeStats | backupProgress => exact queued
  | clearNotBefore => exact queued
  | openLocal | succeedLocal | succeedPrune | failStale | forceCancel | cancelledOnAgent
  | claim => cases queued

/-- Only a claim changes the agent a run was handed to, and it is made by an agent. -/
theorem RunUpdate.set_agentId (now : Nat) (update : RunUpdate) (row : JobRun) :
    (update.set now row).agentId = row.agentId ∨
      ∃ run agent, update = .claim run agent ∧ (update.set now row).agentId = some agent := by
  cases update with
  | claim run agent => exact Or.inr ⟨run, agent, rfl, rfl⟩
  | _ => exact Or.inl rfl

/-- The retry starter alone changes the instant a retry waits for. -/
theorem RunUpdate.set_notBefore (now : Nat) (update : RunUpdate) (row : JobRun) :
    (update.set now row).notBefore = row.notBefore ∨
      ∃ asOf, update = .clearNotBefore asOf := by
  cases update with
  | clearNotBefore asOf => exact Or.inr ⟨asOf, rfl⟩
  | _ => exact Or.inl rfl

theorem Db.get?_updateRuns (db : Db) (now : Nat) (update : RunUpdate) (id : Uuid) :
    (db.updateRuns now update).jobRuns.get? id =
      (db.jobRuns.get? id).map fun row =>
        if update.hits db id row then update.set now row else row :=
  Table.get?_update ..

theorem Db.mem_runsHit {db : Db} {update : RunUpdate} {id : Uuid} :
    id ∈ db.runsHit update ↔
      ∃ row, db.jobRuns.get? id = some row ∧ update.hits db id row = true :=
  Table.mem_keysWhere

theorem Db.get?_updateRestores (db : Db) (now : Nat) (update : RestoreUpdate) (id : Uuid) :
    (db.updateRestores now update).restoreRuns.get? id =
      (db.restoreRuns.get? id).map fun row =>
        if update.hits id row then update.set now row else row :=
  Table.get?_update ..

end AmberBackup
