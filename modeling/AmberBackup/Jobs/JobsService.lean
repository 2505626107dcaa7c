import AmberBackup.Common.AccessControl
import AmberBackup.Database.Service

/-! # Backup jobs

The rows a job contributes to the activities, and the edit of a job's own columns. An
edit writes each column it names; moving a job to the server also takes it away from its
agent, while naming an agent alone leaves the location as it was.
-/

namespace AmberBackup

open Relational

/-- The queued run `createRun` inserts. -/
def createdRun (job : Uuid) (trigger : RunTrigger) (createdAt : Nat) : JobRun where
  jobId := job
  trigger
  status := .queued
  createdAt

/-- The columns of `backup_jobs` an `UpdateJobDto` names. -/
structure JobPatch where
  name : Option String := none
  location : Option SourceLocation := none
  /-- `some none` is an explicit null. -/
  agentId : Option (Option Uuid) := none
  paths : Option (List String) := none
  cronExpr : Option String := none
  resticOptions : Option ResticOptions := none
  notify : Option JobNotifyConfig := none
  retryMax : Option Nat := none
  retryDelaySeconds : Option Nat := none
  enabled : Option Bool := none
  deriving DecidableEq, Repr

/-- Changing the execution host, the paths or the scripts is up to an admin. -/
def JobPatch.touchesHost (patch : JobPatch) : Bool :=
  patch.location.isSome || patch.agentId.isSome || patch.paths.isSome ||
    patch.resticOptions.isSome

/-- The column `agent_id` as an edit writes it; a job on the server has no agent. -/
def JobPatch.agentColumn (patch : JobPatch) : Option (Option Uuid) :=
  if patch.location = some .«local» then some none else patch.agentId

/-- The row after the edit. -/
def JobPatch.apply (patch : JobPatch) (now : Nat) (job : BackupJob) : BackupJob :=
  { job with
    name := patch.name.getD job.name
    location := patch.location.getD job.location
    agentId :=
      if patch.location = some .«local» then none else patch.agentId.getD job.agentId
    paths := patch.paths.getD job.paths
    cronExpr := patch.cronExpr.getD job.cronExpr
    resticOptions := patch.resticOptions.getD job.resticOptions
    notify := patch.notify.getD job.notify
    retryMax := patch.retryMax.getD job.retryMax
    retryDelaySeconds := patch.retryDelaySeconds.getD job.retryDelaySeconds
    enabled := patch.enabled.getD job.enabled
    updatedAt := now }

/-- A repository on the local filesystem is out of reach of an agent job. -/
def repoAllowed (location : SourceLocation) (targetId : Option Uuid) : Bool :=
  !(location = .agent && targetId.isNone)

/-- Whether an edit of a job's own columns is accepted. -/
def acceptsPatch (db : Db) (user : RequestUser) (id : Uuid) (patch : JobPatch) : Bool :=
  can db user .job id .manage && (!patch.touchesHost || user.isAdmin) &&
    match joined (db.backupJobs.get? id) fun job => db.repositories.get? job.repositoryId with
    | none => false
    | some (job, repository) =>
        repoAllowed (patch.location.getD job.location) repository.targetId

end AmberBackup
