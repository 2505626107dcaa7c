import AmberBackup.Repositories.RepositoriesService

/-! # Agent polls

A poll claims the agent's waiting backups, restores, checks and refresh requests in four
loops, one row after the other, and resolves the repository of each row after it has
claimed it. All loops share one response, so a repository that does not resolve loses the
response while the rows claimed before stay claimed. A poll and its response agree exactly
when every waiting task resolves (`poll_agrees_iff`).
-/

namespace AmberBackup

open Relational

def agentCapabilityCheck : String := "check"

def agentCapabilityStats : String := "stats"

structure PollDto where
  resticVersion : Option String := none
  agentVersion : Option String := none
  capabilities : Option (List String) := none
  deriving DecidableEq, Repr

def PollDto.announces (dto : PollDto) (capability : String) : Bool :=
  dto.capabilities.any fun capabilities => capability ∈ capabilities

inductive TaskType where
  | backup | restore | check | stats
  deriving DecidableEq, Repr

structure AgentTask where
  type : TaskType
  /-- The run, or the repository of a `stats` task. -/
  taskId : Uuid
  target : ResolvedTarget
  jobId : Option Uuid := none
  jobName : Option String := none
  paths : Option (List String) := none
  options : Option ResticOptions := none
  snapshotId : Option String := none
  targetPath : Option String := none
  includedPaths : Option (List String) := none
  restoreOptions : Option RestoreOptions := none
  checkLevel : Option IntegrityLevel := none
  checkSubset : Option String := none
  deriving DecidableEq, Repr

structure PollResponse where
  tasks : List AgentTask
  pollIntervalSeconds : Nat
  latestAgentVersion : Option String
  deriving DecidableEq, Repr

/-- A run that waits for the agent, joined with its job and repository. -/
structure QueuedRun where
  id : Uuid
  run : JobRun
  job : BackupJob
  repository : Repository

/-- The columns of a queued run's job and repository, for a job of the agent. -/
def queuedRun (db : Db) (agent : Uuid) (id : Uuid) (run : JobRun) : Option QueuedRun :=
  (joined (db.backupJobs.get? run.jobId) fun job =>
    db.repositories.get? job.repositoryId).bind fun (job, repository) =>
      if job.agentId = some agent ∧ run.status = .queued then some { id, run, job, repository }
      else none

/-- The queued runs of the agent's jobs that a claim loop selects. -/
def queuedRuns (db : Db) (agent : Uuid) (selects : JobRun → Bool) : List QueuedRun :=
  db.jobRuns.rows.filterMap fun entry =>
    if selects entry.2 then queuedRun db agent entry.1 entry.2 else none

/-- A backup that is due: a retry waits out its delay before it is handed over. -/
def dueBackup (now : Nat) (run : JobRun) : Bool :=
  run.kind = .backup && run.notBefore.all (· ≤ now)

def queuedCheck (run : JobRun) : Bool := run.kind = .check

def queuedRestore (agent : Uuid) (_ : Uuid) (run : RestoreRun) : Bool :=
  run.agentId = some agent && run.status = .queued

def queuedRestores (db : Db) (agent : Uuid) : List (Uuid × RestoreRun) :=
  db.restoreRuns.rows.filter fun entry => queuedRestore agent entry.1 entry.2

def backupTask (queued : QueuedRun) (target : ResolvedTarget) : AgentTask where
  type := .backup
  taskId := queued.id
  target
  jobId := some queued.run.jobId
  jobName := some queued.job.name
  paths := some queued.job.paths
  options := some queued.job.resticOptions

/-- The part a rotating check reads, as `part/parts`. -/
def checkSubset (info : CheckInfo) : Option String :=
  match info.level, info.part, info.parts with
  | .rotating, some part, some parts =>
      if part ≠ 0 ∧ parts ≠ 0 then some (toString part ++ "/" ++ toString parts) else none
  | _, _, _ => none

def checkTask (queued : QueuedRun) (target : ResolvedTarget) : AgentTask :=
  let info := queued.run.checkInfo.getD { level := .quick }
  { type := .check
    taskId := queued.id
    target
    jobId := some queued.run.jobId
    jobName := some queued.job.name
    checkLevel := some info.level
    checkSubset := checkSubset info }

/-- `destination.path || '/'`. -/
def agentTargetPath (destination : RestoreDestination) : String :=
  match destination.path with
  | none => "/"
  | some path => if path = "" then "/" else path

def restoreTask (id : Uuid) (run : RestoreRun) (target : ResolvedTarget) : AgentTask where
  type := .restore
  taskId := id
  target
  snapshotId := some run.snapshotId
  targetPath := some (agentTargetPath run.destination)
  includedPaths := run.includedPaths
  restoreOptions := some run.options

def statsTask (repository : Uuid) (target : ResolvedTarget) : AgentTask where
  type := .stats
  taskId := repository
  target

section Claims

variable (platform : Platform) (agent : Uuid)

/-- Claims a run so that it is not handed out twice, then resolves its repository. -/
def claimRun (task : QueuedRun → ResolvedTarget → AgentTask) (queued : QueuedRun) :
    Service (Option AgentTask) := do
  let claimed ← updateRunsReturning (.claim queued.id agent)
  if claimed then
    let target ← resolveForJob platform queued.repository.ref
    return some (task queued target)
  else return none

def claimBackupTasks : Service (List AgentTask) := do
  let runs ← .read fun world => queuedRuns world.db agent (dueBackup world.now)
  Procedure.collect (claimRun platform agent backupTask) runs

def claimCheckTasks : Service (List AgentTask) := do
  let runs ← .read fun world => queuedRuns world.db agent queuedCheck
  Procedure.collect (claimRun platform agent checkTask) runs

/-- Runs a claim of a restore and returns whether it hit the row. -/
def claimRestoreRow (id : Uuid) : Service Bool := ⟨fun world =>
  (.ok (world.db.restoreRuns.anyWhere (RestoreUpdate.hits (.claim id))),
    { world with db := world.db.updateRestores world.now (.claim id) })⟩

def claimRestore (entry : Uuid × RestoreRun) : Service (Option AgentTask) := do
  let claimed ← claimRestoreRow entry.1
  if claimed then
    let target ← resolveForRestore platform entry.2
    return some (restoreTask entry.1 entry.2 target)
  else return none

def claimRestoreTasks : Service (List AgentTask) := do
  let runs ← .read fun world => queuedRestores world.db agent
  Procedure.collect (claimRestore platform) runs

def statsTaskFor (request : Uuid × RepositoryRef) : Service (Option AgentTask) := do
  let target ← resolveForJob platform request.2
  return some (statsTask request.1 target)

/-- An agent that predates the `stats` task leaves the reading to the server. -/
def refreshAll : List (Uuid × RepositoryRef) → Service Unit
  | [] => pure ()
  | request :: rest => do
      refreshStatsInBackground request.1
      refreshAll rest

def claimStatsTasks (capable : Bool) : Service (List AgentTask) := do
  let requests ← claimStatsRequests agent
  if capable then Procedure.collect (statsTaskFor platform) requests
  else
    refreshAll requests
    return []

/-- Records the poll on the agent's row and returns its poll interval. -/
def touchPoll (ip : Option String) (dto : PollDto) : Service (Option Nat) := ⟨fun world =>
  (.ok ((world.db.agents.get? agent).map (·.pollIntervalSeconds)),
    { world with
      db := { world.db with
        agents := world.db.agents.update (fun id _ => id = agent) fun row =>
          { row with
            lastSeenAt := some world.now, status := .online,
            resticVersion := dto.resticVersion, agentVersion := dto.agentVersion,
            lastIp := ip, updatedAt := world.now } } })⟩

/-- Checks are only handed to an agent that can run them. -/
def claimAnnouncedChecks (dto : PollDto) : Service (List AgentTask) :=
  if dto.announces agentCapabilityCheck then claimCheckTasks platform agent else pure []

def poll (ip : Option String) (dto : PollDto) : Service PollResponse := do
  let interval ← touchPoll agent ip dto
  let backups ← claimBackupTasks platform agent
  let restores ← claimRestoreTasks platform agent
  let checks ← claimAnnouncedChecks platform agent dto
  let stats ← claimStatsTasks platform agent (dto.announces agentCapabilityStats)
  return {
    tasks := backups ++ restores ++ checks ++ stats
    pollIntervalSeconds := interval.getD 30
    latestAgentVersion := platform.latestAgentVersion }

end Claims

/-- A run a step moved from the queue to running. -/
def MovedRun (before after : Db) (id : Uuid) : Prop :=
  (∃ row, before.jobRuns.get? id = some row ∧ row.status = .queued) ∧
    ∃ row, after.jobRuns.get? id = some row ∧ row.status = .running

def MovedRestore (before after : Db) (id : Uuid) : Prop :=
  (∃ row, before.restoreRuns.get? id = some row ∧ row.status = .queued) ∧
    ∃ row, after.restoreRuns.get? id = some row ∧ row.status = .running

def ClearedRequest (before after : Db) (id : Uuid) : Prop :=
  (∃ row, before.repositories.get? id = some row ∧ row.statsRequestedAt ≠ none) ∧
    ∃ row, after.repositories.get? id = some row ∧ row.statsRequestedAt = none

/-- What was claimed is what is handed over. -/
structure Agrees (before after : Db) (tasks : List AgentTask) : Prop where
  runs : ∀ id, MovedRun before after id ↔
    ∃ task ∈ tasks, (task.type = .backup ∨ task.type = .check) ∧ task.taskId = id
  restores : ∀ id, MovedRestore before after id ↔
    ∃ task ∈ tasks, task.type = .restore ∧ task.taskId = id
  requests : ∀ id, ClearedRequest before after id ↔
    ∃ task ∈ tasks, task.type = .stats ∧ task.taskId = id

/-- A poll that returns hands over what it claimed; one that throws hands over nothing. -/
def PollAgrees (before : Db) : Except Failure PollResponse × World → Prop
  | (.ok response, after) => Agrees before after.db response.tasks
  | (.error _, after) => Agrees before after.db []

def Resolvable (platform : Platform) (db : Db) (ref : RepositoryRef) : Prop :=
  ∃ target, resolveRepo platform db ref = .ok target

/-- The repository of every task that waits for the agent resolves. -/
structure AllResolve (platform : Platform) (world : World) (agent : Uuid) : Prop where
  backups : ∀ queued ∈ queuedRuns world.db agent (dueBackup world.now),
    Resolvable platform world.db queued.repository.ref
  restores : ∀ entry ∈ queuedRestores world.db agent, Resolvable platform world.db entry.2.ref
  checks : ∀ queued ∈ queuedRuns world.db agent queuedCheck,
    Resolvable platform world.db queued.repository.ref
  requests : ∀ request ∈ requestedStats world.db agent, Resolvable platform world.db request.2

end AmberBackup
