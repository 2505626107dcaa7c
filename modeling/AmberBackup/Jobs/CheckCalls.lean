import AmberBackup.Agents.AgentsService
import AmberBackup.Jobs.JobEdits
import AmberBackup.Runs.RunsService

/-! # The calls of the check runner

Starting a check, recording its outcome and cancelling it, each as one call. The outcome
of a check that is no longer running is passed by; a verdict is carried over to the
repository the check was planned for.
-/

namespace AmberBackup

open Relational

def RunKind.name : RunKind → String
  | .backup => "backup"
  | .prune => "prune"
  | .check => "check"

def RunStatus.name : RunStatus → String
  | .queued => "queued"
  | .running => "running"
  | .success => "success"
  | .failed => "failed"
  | .cancelled => "cancelled"

namespace CheckRunner

/-- Only a requested check needs access to the job; a scheduled one has no requester. -/
def assertOperate (job : Uuid) : Option RequestUser → Service Unit
  | none => pure ()
  | some user =>
      .lift fun world =>
        if can world.db user .job job .operate then .ok ()
        else .error (.forbidden "Missing operate access on job")

/-- The refusal of a check that the job's agent would never be handed. -/
def tooOldMessage (db : Db) (row : BackupJob) : String :=
  ((row.agentId.bind db.agents.get?).map fun agent =>
    "Agent " ++ agent.name ++ " runs version " ++ agent.agentVersion.getD "" ++
      ", which cannot run integrity checks — update it to " ++ checkMinAgentVersion ++
      " or newer").getD ""

def assertAgentCanCheck (row : BackupJob) : Service Unit :=
  .lift fun world =>
    if row.location = .agent && agentTooOld world.db row then
      .error (.conflict (tooOldMessage world.db row))
    else .ok ()

/-- The refusal of a check next to the first activity of the job that has not finished. -/
def busyMessage (db : Db) (job : Uuid) : String :=
  ((db.jobRuns.rows.find? fun entry => activeRun job entry.1 entry.2).map fun entry =>
    "A " ++ entry.2.kind.name ++ " of this job is " ++ entry.2.status.name ++
      " — start the check once it has finished").getD ""

/-- Refuses a check while another activity uses the repository. -/
def assertIdle (job : Uuid) : Service Unit :=
  .lift fun world =>
    if world.db.jobRuns.anyWhere (activeRun job) then
      .error (.conflict (busyMessage world.db job))
    else if world.db.restoreRuns.anyWhere (activeRestore job) then
      .error (.conflict ("A restore from this repository is in progress — " ++
        "start the check once it has finished"))
    else .ok ()

def insertCheck (job : Uuid) (trigger : RunTrigger) (row : BackupJob) (info : CheckInfo) :
    Service Uuid := do
  let now ← .read World.now
  insertRun (checkRow job trigger (row.location = .«local») info now)

/-- `CheckRunnerService.start`, with the access check of the route in front of it. -/
def start (requester : Option RequestUser) (job : Uuid) (trigger : RunTrigger)
    (level : Option IntegrityLevel) : Service Uuid := do
  assertOperate job requester
  let (row, repository) ← getRow job
  assertAgentCanCheck row
  assertIdle job
  insertCheck job trigger row (planCheck row repository level)

/-- Writes the outcome of a check to its repository. -/
def patchRepository (repository : Uuid) (info : CheckInfo) (outcome : CheckOutcome) :
    Service Unit :=
  .write fun world =>
    { world with
      db := { world.db with
        repositories := world.db.repositories.update (fun id _ => id = repository)
          (repositoryPatch world.now info outcome) } }

/-- What follows the update of the run. -/
def carryOver (platform : Platform) (run : Uuid) (info : CheckInfo) (repository : Uuid)
    (outcome : CheckOutcome) (hit : Bool) : Service Unit :=
  if hit && outcome.status ≠ .cancelled then do
    patchRepository repository info outcome
    notifyJobRun platform run
  else pure ()

/-- `CheckRunnerService.settle`. -/
def settle (platform : Platform) (run : Uuid) (info : CheckInfo) (repository : Uuid)
    (outcome : CheckOutcome) : Service Unit := do
  let hit ← updateRunsReturning (.settleCheck run info outcome)
  carryOver platform run info repository outcome hit

/-- `CheckRunnerService.recordAgentResult`: what the run and its job say decides which
check the outcome is about. -/
def recordAgentResult (platform : Platform) (agent run : Uuid) (result : TaskResult) :
    Service Unit := do
  let found ← .read fun world => taskCheck world.db agent run
  match found with
  | none => return
  | some (info, repository) =>
      if result.status = .cancelled then updateRuns (.cancelledOnAgent run result.log)
      else settle platform run info repository (checkOutcome result)

end CheckRunner

/-- `RunsService.cancel` of a run this server has no process for. -/
def cancelRun (user : RequestUser) (run : Uuid) : Service Unit := do
  let found ← .read fun world => world.db.jobRuns.get? run
  match found with
  | none => .raise (.notFound "Run not found")
  | some row => do
      assertAcl user .job row.jobId .view
      assertAcl user .job row.jobId .operate
      require row.status.active (.badRequest ("Run is already " ++ row.status.name))
      updateRuns (.forceCancel run (cancelError row.status row.agentId))

end AmberBackup
