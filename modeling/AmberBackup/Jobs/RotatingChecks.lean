import AmberBackup.Agents.Poll
import AmberBackup.Jobs.CheckCalls
import AmberBackup.Lib.Rotation
import AmberBackup.Lib.Transition

/-! # Rotating checks

Checks of all jobs, executed by the server or by agents, next to the edits of their jobs.
A check reads the place its repository had when it was started, or when its agent was
handed the task. Every call is one step; what happens in it is said once, by
`Checks.Move`, in terms of what the rotation depends on: where each repository is and how
far its rotation got, each job's repository and schedule, and the check runs.
-/

namespace AmberBackup

open Relational Transition Rotation

/-- Where a repository is stored: its connection and its config. -/
abbrev Place := Option Uuid × Config

def Repository.place (repository : Repository) : Place :=
  (repository.targetId, repository.repoConfig)

/-- A check that is being executed. -/
structure Execution where
  repository : Uuid
  info : CheckInfo
  /-- The place restic reads. -/
  place : Place
  /-- `none` is this server. -/
  agent : Option Uuid := none
  deriving DecidableEq, Repr

/-- A rotating check that set `data_verified_at`: the place the repository was configured
with by then, and the readings of the repository, that of the check included. -/
structure Verification where
  repository : Uuid
  place : Place
  parts : Nat
  history : List (Reading Place)
  deriving DecidableEq, Repr

/-- The server with the checks under way and the readings that succeeded so far. -/
structure Checks where
  world : World
  executions : Uuid → Option Execution := fun _ => none
  /-- By repository, the newest first. -/
  readings : Uuid → List (Reading Place) := fun _ => []
  verifications : List Verification := []

/-- The part of the data a rotating check reads. -/
def Execution.reading (execution : Execution) : Option (Reading Place) :=
  match execution.info.level, execution.info.part, execution.info.parts with
  | .rotating, some part, some parts => some { place := execution.place, part, parts }
  | _, _, _ => none

def CheckOutcome.passed (outcome : CheckOutcome) : Bool :=
  outcome.status = .success && !outcome.damaged

/-- Calls of the check runner, and the calls and statements around it. -/
inductive CheckAction where
  | start (requester : Option RequestUser) (job : Uuid) (trigger : RunTrigger)
      (level : Option IntegrityLevel)
  /-- A poll hands a queued check to the agent of its job. -/
  | claim (agent run : Uuid)
  /-- The check this server executes has an outcome. -/
  | settle (run : Uuid) (outcome : CheckOutcome)
  | submitResult (agent run : Uuid) (result : TaskResult)
  | cancel (user : RequestUser) (run : Uuid)
  | failStale (staleBefore : Nat) (error : String)
  /-- The server restarts, and with it the checks it executed are gone. -/
  | restart
  | setIntegrityCheck (user : RequestUser) (job : Uuid) (dto : IntegrityCheckConfigDto)
  | updateJob (user : RequestUser) (job : Uuid) (dto : UpdateJobDto)
  /-- Any other statement of the server. -/
  | elsewhere (statement : Statement)
  | tick (now : Nat)

/-- A statement that neither concerns a check run nor is one of an edit or a check. -/
def Statement.sparesChecks (db : Db) : Statement → Bool
  | .updateRuns update =>
      !db.jobRuns.anyWhere fun id row => update.hits db id row && row.kind = .check
  | .insertRun row => row.kind ≠ .check
  | .updateJob .. | .patchRepository .. => false
  | .nothing | .updateRestores _ | .insertRestore _ | .recordStats .. | .clearRequests _
  | .touchAgent .. => true

section Steps

variable (editing : Editing)

/-- The execution a local start begins. -/
def startedExecution (db : Db) (job : Uuid) (level : Option IntegrityLevel) :
    Option Execution :=
  match joined (db.backupJobs.get? job) fun row => db.repositories.get? row.repositoryId with
  | none => none
  | some (row, repository) =>
      if row.location = .«local» then
        some {
          repository := row.repositoryId, info := planCheck row repository level
          place := repository.place }
      else none

/-- The check an agent is handed. -/
def claimedExecution (agent : Uuid) (queued : QueuedRun) : Execution where
  repository := queued.job.repositoryId
  info := queued.run.checkInfo.getD { level := .quick }
  place := queued.repository.place
  agent := some agent

/-- The queued check of a claim loop with the given run. -/
def queuedCheckOf (db : Db) (agent run : Uuid) : Option QueuedRun :=
  (queuedRuns db agent queuedCheck).find? fun queued => queued.id = run

variable (checks : Checks)

/-- The readings once the check passed. -/
def Checks.readingsAfter (execution : Execution) : Uuid → List (Reading Place) :=
  match execution.reading with
  | none => checks.readings
  | some reading =>
      Function.update checks.readings execution.repository
        (reading :: checks.readings execution.repository)

/-- What a passed check of the repository verifies. -/
def Checks.verification (execution : Execution) (info : CheckInfo) (repository : Uuid) :
    List Verification :=
  if info.level = .rotating && info.completesVerification then
    match checks.world.db.repositories.get? repository with
    | none => []
    | some row =>
        [{ repository, place := row.place, parts := info.parts.getD 0
           history := checks.readingsAfter execution repository }]
  else []

/-- Keeps book of an outcome that hit its run. -/
def Checks.record (run : Uuid) (execution : Execution) (info : CheckInfo)
    (repository : Uuid) (outcome : CheckOutcome) (world : World) : Checks :=
  if settles checks.world.db run info outcome && outcome.passed then
    { checks with
      world
      readings := checks.readingsAfter execution
      verifications := checks.verification execution info repository ++ checks.verifications }
  else { checks with world }

def Checks.start (requester : Option RequestUser) (job : Uuid) (trigger : RunTrigger)
    (level : Option IntegrityLevel) : Checks :=
  let started := (CheckRunner.start requester job trigger level).run checks.world
  { checks with
    world := started.2
    executions :=
      match started.1 with
      | .ok run =>
          Function.update checks.executions run (startedExecution checks.world.db job level)
      | .error _ => checks.executions }

def Checks.claim (agent : Uuid) (queued : QueuedRun) : Checks :=
  let claimed := (claimRun editing.platform agent checkTask queued).run checks.world
  { checks with
    world := claimed.2
    executions :=
      match claimed.1 with
      | .ok (some _) =>
          Function.update checks.executions queued.id (some (claimedExecution agent queued))
      | _ => checks.executions }

def Checks.settle (run : Uuid) (execution : Execution) (outcome : CheckOutcome) : Checks :=
  let settled := (CheckRunner.settle editing.platform run execution.info
    execution.repository outcome).run checks.world
  { checks.record run execution execution.info execution.repository outcome settled.2 with
    executions := Function.update checks.executions run none }

def Checks.submitResult (agent run : Uuid) (execution : Execution) (result : TaskResult) :
    Checks :=
  let submitted := (CheckRunner.recordAgentResult editing.platform agent run result).run
    checks.world
  match taskCheck checks.world.db agent run with
  | some (info, repository) =>
      if result.status = .cancelled then { checks with world := submitted.2 }
      else checks.record run execution info repository (checkOutcome result) submitted.2
  | none => { checks with world := submitted.2 }

/-- The controller of a check this server executes is aborted; its outcome is still to
come. Any other run is settled by the cancel. -/
def Checks.cancel (user : RequestUser) (run : Uuid) : Checks :=
  if (checks.executions run).any fun execution => execution.agent.isNone then checks
  else { checks with world := ((cancelRun user run).run checks.world).2 }

def Checks.step (checks : Checks) : CheckAction → Option Checks
  | .start requester job trigger level => some (checks.start requester job trigger level)
  | .claim agent run =>
      (queuedCheckOf checks.world.db agent run).map (checks.claim editing agent)
  | .settle run outcome =>
      match checks.executions run with
      | none => none
      | some execution =>
          if execution.agent = none then some (checks.settle editing run execution outcome)
          else none
  | .submitResult agent run result =>
      match checks.executions run with
      | none => none
      | some execution =>
          if execution.agent = some agent then
            some (checks.submitResult editing agent run execution result)
          else none
  | .cancel user run => some (checks.cancel user run)
  | .failStale staleBefore error =>
      some { checks with
        world := ((updateRuns (.failStale .check staleBefore error)).run checks.world).2 }
  | .restart =>
      some { checks with
        executions := fun run =>
          (checks.executions run).filter fun execution => execution.agent.isSome }
  | .setIntegrityCheck user job dto =>
      if dto.valid then
        some { checks with
          world := ((setIntegrityCheck editing user job dto).run checks.world).2 }
      else none
  | .updateJob user job dto =>
      some { checks with world := ((updateJob editing user job dto).run checks.world).2 }
  | .elsewhere statement =>
      if statement.sparesChecks checks.world.db then
        some { checks with
          world := { checks.world with
            db := statement.execute checks.world.now checks.world.db } }
      else none
  | .tick now => some { checks with world := { checks.world with now } }

end Steps

/-- No check has run yet: every repository is as its job was created, and every job has a
repository of its own and a schedule the server accepted. -/
structure Checks.Fresh (checks : Checks) : Prop where
  executions : ∀ run, checks.executions run = none
  readings : ∀ repository, checks.readings repository = []
  verifications : checks.verifications = []
  cursors : ∀ id row, checks.world.db.repositories.get? id = some row →
    row.checkSubsetNext = 1 ∧ row.checkSubsetParts = none
  runs : ∀ id row, checks.world.db.jobRuns.get? id = some row → row.kind ≠ .check
  schedules : ∀ id row, checks.world.db.backupJobs.get? id = some row →
    row.integrityCheck.subsetParts.all fun parts => 2 ≤ parts && parts ≤ 100
  owners : ∀ first second row other, checks.world.db.backupJobs.get? first = some row →
    checks.world.db.backupJobs.get? second = some other →
    row.repositoryId = other.repositoryId → first = second

/-- The checks of a server, from the day the first of them is run. -/
def rotatingChecks (editing : Editing) : System Checks CheckAction where
  initial := Checks.Fresh
  step := Checks.step editing

end AmberBackup
