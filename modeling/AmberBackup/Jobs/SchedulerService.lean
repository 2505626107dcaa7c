import AmberBackup.Auth.TotpService
import AmberBackup.Jobs.JobEdits
import AmberBackup.Lib.Transition
import Mathlib.Logic.Function.Basic

/-! # The cron registry

Every enabled job has a cron job in process memory, and a second one while its check
schedule is on. A request writes the job, and then the scheduler unregisters it, reads it
and registers what it has read; a change of the time zone does so for all jobs. The statement
of a call and what it does with the result are steps of their own, and the steps of calls
interleave.
-/

namespace AmberBackup

open Relational Transition

/-- What the scheduler takes from the runtime. -/
structure CronRuntime where
  /-- `validateCron` lets the expression through. -/
  validCron : String → Bool
  /-- The constructor of `CronJob` takes the expression in the time zone. -/
  accepts : String → String → Bool
  isValidTimezone : String → Bool

/-- The name of a cron job: `backup-job:` or `check-job:` with the job's id. -/
inductive CronName where
  | backupJob (job : Uuid)
  | checkJob (job : Uuid)
  deriving DecidableEq, Repr

def CronName.job : CronName → Uuid
  | .backupJob job | .checkJob job => job

structure CronEntry where
  cronExpr : String
  timezone : String
  deriving DecidableEq, Repr

/-- `SchedulerRegistry`. -/
abbrev CronRegistry := CronName → Option CronEntry

/-- The statement of a request on the row of an existing job. -/
inductive JobWrite where
  | patch (patch : JobPatch)
  | integrityCheck (config : IntegrityCheckConfig)
  | delete
  deriving DecidableEq

/-- A call before its next statement, or before it goes on with the result of one. -/
inductive SchedulerCall where
  /-- `JobsService.create`. -/
  | insert (row : BackupJob)
  /-- `JobsService.update`, `setIntegrityCheck` and `remove`: the look at the job, and the
  statement. -/
  | find (id : Uuid) (write : JobWrite)
  | write (id : Uuid) (write : JobWrite)
  /-- The job is deleted; its repository and its secrets are next. -/
  | cleanUp (id : Uuid)
  /-- The row is read back for the response. -/
  | getRow (id : Uuid)
  /-- `SchedulerService.sync`. -/
  | sync (id : Uuid)
  | readRow (id : Uuid)
  | registerRow (id : Uuid) (row : Option BackupJob)
  /-- `SchedulerService.syncAll`, past the deletions. -/
  | listEnabled
  | registerAll (rows : List (Uuid × BackupJob))
  /-- `SettingsService.setTimezone`; the flag tells a real change. -/
  | writeTimezone (timezone : String) (changed : Bool)
  | assignTimezone (timezone : String) (changed : Bool)
  | done
  | failed (failure : Failure)
  deriving DecidableEq

structure Scheduler where
  now : Nat := 0
  jobs : Table Uuid BackupJob := .empty
  /-- The id of the next job. -/
  nextJob : Uuid := 0
  /-- The setting, and what `SettingsService` has cached of it. -/
  storedTimezone : String := "UTC"
  timezone : String := "UTC"
  registry : CronRegistry := fun _ => none
  calls : List SchedulerCall := []

inductive SchedulerAction where
  | create (dto : CreateJobDto) (repository : Uuid)
  | update (id : Uuid) (patch : JobPatch)
  | setIntegrityCheck (id : Uuid) (dto : IntegrityCheckConfigDto)
  | remove (id : Uuid)
  | syncAll
  | setTimezone (timezone : String)
  /-- The next step of a call. -/
  | proceed (call : Nat)
  /-- The database fails the next statement of a call. -/
  | refuse (call : Nat)
  | tick (time : Nat)
  deriving DecidableEq

/-- The expression a job's row asks for under a name. -/
def BackupJob.cronExpr? (job : BackupJob) : CronName → Option String
  | .backupJob _ => if job.enabled then some job.cronExpr else none
  | .checkJob _ =>
      if job.enabled && job.integrityCheck.enabled = some true then
        job.integrityCheck.cronExpr.filter (· ≠ "")
      else none

/-- The row `JobsService.create` inserts. -/
def CreateJobDto.row (dto : CreateJobDto) (repository : Uuid) (now : Nat) : BackupJob where
  name := dto.name
  location := dto.location
  agentId := if dto.location = .agent then dto.agentId else none
  paths := dto.paths
  repositoryId := repository
  cronExpr := dto.cronExpr
  resticOptions := dto.resticOptions.getD {}
  notify := dto.notify.getD {}
  retryMax := dto.retryMax.getD 0
  retryDelaySeconds := dto.retryDelaySeconds.getD 300
  enabled := dto.enabled.getD true
  updatedAt := now

theorem insertJob_row (dto : CreateJobDto) (repoConfig : Config) (passwordSecret : Uuid)
    (credentialSecret : Option Uuid) (world : World) :
    ((insertJob dto repoConfig passwordSecret credentialSecret).run world).2.db.backupJobs =
      world.db.backupJobs.insert (freshId world.db.backupJobs)
        (dto.row (freshId world.db.repositories) world.now) := rfl

/-! ## The registry -/

section Registry

variable (runtime : CronRuntime) (timezone : String)

/-- A name in use, or an expression that is not accepted, is logged and left. -/
def register (registry : CronRegistry) (name : CronName) (cronExpr : String) : CronRegistry :=
  if runtime.accepts cronExpr timezone && (registry name).isNone then
    Function.update registry name (some ⟨cronExpr, timezone⟩)
  else registry

def registerAll (registry : CronRegistry) (id : Uuid) (job : BackupJob) : CronRegistry :=
  let registered := register runtime timezone registry (.backupJob id) job.cronExpr
  match job.integrityCheck.cronExpr with
  | none | some "" => registered
  | some cronExpr =>
      if job.integrityCheck.enabled = some true then
        register runtime timezone registered (.checkJob id) cronExpr
      else registered

/-- What `sync` does with the row it has read. -/
def registerRow (registry : CronRegistry) (id : Uuid) : Option BackupJob → CronRegistry
  | none => registry
  | some job => if job.enabled then registerAll runtime timezone registry id job else registry

/-- What `syncAll` does with the rows it has read. -/
def registerRows (registry : CronRegistry) : List (Uuid × BackupJob) → CronRegistry
  | [] => registry
  | (id, job) :: rest => registerRows (registerAll runtime timezone registry id job) rest

end Registry

def unregister (registry : CronRegistry) (id : Uuid) : CronRegistry :=
  Function.update (Function.update registry (.backupJob id) none) (.checkJob id) none

/-! ## Calls -/

namespace Scheduler

variable (runtime : CronRuntime) (state : Scheduler)

def enabledJobs : List (Uuid × BackupJob) := state.jobs.rows.filter fun entry => entry.2.enabled

/-- A step of a call. -/
def advance : SchedulerCall → Option (Scheduler × SchedulerCall)
  | .insert row =>
      some ({ state with
        jobs := state.jobs.insert state.nextJob row
        nextJob := state.nextJob + 1 }, .getRow state.nextJob)
  | .find id write =>
      if (state.jobs.get? id).isSome then some (state, .write id write)
      else some (state, .failed (.notFound "Job not found"))
  | .write id (.patch patch) =>
      some ({ state with
        jobs := state.jobs.update (fun key _ => key = id) (patch.apply state.now) }, .getRow id)
  | .write id (.integrityCheck config) =>
      some ({ state with
        jobs := state.jobs.update (fun key _ => key = id) fun job =>
          { job with integrityCheck := config, updatedAt := state.now } }, .getRow id)
  | .write id .delete =>
      some ({ state with jobs := state.jobs.delete fun key _ => key = id }, .cleanUp id)
  | .cleanUp id => some ({ state with registry := unregister state.registry id }, .done)
  | .getRow id =>
      if (state.jobs.get? id).isSome then some (state, .sync id)
      else some (state, .failed (.notFound "Job not found"))
  | .sync id => some ({ state with registry := unregister state.registry id }, .readRow id)
  | .readRow id => some (state, .registerRow id (state.jobs.get? id))
  | .registerRow id row =>
      some ({ state with
        registry := registerRow runtime state.timezone state.registry id row }, .done)
  | .listEnabled => some (state, .registerAll state.enabledJobs)
  | .registerAll rows =>
      some ({ state with
        registry := registerRows runtime state.timezone state.registry rows }, .done)
  | .writeTimezone timezone changed =>
      some ({ state with storedTimezone := timezone }, .assignTimezone timezone changed)
  | .assignTimezone timezone changed =>
      -- the listener starts `syncAll`, which nobody awaits
      if changed then some ({ state with timezone, registry := fun _ => none }, .listEnabled)
      else some ({ state with timezone }, .done)
  | .done | .failed _ => none

/-- What a call makes of a statement that fails. -/
def refused : SchedulerCall → Option SchedulerCall
  | .insert _ | .find .. | .write .. | .cleanUp _ | .getRow _ | .listEnabled | .writeTimezone .. =>
      some (.failed (.error "Connection terminated unexpectedly"))
  | .readRow id => some (.registerRow id none)
  | .sync _ | .registerRow .. | .registerAll _ | .assignTimezone .. | .done | .failed _ => none

/-- A call begins past the checks of its request. -/
def begin (call : SchedulerCall) : Scheduler := { state with calls := state.calls ++ [call] }

def step : SchedulerAction → Option Scheduler
  | .create dto repository =>
      if runtime.validCron dto.cronExpr then
        some (state.begin (.insert (dto.row repository state.now)))
      else none
  | .update id patch =>
      if patch.cronExpr.all fun expr => expr = "" || runtime.validCron expr then
        some (state.begin (.find id (.patch patch)))
      else none
  | .setIntegrityCheck id dto =>
      if !dto.enabled || dto.cronExpr.any fun expr => expr ≠ "" && runtime.validCron expr then
        some (state.begin (.find id (.integrityCheck dto.config)))
      else none
  | .remove id => some (state.begin (.find id .delete))
  | .syncAll => some (begin { state with registry := fun _ => none } .listEnabled)
  | .setTimezone timezone =>
      let tz := Auth.trim timezone
      if runtime.isValidTimezone tz then
        some (state.begin (.writeTimezone tz (tz ≠ state.timezone)))
      else none
  | .proceed index =>
      (state.calls[index]?).bind fun call =>
        (state.advance runtime call).map fun (next, after) =>
          { next with calls := state.calls.set index after }
  | .refuse index =>
      (state.calls[index]?).bind fun call =>
        (refused call).map fun after => { state with calls := state.calls.set index after }
  | .tick time => if state.now ≤ time then some { state with now := time } else none

end Scheduler

/-- The server, from its start on: the first `syncAll` is under way. -/
def scheduling (runtime : CronRuntime) : System Scheduler SchedulerAction where
  initial := fun state =>
    (∀ id job, state.jobs.get? id = some job → id < state.nextJob) ∧
      state.timezone = state.storedTimezone ∧ state.registry = (fun _ => none) ∧
      state.calls = [.listEnabled]
  step := Scheduler.step runtime

end AmberBackup
