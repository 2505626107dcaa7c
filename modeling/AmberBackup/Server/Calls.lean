import AmberBackup.Agents.Poll
import AmberBackup.Jobs.JobsService

/-! # Calls in flight

The server runs many calls at once: requests, timer ticks, posts of agents, and the calls
these start without awaiting them. A call is described by where it stands between two of
its awaits, with the values it has read so far; what it does next is one `Effect`: at most
one statement, one access to the maps of running calls, and the calls it starts.
-/

namespace AmberBackup

open Relational

/-- The services that keep a map of the runs they execute in this process. -/
inductive Runner where
  | backup | prune | check | restore
  deriving DecidableEq

/-- What `loadRunContext` reads of a backup run. -/
structure RunContext where
  jobId : Uuid
  jobName : String
  trigger : RunTrigger
  repositoryId : Uuid
  ref : RepositoryRef
  options : ResticOptions
  paths : List String

/-- What a finished `restic backup` and the forget after it yield. -/
structure BackupOutput where
  snapshotId : Option String
  stats : String
  forgetResult : Option String := none

/-- The awaits between the start of a run and the start of its restic child. -/
inductive Setup where
  | resolve | preScript | ensureInitialized
  /-- Restic's work directory and credential files. -/
  | prepare
  deriving DecidableEq

/-- The awaits between a backup's restic child and the record of its success. -/
inductive WrapUp where
  | forget | postSuccess | recordSuccess
  deriving DecidableEq

/-- `JobRunnerService.executeLocal`. -/
inductive BackupPhase where
  | load
  | register (context : RunContext)
  | openRun (context : RunContext)
  | setup (context : RunContext) (next : Setup)
  /-- Restic runs. A child spawned under an aborted signal is deaf to it. -/
  | child (context : RunContext) (deaf : Bool)
  | wrapUp (context : RunContext) (next : WrapUp) (output : BackupOutput)
  | createPruneRow (context : RunContext)
  /-- Awaits the prune executed by another call. -/
  | awaitPrune (call : Nat)
  | caught (context : RunContext) (error : String)
  | postFailure (error : String)
  | recordFailure (aborted : Bool) (error : String)
  | unregister

/-- `PruneRunnerService.execute`. -/
inductive PrunePhase where
  | register
  | prepare
  | child (deaf : Bool)
  | recordSuccess
  | caught (error : String)
  | recordFailure (aborted : Bool) (error : String)
  | unregister

/-- `CheckRunnerService.execute`. -/
inductive CheckPhase where
  | register
  | resolve
  | prepare
  | child (deaf : Bool)
  | caught (error : String)
  | settle (outcome : CheckOutcome)
  | patchRepository (outcome : CheckOutcome)
  | unregister

/-- `CheckRunnerService.start`. -/
inductive CheckStart where
  | getRow (requester : Option RequestUser) (level : Option IntegrityLevel)
  | assertAgentCanCheck (row : BackupJob) (info : CheckInfo)
  | assertNoRun (row : BackupJob) (info : CheckInfo)
  | assertNoRestore (row : BackupJob) (info : CheckInfo)
  | insert (row : BackupJob) (info : CheckInfo)

/-- The timers of `JobRunnerService` and the trigger of a job. -/
inductive RunnerPhase where
  /-- A tick of the job's schedule, or a user's request. -/
  | createRun (requester : Option RequestUser) (job : Uuid)
  | dispatch (run : Uuid)
  /-- `startDueRetries`, at the instant it was called. -/
  | startDueRetries (asOf : Nat)
  | dispatchDue (runs : List Uuid)
  /-- `failStaleQueuedRuns`: the kinds still to sweep and the runs swept so far. -/
  | failStale (staleBefore : Nat) (kinds : List RunKind) (stale : List Uuid)

/-- What `scheduleRetry` reads of a failed run. -/
structure FailedRun where
  jobId : Uuid
  trigger : RunTrigger
  attempt : Nat
  retryDelaySeconds : Nat

/-- `RunRetryService.finalize`. -/
inductive FinalizePhase where
  | retryRead
  | retryActive (failed : FailedRun)
  | retryInsert (failed : FailedRun) (notBefore : Nat)

/-- `NotificationsService.notifyJobRun`. -/
inductive NotifyPhase where
  | readRun
  | readChannels (status : RunStatus) (channelIds : List Uuid)

/-- `RunsService.cancel` and `RestoreService.cancel`. -/
inductive CancelPhase where
  | read (user : RequestUser)
  | probe (error : Option String)
  | write (error : Option String)

/-- The claim loops of a poll. -/
inductive PollLoop where
  | backups | restores | checks
  deriving DecidableEq

/-- `AgentsService.poll`. -/
inductive PollPhase where
  | touch (ip : Option String)
  | select (loop : PollLoop)
  | claim (loop : PollLoop) (rows : List Uuid)
  /-- Resolves the repository of the row claimed last. -/
  | resolve (loop : PollLoop) (rows : List Uuid)
  | claimStats
  | resolveStats (repositories : List Uuid)

/-- `AgentsService.submitResult`. -/
inductive ResultPhase where
  | touch
  | route
  | readRun
  | recordRun (job repository : Uuid) (trigger : RunTrigger)
  | recordStats (job repository : Uuid) (trigger : RunTrigger)
  | recordPrune (job repository : Uuid) (trigger : RunTrigger)
  /-- Starts the settling of the run. -/
  | finalize
  | cancelledRun
  | readCheck
  | cancelledCheck
  | settleCheck (info : CheckInfo) (repository : Uuid)
  | patchRepository (info : CheckInfo) (repository : Uuid)
  | readRestore
  | recordRestore
  | cancelledRestore

/-- `AgentsService.submitProgress`. -/
inductive ProgressPhase where
  | touch | route | writeRun | writeRestore

/-- `SnapshotsService.remove`. -/
inductive RemovalPhase where
  | getRow (user : RequestUser)
  | resolve (repository : Uuid)
  | forget (repository : Uuid)
  | createRow (repository : Uuid)

structure RestoreDestinationDto where
  path : Option String := none
  agentId : Option Uuid := none

structure CreateRestoreDto where
  jobId : Uuid
  snapshotId : String
  includedPaths : Option (List String) := none
  mode : RestoreMode
  destination : Option RestoreDestinationDto := none
  options : Option RestoreOptions := none

/-- `RestoreRunnerService.executeLocal`. -/
inductive RestorePhase where
  | load
  | register (run : RestoreRun)
  | openRun (run : RestoreRun)
  | resolve (run : RestoreRun)
  /-- Settles the target path and creates the directory of a download. -/
  | makeTarget (run : RestoreRun)
  | prepare (run : RestoreRun) (targetPath : String)
  | child (run : RestoreRun) (targetPath : String) (deaf : Bool)
  | createArchive (run : RestoreRun) (targetPath stats : String)
  | recordSuccess (run : RestoreRun) (stats : String) (archive : Option String)
  | caught (error : String)
  | recordFailure (aborted : Bool) (error : String)
  | unregister

/-- A call in flight. -/
inductive Call where
  | runner (phase : RunnerPhase)
  | backup (run : Uuid) (phase : BackupPhase)
  | prune (run repository : Uuid) (phase : PrunePhase)
  | startCheck (job : Uuid) (trigger : RunTrigger) (phase : CheckStart)
  | check (run repository : Uuid) (info : CheckInfo) (phase : CheckPhase)
  | removeSnapshot (job : Uuid) (reclaim : Bool) (phase : RemovalPhase)
  | finalize (run : Uuid) (phase : FinalizePhase)
  | notifyJobRun (run : Uuid) (phase : NotifyPhase)
  | cancelRun (run : Uuid) (phase : CancelPhase)
  | poll (agent : Uuid) (dto : PollDto) (phase : PollPhase)
  | submitResult (agent task : Uuid) (result : TaskResult) (phase : ResultPhase)
  | submitProgress (agent task : Uuid) (stats : String) (phase : ProgressPhase)
  | writeStats (run : Uuid) (stats : String)
  | refreshStats (repository : Uuid)
  | updateJob (user : RequestUser) (job : Uuid) (patch : JobPatch)
  | createRestore (user : RequestUser) (dto : CreateRestoreDto)
  | dispatchRestore (restore : Uuid)
  | restore (id : Uuid) (phase : RestorePhase)
  | cancelRestore (restore : Uuid) (phase : CancelPhase)
  | writeRestoreStats (restore : Uuid) (stats : String)
  | done

end AmberBackup
