import AmberBackup.Server.System

/-! # What a step of a call can do

A call is described by what it still has to do about the runs: the runs it will dispatch,
the swept runs it will settle, and the run it executes with the stage of the execution. A
step of a call is one of the moves listed here; the steps of calls that have no such duty,
which is most of them, are one move.
-/

namespace AmberBackup

open Relational

/-- How far the execution of a run has got. -/
inductive Stage where
  /-- The run is not marked running yet. -/
  | waiting
  /-- It is, and restic is not spawned yet. -/
  | opened
  | child (deaf : Bool)
  /-- Restic has come to a result that is not recorded yet. -/
  | finishing
  /-- The execution failed and has not looked at its abort signal since. -/
  | failing
  /-- It has, and the outcome is not recorded yet. -/
  | deciding (aborted : Bool)
  | recorded
  deriving DecidableEq

def BackupPhase.stage : BackupPhase → Stage
  | .load | .register _ | .openRun _ => .waiting
  | .setup _ _ => .opened
  | .child _ deaf => .child deaf
  | .wrapUp _ _ _ => .finishing
  | .caught _ _ => .failing
  | .postFailure _ => .deciding false
  | .recordFailure aborted _ => .deciding aborted
  | .createPruneRow _ | .awaitPrune _ | .unregister => .recorded

def PrunePhase.stage : PrunePhase → Stage
  | .register | .prepare => .opened
  | .child deaf => .child deaf
  | .recordSuccess => .finishing
  | .caught _ => .failing
  | .recordFailure aborted _ => .deciding aborted
  | .unregister => .recorded

/-- A verdict of restic, as opposed to a check that came to none. -/
def CheckOutcome.verdict (outcome : CheckOutcome) : Bool :=
  outcome.damaged || outcome.status = .success

def CheckPhase.stage : CheckPhase → Stage
  | .register | .resolve | .prepare => .opened
  | .child deaf => .child deaf
  | .caught _ => .failing
  | .settle outcome =>
      if outcome.verdict then .finishing else .deciding (outcome.status = .cancelled)
  | .patchRepository _ | .unregister => .recorded

namespace Call

/-- The run a call executes, for which runner, and how far it has got. -/
def execution : Call → Option (Runner × Uuid × Stage)
  | .backup run phase => some (.backup, run, phase.stage)
  | .prune run _ phase => some (.prune, run, phase.stage)
  | .check run _ _ phase => some (.check, run, phase.stage)
  | _ => none

/-- The runs a call will dispatch. -/
def starting : Call → List Uuid
  | .runner (.dispatch run) => [run]
  | .runner (.dispatchDue runs) => runs
  | _ => []

/-- The runs a call has swept and will settle. -/
def sweeping : Call → List Uuid
  | .runner (.failStale _ _ stale) => stale
  | _ => []

/-- The run a call settles or announces. -/
def settling : Call → Option Uuid
  | .finalize run _ => some run
  | .notifyJobRun run _ => some run
  | _ => none

/-- The run a call is about to report an agent's result on. -/
def reporting : Call → Option Uuid
  | .submitResult _ task _ phase =>
      match phase with
      | .recordRun .. | .recordStats .. | .recordPrune .. | .finalize | .cancelledRun
      | .settleCheck .. | .patchRepository .. | .cancelledCheck => some task
      | .touch | .route | .readRun | .readCheck | .readRestore | .recordRestore
      | .cancelledRestore => none
  | _ => none

/-- The run whose opening write a call is about to execute. -/
def opens : Call → Option Uuid
  | .backup run (.openRun _) => some run
  | _ => none

/-- The run that a call is about to cancel without looking at its row. -/
def cancels : Call → Option Uuid
  | .cancelRun run (.write _) => some run
  | _ => none

/-- The run whose outcome a call that does not execute it is about to write: for a cancel,
or for an agent. -/
def overrides : Call → Option Uuid
  | .cancelRun run (.write _) => some run
  | .submitResult _ task _ (.recordRun ..) => some task
  | .submitResult _ task _ .cancelledRun => some task
  | .submitResult _ task _ .cancelledCheck => some task
  | _ => none

/-- The instant before which the queued runs are stale that a sweep is about to fail. -/
def sweepsBefore : Call → Option Nat
  | .runner (.failStale staleBefore _ _) => some staleBefore
  | _ => none

/-- A call that has no duty towards a run. -/
structure Unbound (call : Call) : Prop where
  execution : call.execution = none
  starting : call.starting = []
  sweeping : call.sweeping = []
  settling : call.settling = none
  reporting : call.reporting = none

/-- The same, of a call that is no sweep. -/
structure Idle (call : Call) : Prop extends Unbound call where
  sweepsBefore : call.sweepsBefore = none

theorem idle_done : Idle .done := ⟨⟨rfl, rfl, rfl, rfl, rfl⟩, rfl⟩

theorem idle_writeStats (run : Uuid) (stats : String) : Idle (.writeStats run stats) :=
  ⟨⟨rfl, rfl, rfl, rfl, rfl⟩, rfl⟩

theorem idle_refreshStats (repository : Uuid) : Idle (.refreshStats repository) :=
  ⟨⟨rfl, rfl, rfl, rfl, rfl⟩, rfl⟩

end Call

/-- The row that the opening write of a step lands on. -/
def Server.openedRow (server : Server) (action : Action) : Option JobRun :=
  ((server.resumed action).bind Call.opens).bind server.db.jobRuns.get?

/-- A statement that leaves the jobs as they are and the runs, but for their figures. -/
def Statement.passive : Statement → Bool
  | .updateRuns (.writeStats ..) | .updateRuns (.backupProgress ..) => true
  | .updateRuns _ | .insertRun _ | .updateJob .. => false
  | .nothing | .updateRestores _ | .insertRestore _ | .patchRepository .. | .recordStats ..
  | .clearRequests _ | .touchAgent .. => true

/-- An event about a restore. -/
def Event.passive : Event → Bool
  | .restoreCreated .. | .restoreStarted .. | .restoreClaimed .. => true
  | _ => false

/-- An access to the restores' map, or an abort. -/
def Access.passive : Access → Bool
  | .keep | .abort _ => true
  | .register runner _ | .unregister runner _ => runner = .restore

/-- What a step of the call at an index can do. -/
inductive Move (settings : Settings) (server : Server) (index : Nat) :
    Call → Outcome → Effect → Prop where
  /-- A call without a duty stays without one. -/
  | idle {current : Call} {outcome : Outcome} {effect : Effect} (was : current.Idle)
      (next : effect.next.Idle) (spawned : ∀ call ∈ effect.spawned, call.Idle)
      (statement : effect.statement.passive = true)
      (events : ∀ event ∈ effect.events, event.passive = true)
      (access : effect.access.passive = true) :
      Move settings server index current outcome effect
  | updateJob (user : RequestUser) (job : Uuid) (patch : JobPatch) (outcome : Outcome)
      (accepted : acceptsPatch server.db user job patch = true) :
      Move settings server index (.updateJob user job patch) outcome
        { next := .done, statement := .updateJob job patch }
  | createRun (requester : Option RequestUser) (job : Uuid) (outcome : Outcome)
      (accepted : (mayOperate server.db job requester &&
        (server.db.backupJobs.get? job).isSome) = true) :
      Move settings server index (.runner (.createRun requester job)) outcome {
        next := .runner (.dispatch (freshId server.db.jobRuns))
        statement := .insertRun (createdRun job (triggerOf requester) server.now) }
  | dispatch (run : Uuid) (outcome : Outcome) :
      Move settings server index (.runner (.dispatch run)) outcome
        { next := .done, spawned := dispatched server.db run }
  | dispatchDue (run : Uuid) (rest : List Uuid) (outcome : Outcome) :
      Move settings server index (.runner (.dispatchDue (run :: rest))) outcome
        { next := .runner (.dispatchDue rest), spawned := dispatched server.db run }
  | startDueRetries (asOf : Nat) (outcome : Outcome) :
      Move settings server index (.runner (.startDueRetries asOf)) outcome {
        next := .runner (.dispatchDue (server.db.runsHit (.clearNotBefore asOf)))
        statement := .updateRuns (.clearNotBefore asOf) }
  | sweep (staleBefore : Nat) (kind : RunKind) (kinds : List RunKind) (stale : List Uuid)
      (error : String) (outcome : Outcome) :
      Move settings server index (.runner (.failStale staleBefore (kind :: kinds) stale)) outcome {
        next := .runner (.failStale staleBefore kinds
          (stale ++ server.db.runsHit (.failStale kind staleBefore error)))
        statement := .updateRuns (.failStale kind staleBefore error)
        events := (server.db.runsHit (.failStale kind staleBefore error)).map .timedOut }
  | swept (staleBefore : Nat) (stale : List Uuid) (outcome : Outcome) :
      Move settings server index (.runner (.failStale staleBefore [] stale)) outcome
        { next := .done, spawned := stale.map fun run => .finalize run .retryRead }
  /-- The job of a dispatched run is no longer the server's. -/
  | abandon (run : Uuid) (outcome : Outcome) :
      Move settings server index (.backup run .load) outcome { next := .done }
  /-- An execution gets further within its stage. -/
  | advance {current next : Call} {outcome : Outcome} {runner : Runner} {run : Uuid}
      {stage : Stage} {spawned : List Call}
      (was : current.execution = some (runner, run, stage))
      (becomes : next.execution = some (runner, run, stage))
      (idle : ∀ call ∈ spawned, call.Idle) :
      Move settings server index current outcome { next, spawned }
  | register {current next : Call} {outcome : Outcome} {runner : Runner} {run : Uuid}
      {stage : Stage} (was : current.execution = some (runner, run, stage))
      (becomes : next.execution = some (runner, run, stage)) :
      Move settings server index current outcome { next, access := .register runner run }
  | openRun (run : Uuid) (context : RunContext) (outcome : Outcome) :
      Move settings server index (.backup run (.openRun context)) outcome {
        next := .backup run (.setup context .resolve)
        statement := .updateRuns (.openLocal run) }
  | start {current next : Call} {outcome : Outcome} {runner : Runner} {run : Uuid}
      (was : current.execution = some (runner, run, .opened))
      (becomes : next.execution = some (runner, run, .child (server.aborted index))) :
      Move settings server index current outcome { next, events := [.started run] }
  | fails {current next : Call} {outcome : Outcome} {runner : Runner} {run : Uuid}
      {stage : Stage} (was : current.execution = some (runner, run, stage))
      (before : stage = .opened ∨ (∃ deaf, stage = .child deaf) ∨ stage = .finishing)
      (becomes : next.execution = some (runner, run, .failing)) :
      Move settings server index current outcome { next }
  | exits {current next : Call} {runner : Runner} {run : Uuid} {deaf : Bool}
      {stage : Stage} (exit : ChildExit)
      (was : current.execution = some (runner, run, .child deaf))
      (becomes : next.execution = some (runner, run, stage))
      (result : stage = .finishing ∧
            (server.killed index deaf = true → runner = .check ∧ exit.errorsFound = true) ∨
          stage = .failing) :
      Move settings server index current (.exits exit) {
        next, events := if server.killed index deaf then [] else [.finished run] }
  | recordSuccess {current next : Call} {outcome : Outcome} {runner : Runner} {run : Uuid}
      {update : RunUpdate} {spawned : List Call}
      (was : current.execution = some (runner, run, .finishing))
      (becomes : next.execution = some (runner, run, .recorded))
      (write : (runner = .backup ∧ ∃ snapshotId stats forgetResult log,
            update = .succeedLocal run snapshotId stats forgetResult log) ∨
          (runner = .prune ∧ ∃ log, update = .succeedPrune run log))
      (idle : ∀ call ∈ spawned, call.Idle) :
      Move settings server index current outcome
        { next, statement := .updateRuns update, spawned }
  | pruneRow (run : Uuid) (context : RunContext) (outcome : Outcome) :
      Move settings server index (.backup run (.createPruneRow context)) outcome {
        next := .backup run (.awaitPrune server.calls.length)
        statement := .insertRun
          (localPruneRow context.jobId (some run) context.trigger server.now)
        spawned := [.prune (freshId server.db.jobRuns) context.repositoryId .register] }
  | pruneRefused (run : Uuid) (context : RunContext) (error : String) :
      Move settings server index (.backup run (.createPruneRow context)) (.throws error)
        { next := .backup run (.caught context error) }
  | readFlag {current next : Call} {outcome : Outcome} {runner : Runner} {run : Uuid}
      (was : current.execution = some (runner, run, .failing))
      (becomes : next.execution = some (runner, run, .deciding (server.aborted index))) :
      Move settings server index current outcome { next }
  | recordFailure {current next : Call} {outcome : Outcome} {runner : Runner} {run : Uuid}
      {aborted : Bool} {error log : String}
      (was : current.execution = some (runner, run, .deciding aborted))
      (owner : runner = .backup ∨ runner = .prune)
      (becomes : next.execution = some (runner, run, .recorded)) :
      Move settings server index current outcome
        { next, statement := .updateRuns (.failLocal run aborted error log) }
  | settle (run repository : Uuid) (info : CheckInfo) (verdict : CheckOutcome)
      (next : CheckPhase) (outcome : Outcome) (becomes : next.stage = .recorded) :
      Move settings server index (.check run repository info (.settle verdict)) outcome {
        next := .check run repository info next
        statement := .updateRuns (.settleCheck run info verdict) }
  | patchRepository (run repository : Uuid) (info : CheckInfo) (verdict : CheckOutcome)
      (outcome : Outcome) :
      Move settings server index (.check run repository info (.patchRepository verdict)) outcome {
        next := .check run repository info .unregister
        statement := .patchRepository repository info verdict
        spawned := [.notifyJobRun run .readRun] }
  | finishBackup (run : Uuid) (outcome : Outcome) :
      Move settings server index (.backup run .unregister) outcome {
        next := .done
        access := .unregister .backup run
        spawned := [.finalize run .retryRead] }
  | finish {current : Call} {outcome : Outcome} {runner : Runner} {run : Uuid}
      (was : current.execution = some (runner, run, .recorded))
      (owner : runner = .prune ∨ runner = .check) :
      Move settings server index current outcome
        { next := .done, access := .unregister runner run }
  | insertCheck {current : Call} {outcome : Outcome} (was : current.Idle) (job repository : Uuid)
      (trigger : RunTrigger) («local» : Bool) (info : CheckInfo) :
      Move settings server index current outcome {
        next := .done
        statement := .insertRun (checkRow job trigger «local» info server.now)
        spawned :=
          if «local» then [.check (freshId server.db.jobRuns) repository info .register]
          else [] }
  | insertPrune {current : Call} {outcome : Outcome} (was : current.Idle) (job repository : Uuid) :
      Move settings server index current outcome {
        next := .done
        statement := .insertRun (localPruneRow job none .manual server.now)
        spawned := [.prune (freshId server.db.jobRuns) repository .register] }
  | retryDue (run : Uuid) (row : JobRun) (job : BackupJob) (outcome : Outcome)
      (present : server.db.jobRuns.get? run = some row)
      (owner : server.db.backupJobs.get? row.jobId = some job)
      (allowed : retryAllowed row job = true) :
      Move settings server index (.finalize run .retryRead) outcome {
        next := .finalize run (.retryActive {
          jobId := row.jobId, trigger := row.trigger, attempt := row.attempt
          retryDelaySeconds := job.retryDelaySeconds }) }
  /-- No retry is due, so that the run is announced. -/
  | noRetry (run : Uuid) (outcome : Outcome)
      (refused : ∀ row job, server.db.jobRuns.get? run = some row →
        server.db.backupJobs.get? row.jobId = some job → retryAllowed row job = false) :
      Move settings server index (.finalize run .retryRead) outcome
        { next := .notifyJobRun run .readRun }
  | retryRedundant (run : Uuid) (failed : FailedRun) (outcome : Outcome)
      (active : server.db.jobRuns.anyWhere (otherActive failed.jobId run) = true) :
      Move settings server index (.finalize run (.retryActive failed)) outcome
        { next := .notifyJobRun run .readRun }
  | retryClear (run : Uuid) (failed : FailedRun) (notBefore : Nat) (outcome : Outcome)
      (inactive : server.db.jobRuns.anyWhere (otherActive failed.jobId run) = false) :
      Move settings server index (.finalize run (.retryActive failed)) outcome
        { next := .finalize run (.retryInsert failed notBefore) }
  | retryInsert (run : Uuid) (failed : FailedRun) (notBefore : Nat) (outcome : Outcome) :
      Move settings server index (.finalize run (.retryInsert failed notBefore)) outcome {
        next := .done
        statement := .insertRun (retryRow failed.jobId failed.trigger (failed.attempt + 1) run
          notBefore server.now)
        events := [.retryQueued (freshId server.db.jobRuns) notBefore] }
  /-- The run's outcome is not announced. -/
  | notifyNone (run : Uuid) (outcome : Outcome)
      (unwanted : ∀ row job, server.db.jobRuns.get? run = some row →
        server.db.backupJobs.get? row.jobId = some job →
        wanted job.notify row.status = false ∨ job.notify.channelIds = []) :
      Move settings server index (.notifyJobRun run .readRun) outcome { next := .done }
  | notifyRead (run : Uuid) (row : JobRun) (job : BackupJob) (outcome : Outcome)
      (present : server.db.jobRuns.get? run = some row)
      (owner : server.db.backupJobs.get? row.jobId = some job)
      (wants : wanted job.notify row.status = true) :
      Move settings server index (.notifyJobRun run .readRun) outcome
        { next := .notifyJobRun run (.readChannels row.status job.notify.channelIds) }
  | notify (run : Uuid) (status : RunStatus) (channelIds : List Uuid) (outcome : Outcome) :
      Move settings server index (.notifyJobRun run (.readChannels status channelIds)) outcome {
        next := .done
        events := if enabledChannels server.db channelIds = [] then []
          else [.notified run status (enabledChannels server.db channelIds)] }
  | cancelProbe (run owner : Uuid) (error : Option String) (outcome : Outcome)
      (known : server.controller run = some owner) :
      Move settings server index (.cancelRun run (.probe error)) outcome
        { next := .done, access := .abort owner, events := [.cancelAnswered run] }
  | cancelWrite (run : Uuid) (error : Option String) (outcome : Outcome) :
      Move settings server index (.cancelRun run (.write error)) outcome {
        next := .done
        statement := .updateRuns (.forceCancel run error)
        events := .cancelAnswered run ::
          if queuedRow server.db run then [.withdrawn run] else [] }
  | claim {current next : Call} {outcome : Outcome} (was : current.Idle) (becomes : next.Idle)
      (run agent : Uuid) :
      Move settings server index current outcome {
        next
        statement := .updateRuns (.claim run agent)
        events :=
          if !(server.db.runsHit (.claim run agent)).isEmpty then [.claimed run agent] else [] }
  /-- The result of an agent is about a run the agent was handed. -/
  | reportRead {outcome : Outcome} (agent task : Uuid) (result : TaskResult)
      (before after : ResultPhase) (row : JobRun)
      (was : Call.Idle (.submitResult agent task result before))
      (present : server.db.jobRuns.get? task = some row) (handed : row.agentId = some agent)
      (becomes : after = .cancelledRun ∨ after = .cancelledCheck ∨
        (∃ job repository trigger,
          after = .recordRun job repository trigger ∧ result.status ≠ .cancelled) ∨
        (∃ info repository, after = .settleCheck info repository ∧
          result.status ≠ .cancelled ∧ row.kind = .check)) :
      Move settings server index (.submitResult agent task result before) outcome
        { next := .submitResult agent task result after }
  | reportCancelled (agent task : Uuid) (result : TaskResult) (before : ResultPhase)
      (outcome : Outcome) (was : before = .cancelledRun ∨ before = .cancelledCheck) :
      Move settings server index (.submitResult agent task result before) outcome {
        next := .done
        statement := .updateRuns (.cancelledOnAgent task result.log) }
  | reportRun (agent task job repository : Uuid) (result : TaskResult) (trigger : RunTrigger)
      (outcome : Outcome) :
      Move settings server index
        (.submitResult agent task result (.recordRun job repository trigger)) outcome {
          next := .submitResult agent task result (.recordStats job repository trigger)
          statement := .updateRuns (.recordResult task result) }
  | reportStats {next : Call} (agent task job repository : Uuid) (result : TaskResult)
      (trigger : RunTrigger) (outcome : Outcome) (statement : Statement) (spawned : List Call)
      (passive : statement.passive = true) (idle : ∀ call ∈ spawned, call.Idle)
      (becomes : next = .submitResult agent task result (.recordPrune job repository trigger) ∨
        next = .submitResult agent task result .finalize ∨
          (next = .done ∧ server.db.repositories.get? repository = none)) :
      Move settings server index
        (.submitResult agent task result (.recordStats job repository trigger)) outcome
        { next, statement, spawned }
  | reportPrune (agent task job repository : Uuid) (result : TaskResult) (trigger : RunTrigger)
      (prune : PruneResult) (outcome : Outcome) (spawned : List Call)
      (idle : ∀ call ∈ spawned, call.Idle) :
      Move settings server index
        (.submitResult agent task result (.recordPrune job repository trigger)) outcome {
          next := .submitResult agent task result .finalize
          statement := .insertRun (pruneRow job task agent trigger prune server.now)
          spawned }
  | reportFinalize (agent task : Uuid) (result : TaskResult) (outcome : Outcome) :
      Move settings server index (.submitResult agent task result .finalize) outcome
        { next := .done, spawned := [.finalize task .retryRead] }
  | reportSettle {next : Call} (agent task repository : Uuid) (result : TaskResult)
      (info : CheckInfo) (outcome : Outcome)
      (becomes : next = .done ∨
        next = .submitResult agent task result (.patchRepository info repository)) :
      Move settings server index
        (.submitResult agent task result (.settleCheck info repository)) outcome {
          next
          statement := .updateRuns (.settleCheck task info (checkOutcome result)) }
  | reportPatch (agent task repository : Uuid) (result : TaskResult) (info : CheckInfo)
      (outcome : Outcome) :
      Move settings server index
        (.submitResult agent task result (.patchRepository info repository)) outcome {
          next := .done
          statement := .patchRepository repository info (checkOutcome result)
          spawned := [.notifyJobRun task .readRun] }

end AmberBackup
