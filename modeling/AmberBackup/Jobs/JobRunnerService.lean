import AmberBackup.Server.Effects

/-! # Backups executed by the server

The trigger of a job, the two timers of the queue, and the execution of a backup on the
server from the read of its job to the record of its outcome. Marking the run running
(`BackupPhase.openRun`) and recording its outcome are unconditional writes.
-/

namespace AmberBackup

open Relational

/-- The executions `dispatch` starts: an agent's run waits for its agent's poll. -/
def dispatched (db : Db) (run : Uuid) : List Call :=
  match db.jobRuns.get? run with
  | none => []
  | some row => if db.localJob row.jobId then [.backup run .load] else []

theorem dispatched_cases (db : Db) (run : Uuid) :
    dispatched db run = [] ∨ dispatched db run = [.backup run .load] := by
  unfold dispatched
  cases db.jobRuns.get? run with
  | none => exact Or.inl rfl
  | some row =>
      dsimp only
      split
      · exact Or.inr rfl
      · exact Or.inl rfl

/-- Why the sweep fails a run of the kind. -/
def staleReason : RunKind → String
  | .backup => "is the agent offline?"
  | .check => "is the agent offline or too old for integrity checks?"
  | .prune => ""

/-- `Math.round(timeoutSeconds / 60)`. -/
def timeoutMinutes (timeoutSeconds : Nat) : Nat := (timeoutSeconds + 30) / 60

def staleMessage (settings : Settings) (kind : RunKind) : String :=
  "Not picked up within " ++ toString (timeoutMinutes settings.runQueueTimeoutSeconds) ++
    " min — " ++ staleReason kind

/-- The access a user needs to run or check a job; the scheduler needs none. -/
def mayOperate (db : Db) (job : Uuid) : Option RequestUser → Bool
  | none => true
  | some user => can db user .job job .operate

def triggerOf : Option RequestUser → RunTrigger
  | none => .schedule
  | some _ => .manual

def RunnerPhase.step (settings : Settings) (server : Server) : RunnerPhase → Outcome →
    Option Effect
  | .createRun requester job, .returns _ =>
      if mayOperate server.db job requester && (server.db.backupJobs.get? job).isSome then
        some {
          next := .runner (.dispatch (freshId server.db.jobRuns))
          statement := .insertRun (createdRun job (triggerOf requester) server.now) }
      else some { next := .done }
  | .dispatch run, .returns _ => some { next := .done, spawned := dispatched server.db run }
  | .startDueRetries asOf, .returns _ =>
      some {
        next := .runner (.dispatchDue (server.db.runsHit (.clearNotBefore asOf)))
        statement := .updateRuns (.clearNotBefore asOf) }
  | .dispatchDue [], .returns _ => some { next := .done }
  | .dispatchDue (run :: rest), .returns _ =>
      some { next := .runner (.dispatchDue rest), spawned := dispatched server.db run }
  | .failStale staleBefore (kind :: kinds) stale, .returns _ =>
      let update := RunUpdate.failStale kind staleBefore (staleMessage settings kind)
      some {
        next := .runner (.failStale staleBefore kinds (stale ++ server.db.runsHit update))
        statement := .updateRuns update
        events := (server.db.runsHit update).map .timedOut }
  | .failStale _ [] stale, .returns _ =>
      some { next := .done, spawned := stale.map fun run => .finalize run .retryRead }
  | _, _ => none

/-- The row of a run joined with its job and repository, for a job the server executes. -/
def loadRunContext (db : Db) (run : Uuid) : Option RunContext :=
  (db.jobRuns.get? run).bind fun row =>
    (joined (db.backupJobs.get? row.jobId) fun job =>
      db.repositories.get? job.repositoryId).bind fun (job, repository) =>
        if job.location = .«local» then
          some {
            jobId := row.jobId
            jobName := job.name
            trigger := row.trigger
            repositoryId := job.repositoryId
            ref := repository.ref
            options := job.resticOptions
            paths := job.paths }
        else none

/-- A script path that is set. -/
def hasScript (script : Option String) : Bool := script.any (· ≠ "")

/-- Whether any retention rule is set. -/
def hasRetention (retention : Retention) : Bool :=
  retention.keepLast.isSome || retention.keepHourly.isSome || retention.keepDaily.isSome ||
    retention.keepWeekly.isSome || retention.keepMonthly.isSome ||
    retention.keepYearly.isSome || retention.keepWithin.isSome ||
    retention.keepTags.any (· ≠ []) || retention.prune = some true

/-- What is awaited next on the way to the restic child, none once it is spawned. -/
def Setup.next (options : ResticOptions) : Setup → Option Setup
  | .resolve => if hasScript options.preScript then some .preScript else some .ensureInitialized
  | .preScript => some .ensureInitialized
  | .ensureInitialized => some .prepare
  | .prepare => none

/-- What is awaited after the backup or the forget. -/
def scriptOrRecord (options : ResticOptions) : WrapUp :=
  if hasScript options.postSuccessScript then .postSuccess else .recordSuccess

/-- What is awaited first once the restic child has succeeded. -/
def firstWrapUp (options : ResticOptions) : WrapUp :=
  if options.retention.any hasRetention then .forget else scriptOrRecord options

/-- Whether the retention asks for a prune. -/
def wantsPrune (options : ResticOptions) : Bool :=
  options.retention.any fun retention => retention.prune = some true

/-- The running row of a prune that the server executes. -/
def localPruneRow (job : Uuid) (parent : Option Uuid) (trigger : RunTrigger) (now : Nat) :
    JobRun where
  jobId := job
  kind := .prune
  parentRunId := parent
  trigger
  status := .running
  startedAt := some now
  createdAt := now

def BackupPhase.step (server : Server) (call : Nat) (run : Uuid) : BackupPhase → Outcome →
    Option Effect
  | .load, .returns _ =>
      match loadRunContext server.db run with
      | none => some { next := .done }
      | some context => some { next := .backup run (.register context) }
  | .register context, .returns _ =>
      some { next := .backup run (.openRun context), access := .register .backup run }
  | .openRun context, .returns _ =>
      some {
        next := .backup run (.setup context .resolve)
        statement := .updateRuns (.openLocal run) }
  | .setup context current, .returns _ =>
      match current.next context.options with
      | some next => some { next := .backup run (.setup context next) }
      | none =>
          some {
            next := .backup run (.child context (server.aborted call))
            events := [.started run] }
  | .setup context _, .throws error => some { next := .backup run (.caught context error) }
  | .child context deaf, .reports stats =>
      some { next := .backup run (.child context deaf), spawned := [.writeStats run stats] }
  | .child context _, .throws error => some { next := .backup run (.caught context error) }
  | .child context deaf, .exits exit =>
      if server.mayExit call deaf exit then
        some {
          next :=
            -- Restic exits with 3 when some files could not be read: still a snapshot.
            if exit.code = 0 ∨ exit.code = 3 then
              .backup run (.wrapUp context (firstWrapUp context.options)
                { snapshotId := exit.snapshotId, stats := exit.stats })
            else .backup run (.caught context (exit.error "backup"))
          events := if server.killed call deaf then [] else [.finished run] }
      else none
  | .wrapUp context .forget output, .returns removed =>
      some {
        next := .backup run (.wrapUp context (scriptOrRecord context.options)
          { output with forgetResult := some removed }) }
  | .wrapUp context .forget _, .throws error =>
      some { next := .backup run (.caught context error) }
  -- The data is safe: an error of the script is only logged.
  | .wrapUp context .postSuccess output, .returns _
  | .wrapUp context .postSuccess output, .throws _ =>
      some { next := .backup run (.wrapUp context .recordSuccess output) }
  | .wrapUp context .recordSuccess output, .returns log =>
      some {
        next :=
          if wantsPrune context.options then .backup run (.createPruneRow context)
          else .backup run .unregister
        statement := .updateRuns (.succeedLocal run output.snapshotId output.stats
          output.forgetResult log)
        spawned := [.refreshStats context.repositoryId] }
  | .createPruneRow context, .returns _ =>
      some {
        next := .backup run (.awaitPrune server.calls.length)
        statement := .insertRun
          (localPruneRow context.jobId (some run) context.trigger server.now)
        spawned := [.prune (freshId server.db.jobRuns) context.repositoryId .register] }
  | .createPruneRow context, .throws error =>
      some { next := .backup run (.caught context error) }
  | .awaitPrune awaited, .returns _ =>
      match server.calls[awaited]? with
      | some .done => some { next := .backup run .unregister }
      | _ => none
  | .caught context error, .returns _ =>
      if !server.aborted call && hasScript context.options.postFailureScript then
        some { next := .backup run (.postFailure error) }
      else some { next := .backup run (.recordFailure (server.aborted call) error) }
  | .postFailure error, .returns _ | .postFailure error, .throws _ =>
      some { next := .backup run (.recordFailure false error) }
  | .recordFailure aborted error, .returns log =>
      some {
        next := .backup run .unregister
        statement := .updateRuns (.failLocal run aborted error log) }
  | .unregister, .returns _ =>
      some {
        next := .done
        access := .unregister .backup run
        spawned := [.finalize run .retryRead] }
  | _, _ => none

end AmberBackup
