import AmberBackup.Jobs.JobRunnerService

/-! # Integrity checks executed by the server

A check is refused while another activity uses the repository. Its outcome is recorded by
`settle`, which changes nothing about a run that is no longer running.
-/

namespace AmberBackup

open Relational

/-- The row a check is recorded on; an agent's check waits for its agent's poll. -/
def checkRow (job : Uuid) (trigger : RunTrigger) («local» : Bool) (info : CheckInfo)
    (now : Nat) : JobRun where
  jobId := job
  kind := .check
  trigger
  status := if «local» then .running else .queued
  startedAt := if «local» then some now else none
  checkInfo := some info
  createdAt := now

/-- Whether the agent of the job is known to predate integrity checks. -/
def agentTooOld (db : Db) (row : BackupJob) : Bool :=
  (row.agentId.bind db.agents.get?).any fun agent =>
    agent.agentVersion.any fun version =>
      version ≠ "" && versionLess version checkMinAgentVersion

def activeRun (job : Uuid) (_ : Uuid) (row : JobRun) : Bool :=
  row.jobId = job && row.status.active

def activeRestore (job : Uuid) (_ : Uuid) (row : RestoreRun) : Bool :=
  row.jobId = some job && row.status.active

def CheckStart.step (server : Server) (job : Uuid) (trigger : RunTrigger) :
    CheckStart → Outcome → Option Effect
  | .getRow requester level, .returns _ =>
      match joined (server.db.backupJobs.get? job) fun row =>
          server.db.repositories.get? row.repositoryId with
      | none => some { next := .done }
      | some (row, repository) =>
          if mayOperate server.db job requester then
            let info := planCheck row repository level
            some {
              next := .startCheck job trigger
                (if row.location = .«local» then .assertNoRun row info
                  else .assertAgentCanCheck row info) }
          else some { next := .done }
  | .assertAgentCanCheck row info, .returns _ =>
      if agentTooOld server.db row then some { next := .done }
      else some { next := .startCheck job trigger (.assertNoRun row info) }
  | .assertNoRun row info, .returns _ =>
      if server.db.jobRuns.anyWhere (activeRun job) then some { next := .done }
      else some { next := .startCheck job trigger (.assertNoRestore row info) }
  | .assertNoRestore row info, .returns _ =>
      if server.db.restoreRuns.anyWhere (activeRestore job) then some { next := .done }
      else some { next := .startCheck job trigger (.insert row info) }
  | .insert row info, .returns _ =>
      let isLocal : Bool := row.location = .«local»
      some {
        next := .done
        statement := .insertRun (checkRow job trigger isLocal info server.now)
        spawned :=
          if isLocal then [.check (freshId server.db.jobRuns) row.repositoryId info .register]
          else [] }
  | _, _ => none

/-- Whether the outcome of a check still hits a running run. -/
def settles (db : Db) (run : Uuid) (info : CheckInfo) (outcome : CheckOutcome) : Bool :=
  !(db.runsHit (.settleCheck run info outcome)).isEmpty

def CheckPhase.step (server : Server) (call : Nat) (run repository : Uuid)
    (info : CheckInfo) : CheckPhase → Outcome → Option Effect
  | .register, .returns _ =>
      some { next := .check run repository info .resolve, access := .register .check run }
  | .resolve, .returns _ => some { next := .check run repository info .prepare }
  | .prepare, .returns _ =>
      some {
        next := .check run repository info (.child (server.aborted call))
        events := [.started run] }
  | .resolve, .throws error | .prepare, .throws error | .child _, .throws error =>
      some { next := .check run repository info (.caught error) }
  | .child deaf, .exits exit =>
      if server.mayExit call deaf exit then
        some {
          next := .check run repository info
            (if exit.code = 0 then
              .settle { status := .success, damaged := false, log := some exit.log }
            else if exit.errorsFound then
              .settle {
                status := .failed, damaged := true, error := some damagedMessage
                log := some exit.log }
            else .caught (exit.error "check"))
          events := if server.killed call deaf then [] else [.finished run] }
      else none
  | .caught error, .returns log =>
      some {
        next := .check run repository info
          (.settle {
            status := if server.aborted call then .cancelled else .failed
            damaged := false, error := some error, log := some log }) }
  | .settle outcome, .returns _ =>
      some {
        next := .check run repository info
          (if settles server.db run info outcome && outcome.status ≠ .cancelled then
            .patchRepository outcome else .unregister)
        statement := .updateRuns (.settleCheck run info outcome) }
  | .patchRepository outcome, .returns _ =>
      some {
        next := .check run repository info .unregister
        statement := .patchRepository repository info outcome
        spawned := [.notifyJobRun run .readRun] }
  | .unregister, .returns _ => some { next := .done, access := .unregister .check run }
  | _, _ => none

end AmberBackup
