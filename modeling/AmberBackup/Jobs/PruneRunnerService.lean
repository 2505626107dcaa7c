import AmberBackup.Jobs.JobRunnerService

/-! # Prunes executed by the server

A prune is an activity of its own. It is started after a backup whose retention asks for
it, or after snapshots were removed.
-/

namespace AmberBackup

open Relational

def PrunePhase.step (server : Server) (call : Nat) (run repository : Uuid) :
    PrunePhase → Outcome → Option Effect
  | .register, .returns _ =>
      some { next := .prune run repository .prepare, access := .register .prune run }
  | .prepare, .returns _ =>
      some {
        next := .prune run repository (.child (server.aborted call))
        events := [.started run] }
  | .prepare, .throws error => some { next := .prune run repository (.caught error) }
  | .child _, .throws error => some { next := .prune run repository (.caught error) }
  | .child deaf, .exits exit =>
      if server.mayExit call deaf exit then
        some {
          next := .prune run repository
            (if exit.code = 0 then .recordSuccess else .caught (exit.error "prune"))
          events := if server.killed call deaf then [] else [.finished run] }
      else none
  | .recordSuccess, .returns log =>
      some {
        next := .prune run repository .unregister
        statement := .updateRuns (.succeedPrune run log)
        spawned := [.refreshStats repository] }
  | .caught error, .returns _ =>
      some { next := .prune run repository (.recordFailure (server.aborted call) error) }
  | .recordFailure aborted error, .returns log =>
      some {
        next := .prune run repository .unregister
        statement := .updateRuns (.failLocal run aborted error log) }
  | .unregister, .returns _ => some { next := .done, access := .unregister .prune run }
  | _, _ => none

/-- `SnapshotsService.remove`: forgets a snapshot and starts the prune it asks for. -/
def RemovalPhase.step (server : Server) (job : Uuid) (reclaim : Bool) :
    RemovalPhase → Outcome → Option Effect
  | .getRow user, .returns _ =>
      match joined (server.db.backupJobs.get? job) fun row =>
          server.db.repositories.get? row.repositoryId with
      | none => some { next := .done }
      | some (row, _) =>
          if can server.db user .job job .manage then
            some { next := .removeSnapshot job reclaim (.resolve row.repositoryId) }
          else some { next := .done }
  | .resolve repository, .returns _ =>
      some { next := .removeSnapshot job reclaim (.forget repository) }
  | .forget repository, .returns _ =>
      if reclaim then some { next := .removeSnapshot job reclaim (.createRow repository) }
      else some { next := .done }
  | .createRow repository, .returns _ =>
      some {
        next := .done
        statement := .insertRun (localPruneRow job none .manual server.now)
        spawned := [.prune (freshId server.db.jobRuns) repository .register] }
  | .resolve _, .throws _ | .forget _, .throws _ | .createRow _, .throws _ =>
      some { next := .done }
  | _, _ => none

end AmberBackup
