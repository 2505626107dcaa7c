import AmberBackup.Jobs.RunRetryService
import AmberBackup.Server.Effects

/-! # Settling runs, statement by statement

Between the read of the failed run, the look for another active backup and the insertion
of the retry, every other call of the server may take its steps.
-/

namespace AmberBackup

open Relational

def FinalizePhase.step (server : Server) (run : Uuid) : FinalizePhase → Outcome →
    Option Effect
  | .retryRead, .returns _ =>
      match joined (server.db.jobRuns.get? run) fun row =>
          server.db.backupJobs.get? row.jobId with
      | none => some { next := .notifyJobRun run .readRun }
      | some (row, job) =>
          if retryAllowed row job then
            some {
              next := .finalize run (.retryActive {
                jobId := row.jobId, trigger := row.trigger, attempt := row.attempt
                retryDelaySeconds := job.retryDelaySeconds }) }
          else some { next := .notifyJobRun run .readRun }
  | .retryActive failed, .returns _ =>
      if server.db.jobRuns.anyWhere (otherActive failed.jobId run) then
        some { next := .notifyJobRun run .readRun }
      else
        some {
          next := .finalize run
            (.retryInsert failed (retryDueAt server.now failed.retryDelaySeconds)) }
  | .retryInsert failed notBefore, .returns _ =>
      some {
        next := .done
        statement := .insertRun (retryRow failed.jobId failed.trigger (failed.attempt + 1) run
          notBefore server.now)
        events := [.retryQueued (freshId server.db.jobRuns) notBefore] }
  | _, _ => none

def NotifyPhase.step (server : Server) (run : Uuid) : NotifyPhase → Outcome → Option Effect
  | .readRun, .returns _ =>
      match joined (server.db.jobRuns.get? run) fun row =>
          server.db.backupJobs.get? row.jobId with
      | none => some { next := .done }
      | some (row, job) =>
          if wanted job.notify row.status && job.notify.channelIds ≠ [] then
            some { next := .notifyJobRun run (.readChannels row.status job.notify.channelIds) }
          else some { next := .done }
  | .readChannels status channelIds, .returns _ =>
      let channels := enabledChannels server.db channelIds
      some {
        next := .done
        events := if channels = [] then [] else [.notified run status channels] }
  | _, _ => none

end AmberBackup
