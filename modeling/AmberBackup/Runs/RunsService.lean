import AmberBackup.Common.AccessControl
import AmberBackup.Server.Effects

/-! # Cancelling runs

A run this server executes is aborted through the controller its runner registered. Any
other run is settled here, by an unconditional write on the row read before.
-/

namespace AmberBackup

open Relational

/-- What a run is marked with that is cancelled without a process of this server. -/
def cancelError (status : RunStatus) (agentId : Option Uuid) : Option String :=
  if status = .queued then none
  else if agentId.isSome then some cancelledOnServerAgentMessage
  else some cancelledNoProcessMessage

/-- The call whose controller the runners know for a run. -/
def Server.controller (server : Server) (run : Uuid) : Option Nat :=
  (server.running .backup run).or ((server.running .prune run).or (server.running .check run))

def queuedRow (db : Db) (run : Uuid) : Bool :=
  (db.jobRuns.get? run).any fun row => row.status = .queued

/-- `RunsService.cancel`. -/
def CancelPhase.step (server : Server) (run : Uuid) : CancelPhase → Outcome → Option Effect
  | .read user, .returns _ =>
      match server.db.jobRuns.get? run with
      | none => some { next := .done }
      | some row =>
          if can server.db user .job row.jobId .view &&
              can server.db user .job row.jobId .operate && row.status.active then
            some { next := .cancelRun run (.probe (cancelError row.status row.agentId)) }
          else some { next := .done }
  | .probe error, .returns _ =>
      match server.controller run with
      | some owner =>
          some { next := .done, access := .abort owner, events := [.cancelAnswered run] }
      | none => some { next := .cancelRun run (.write error) }
  | .write error, .returns _ =>
      some {
        next := .done
        statement := .updateRuns (.forceCancel run error)
        events := .cancelAnswered run ::
          if queuedRow server.db run then [.withdrawn run] else [] }
  | _, _ => none

end AmberBackup
