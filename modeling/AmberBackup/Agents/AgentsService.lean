import AmberBackup.Agents.Results
import AmberBackup.Jobs.CheckRunnerService

/-! # Agents, statement by statement

Polls, results and progress posts as calls that other calls interleave with. A poll
claims each row by a conditional update, so the row it selected may be gone by then.
-/

namespace AmberBackup

open Relational

/-- The rows a claim loop selects. -/
def selectedRows (db : Db) (now : Nat) (agent : Uuid) : PollLoop → List Uuid
  | .backups => (queuedRuns db agent (dueBackup now)).map QueuedRun.id
  | .restores => (queuedRestores db agent).map Prod.fst
  | .checks => (queuedRuns db agent queuedCheck).map QueuedRun.id

/-- What follows a claim loop; checks are only handed to an agent that can run them. -/
def PollLoop.followedBy (dto : PollDto) : PollLoop → PollPhase
  | .backups => .select .restores
  | .restores => if dto.announces agentCapabilityCheck then .select .checks else .claimStats
  | .checks => .claimStats

/-- The path an agent restores a row into. -/
def claimedPath (db : Db) (restore : Uuid) : String :=
  ((db.restoreRuns.get? restore).map fun row => agentTargetPath row.destination).getD "/"

/-- Claims a run, if it is still queued. -/
def claimRunEffect (server : Server) (agent : Uuid) (dto : PollDto) (loop : PollLoop)
    (run : Uuid) (rest : List Uuid) : Effect :=
  let hit := !(server.db.runsHit (.claim run agent)).isEmpty
  { next := .poll agent dto (if hit then .resolve loop rest else .claim loop rest)
    statement := .updateRuns (.claim run agent)
    events := if hit then [.claimed run agent] else [] }

/-- Claims a restore, if it is still queued. -/
def claimRestoreEffect (server : Server) (agent : Uuid) (dto : PollDto) (restore : Uuid)
    (rest : List Uuid) : Effect :=
  let hit := server.db.restoreRuns.anyWhere (RestoreUpdate.hits (.claim restore))
  { next := .poll agent dto (if hit then .resolve .restores rest else .claim .restores rest)
    statement := .updateRestores (.claim restore)
    events :=
      if hit then [.restoreClaimed restore agent (claimedPath server.db restore)] else [] }

def PollPhase.step (server : Server) (agent : Uuid) (dto : PollDto) :
    PollPhase → Outcome → Option Effect
  | .touch ip, .returns _ =>
      some {
        next := .poll agent dto (.select .backups)
        statement := .touchAgent agent fun row =>
          { row with
            lastSeenAt := some server.now, status := .online
            resticVersion := dto.resticVersion, agentVersion := dto.agentVersion
            lastIp := ip, updatedAt := server.now } }
  | .select loop, .returns _ =>
      some {
        next := .poll agent dto (.claim loop (selectedRows server.db server.now agent loop)) }
  | .claim loop [], .returns _ => some { next := .poll agent dto (loop.followedBy dto) }
  | .claim .backups (run :: rest), .returns _ =>
      some (claimRunEffect server agent dto .backups run rest)
  | .claim .checks (run :: rest), .returns _ =>
      some (claimRunEffect server agent dto .checks run rest)
  | .claim .restores (restore :: rest), .returns _ =>
      some (claimRestoreEffect server agent dto restore rest)
  | .resolve loop rest, .returns _ => some { next := .poll agent dto (.claim loop rest) }
  | .resolve _ _, .throws _ => some { next := .done }
  | .claimStats, .returns _ =>
      let requests := (requestedStats server.db agent).map Prod.fst
      if dto.announces agentCapabilityStats then
        some {
          next := .poll agent dto (.resolveStats requests)
          statement := .clearRequests agent }
      else
        some {
          next := .done
          statement := .clearRequests agent
          spawned := requests.map .refreshStats }
  | .resolveStats [], .returns _ => some { next := .done }
  | .resolveStats (_ :: rest), .returns _ =>
      some { next := .poll agent dto (.resolveStats rest) }
  | .resolveStats (_ :: _), .throws _ => some { next := .done }
  | _, _ => none

/-- `touchAgent`: a post proves that the agent is alive. -/
def aliveAt (now : Nat) (row : Agent) : Agent :=
  { row with lastSeenAt := some now, status := .online, updatedAt := now }

/-- The check a result is about, with the repository of its job. -/
def taskCheck (db : Db) (agent task : Uuid) : Option (CheckInfo × Uuid) :=
  (taskRun db agent task).bind fun (run, job) =>
    if run.kind = .check then some (run.checkInfo.getD { level := .quick }, job.repositoryId)
    else none

def checkOutcome (result : TaskResult) : CheckOutcome where
  status := result.status
  damaged := result.damaged.getD false
  error := result.error
  log := result.log

def restoreOf (db : Db) (agent task : Uuid) : Option RestoreRun :=
  (db.restoreRuns.get? task).filter fun run => run.agentId = some agent

def ResultPhase.step (server : Server) (agent task : Uuid) (result : TaskResult) :
    ResultPhase → Outcome → Option Effect
  | .touch, .returns _ =>
      some {
        next := .submitResult agent task result .route
        statement := .touchAgent agent (aliveAt server.now) }
  | .route, .returns _ =>
      match (server.db.jobRuns.get? task).filter fun run => run.agentId = some agent with
      | some run =>
          some {
            next := .submitResult agent task result
              (if run.kind = .check then .readCheck else .readRun) }
      | none => some { next := .submitResult agent task result .readRestore }
  | .readRun, .returns _ =>
      match taskRun server.db agent task with
      | none => some { next := .done }
      | some (run, job) =>
          some {
            next := .submitResult agent task result
              (if result.status = .cancelled then .cancelledRun
                else .recordRun run.jobId job.repositoryId run.trigger) }
  | .cancelledRun, .returns _ =>
      some {
        next := .done
        statement := .updateRuns (.cancelledOnAgent task result.log) }
  | .recordRun job repository trigger, .returns _ =>
      some {
        next := .submitResult agent task result (.recordStats job repository trigger)
        statement := .updateRuns (.recordResult task result) }
  | .recordStats job repository trigger, .returns _ =>
      let next : Call := .submitResult agent task result
        (if result.prune.isSome then .recordPrune job repository trigger else .finalize)
      if statsReported result then
        if (server.db.repositories.get? repository).isSome then
          some { next, statement := .recordStats repository (toStatsReading result) }
        else some { next := .done }
      else
        some {
          next
          spawned := if result.status = .success then [.refreshStats repository] else [] }
  | .recordPrune job repository trigger, .returns _ =>
      match result.prune with
      | none => none
      | some prune =>
          some {
            next := .submitResult agent task result .finalize
            statement := .insertRun (pruneRow job task agent trigger prune server.now)
            spawned :=
              if !prune.failed && !statsReported result then [.refreshStats repository]
              else [] }
  | .finalize, .returns _ => some { next := .done, spawned := [.finalize task .retryRead] }
  | .readCheck, .returns _ =>
      match taskCheck server.db agent task with
      | none => some { next := .done }
      | some (info, repository) =>
          some {
            next := .submitResult agent task result
              (if result.status = .cancelled then .cancelledCheck
                else .settleCheck info repository) }
  | .cancelledCheck, .returns _ =>
      some {
        next := .done
        statement := .updateRuns (.cancelledOnAgent task result.log) }
  | .settleCheck info repository, .returns _ =>
      some {
        next :=
          if settles server.db task info (checkOutcome result) then
            .submitResult agent task result (.patchRepository info repository)
          else .done
        statement := .updateRuns (.settleCheck task info (checkOutcome result)) }
  | .patchRepository info repository, .returns _ =>
      some {
        next := .done
        statement := .patchRepository repository info (checkOutcome result)
        spawned := [.notifyJobRun task .readRun] }
  | .readRestore, .returns _ =>
      match restoreOf server.db agent task with
      | none => some { next := .done }
      | some _ =>
          some {
            next := .submitResult agent task result
              (if result.status = .cancelled then .cancelledRestore else .recordRestore) }
  | .recordRestore, .returns _ =>
      some { next := .done, statement := .updateRestores (.recordResult task result) }
  | .cancelledRestore, .returns _ =>
      some {
        next := .done
        statement := .updateRestores (.cancelledOnAgent task result.log) }
  | _, _ => none

def ProgressPhase.step (server : Server) (agent task : Uuid) (stats : String) :
    ProgressPhase → Outcome → Option Effect
  | .touch, .returns _ =>
      some {
        next := .submitProgress agent task stats .route
        statement := .touchAgent agent (aliveAt server.now) }
  | .route, .returns _ =>
      match (server.db.jobRuns.get? task).filter fun run => run.agentId = some agent with
      | some _ => some { next := .submitProgress agent task stats .writeRun }
      | none => some { next := .submitProgress agent task stats .writeRestore }
  | .writeRun, .returns _ =>
      some { next := .done, statement := .updateRuns (.backupProgress task agent stats) }
  | .writeRestore, .returns _ =>
      some {
        next := .done
        statement := .updateRestores (.restoreProgress task agent stats) }
  | _, _ => none

end AmberBackup
