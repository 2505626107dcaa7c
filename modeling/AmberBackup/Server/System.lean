import AmberBackup.Agents.AgentsService
import AmberBackup.Jobs.PruneRunnerService
import AmberBackup.Jobs.Settling
import AmberBackup.Lib.Transition
import AmberBackup.Restore.RestoreService

/-! # The running server

All calls of the server interleave at their awaits: a step of the server lets time pass,
starts a call, or takes one step of one call in flight, with any outcome of what that call
awaits. Statements succeed, except that the insertion of a prune row may be refused.
-/

namespace AmberBackup

open Relational

/-- The calls that requests, timers and agents start. -/
inductive Entry where
  /-- A tick of a job's schedule, or a user's request to run the job. -/
  | runJob (requester : Option RequestUser) (job : Uuid)
  | startDueRetries
  | failStaleQueuedRuns
  | startCheck (requester : Option RequestUser) (job : Uuid) (level : Option IntegrityLevel)
  | removeSnapshot (user : RequestUser) (job : Uuid) (reclaim : Bool)
  | cancelRun (user : RequestUser) (run : Uuid)
  | poll (agent : Uuid) (ip : Option String) (dto : PollDto)
  | submitResult (agent task : Uuid) (result : TaskResult)
  | submitProgress (agent task : Uuid) (stats : String)
  | updateJob (user : RequestUser) (job : Uuid) (patch : JobPatch)
  | createRestore (user : RequestUser) (dto : CreateRestoreDto)
  | cancelRestore (user : RequestUser) (restore : Uuid)

/-- The instant before which a queued run is stale. -/
def staleBefore (settings : Settings) (now : Nat) : Nat :=
  now - settings.runQueueTimeoutSeconds * 1000

/-- Where a call begins. -/
def Entry.call (settings : Settings) (now : Nat) : Entry → Call
  | .runJob requester job => .runner (.createRun requester job)
  | .startDueRetries => .runner (.startDueRetries now)
  | .failStaleQueuedRuns =>
      if settings.runQueueTimeoutSeconds = 0 then .done
      else .runner (.failStale (staleBefore settings now) [.backup, .check] [])
  | .startCheck requester job level =>
      .startCheck job (triggerOf requester) (.getRow requester level)
  | .removeSnapshot user job reclaim => .removeSnapshot job reclaim (.getRow user)
  | .cancelRun user run => .cancelRun run (.read user)
  | .poll agent ip dto => .poll agent dto (.touch ip)
  | .submitResult agent task result => .submitResult agent task result .touch
  | .submitProgress agent task stats => .submitProgress agent task stats .touch
  | .updateJob user job patch => .updateJob user job patch
  | .createRestore user dto => .createRestore user dto
  | .cancelRestore user restore => .cancelRestore restore (.read user)

/-- One step of a call. -/
def Call.step (settings : Settings) (server : Server) (call : Nat) :
    Call → Outcome → Option Effect
  | .runner phase, outcome => phase.step settings server outcome
  | .backup run phase, outcome => phase.step server call run outcome
  | .prune run repository phase, outcome => phase.step server call run repository outcome
  | .startCheck job trigger phase, outcome => phase.step server job trigger outcome
  | .check run repository info phase, outcome => phase.step server call run repository info outcome
  | .removeSnapshot job reclaim phase, outcome => phase.step server job reclaim outcome
  | .finalize run phase, outcome => phase.step server run outcome
  | .notifyJobRun run phase, outcome => phase.step server run outcome
  | .cancelRun run phase, outcome => phase.step server run outcome
  | .poll agent dto phase, outcome => phase.step server agent dto outcome
  | .submitResult agent task result phase, outcome => phase.step server agent task result outcome
  | .submitProgress agent task stats phase, outcome => phase.step server agent task stats outcome
  | .writeStats run stats, _ =>
      some { next := .done, statement := .updateRuns (.writeStats run stats) }
  | .refreshStats repository, .measures reading =>
      some { next := .done, statement := .recordStats repository reading }
  | .refreshStats _, _ => none
  | .updateJob user job patch, _ =>
      if acceptsPatch server.db user job patch then
        some { next := .done, statement := .updateJob job patch }
      else some { next := .done }
  | .createRestore user dto, _ => some (createRestoreEffect server user dto)
  | .dispatchRestore id, _ =>
      some { next := .done, spawned := dispatchedRestore server.db id }
  | .restore id phase, outcome => phase.step settings server call id outcome
  | .cancelRestore id phase, outcome => phase.restoreStep server id outcome
  | .writeRestoreStats id stats, _ =>
      some { next := .done, statement := .updateRestores (.writeStats id stats) }
  | .done, _ => none

inductive Action where
  | tick (elapsed : Nat)
  | begin (entry : Entry)
  | resume (call : Nat) (outcome : Outcome)

def Server.step (settings : Settings) (server : Server) : Action → Option Server
  | .tick elapsed => some { server with now := server.now + elapsed }
  | .begin entry =>
      some { server with calls := server.calls ++ [entry.call settings server.now] }
  | .resume call outcome =>
      (server.calls[call]?).bind fun current =>
        (current.step settings server call outcome).map (server.after call)

/-- The call a step resumes. -/
def Server.resumed (server : Server) : Action → Option Call
  | .resume index _ => server.calls[index]?
  | .tick _ | .begin _ => none

/-- A condition on the steps of calls, as one on the steps of the server. -/
def onSteps (condition : Server → Call → Outcome → Bool) (server : Server) : Action → Bool
  | .resume index outcome => (server.calls[index]?).all fun call => condition server call outcome
  | .tick _ | .begin _ => true

theorem onSteps_resume {condition : Server → Call → Outcome → Bool} {server : Server}
    {index : Nat} {outcome : Outcome} {call : Call}
    (permitted : onSteps condition server (.resume index outcome) = true)
    (present : server.calls[index]? = some call) : condition server call outcome = true := by
  change ((server.calls[index]?).all fun call => condition server call outcome) = true at permitted
  rw [present] at permitted
  exact permitted

/-- A server that has just been set up: it is configured and has run nothing yet. -/
structure Server.Fresh (server : Server) : Prop where
  jobRuns : server.db.jobRuns = .empty
  restoreRuns : server.db.restoreRuns = .empty
  calls : server.calls = []
  running : ∀ runner run, server.running runner run = none
  journal : server.journal = []

/-- The running server as a transition system. -/
def runningServer (settings : Settings) : Transition.System Server Action where
  initial := Server.Fresh
  step := Server.step settings

/-- An installation with one nightly job of the server, and an agent that is enrolled. -/
def nightlyJob : BackupJob where
  name := "nightly"
  location := .«local»
  paths := ["/home"]
  repositoryId := 5

def installation (job : BackupJob) : Server where
  db :=
    { resourceGrants := [{
        userId := 2, resourceType := .job, resourceId := 1, accessLevel := .operate }]
      repositories := .ofList [(5, {
        name := "nightly", targetId := none, repoConfig := [("path", .text "/srv/restic")],
        repoPasswordSecretId := 9 })]
      agents := .ofList [(7, { name := "host" })]
      backupJobs := .ofList [(1, job)]
      notificationChannels := .ofList [(4, { name := "mail", type := "email", enabled := true })] }
  now := 1000

theorem fresh_installation (settings : Settings) (job : BackupJob) :
    (runningServer settings).initial (installation job) := ⟨rfl, rfl, rfl, fun _ _ => rfl, rfl⟩

def hourSettings : Settings where
  runQueueTimeoutSeconds := 3600
  restoreTmpDir := "/data/restores"

def root : RequestUser where
  id := 1
  isAdmin := true

/-- A user who may operate the nightly job. -/
def operator : RequestUser where
  id := 2
  isAdmin := false

/-- A call that returns. -/
def Action.returns (call : Nat) : Action := .resume call (.returns "")

/-- The steps that bring a backup on the server from its read of the job to restic. -/
def spawnedBackup (call : Nat) : List Action := List.replicate 6 (.returns call)

/-- The steps of an agent's poll up to its first claim. -/
def claimedBackup (call : Nat) : List Action := List.replicate 3 (.returns call)

/-- From restic to a retry: restic fails, the failure is recorded, and the run is settled by
the call that the execution starts. -/
def failedBackup (call settled : Nat) : List Action :=
  [.resume call (.exits { code := 1 }), .returns call, .returns call, .returns call] ++
    List.replicate 3 (.returns settled)

/-- Restic ends with the code. -/
def Action.exits (call : Nat) (code : Int) : Action := .resume call (.exits { code })

/-- The nightly job, handed to the agent. -/
def agentJob : BackupJob :=
  { nightlyJob with location := .agent, agentId := some 7 }

def hasStatus (run : Uuid) (status : RunStatus) (server : Server) : Bool :=
  (server.db.jobRuns.get? run).any fun row => row.status = status

theorem hasStatus_iff {run : Uuid} {status : RunStatus} {server : Server} :
    hasStatus run status server = true ↔
      ∃ row, server.db.jobRuns.get? run = some row ∧ row.status = status := by
  unfold hasStatus
  cases server.db.jobRuns.get? run with
  | none => simp
  | some row => simp

end AmberBackup
