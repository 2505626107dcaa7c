import AmberBackup.Jobs.JobEdits
import AmberBackup.Runs.RunsService

/-! # Restores

The creation of a restore, its execution on the server and its cancellation. Whether a
restore needs an administrator is decided from its mode, who executes it from the agent
its destination names, and where it writes from both, each in another place.
-/

namespace AmberBackup

open Relational

/-- How long a download artifact lives. -/
def downloadTtlMs : Nat := 24 * 3600000

def RestoreDestinationDto.destination (dto : RestoreDestinationDto) : RestoreDestination where
  path := dto.path
  agentId := dto.agentId

/-- The row of a restore: the job's repository as it is resolved now. -/
def createdRestore (user : RequestUser) (dto : CreateRestoreDto) (repository : Repository)
    (now : Nat) : RestoreRun where
  targetId := repository.targetId
  jobId := some dto.jobId
  repoConfig := repository.repoConfig
  repoPasswordSecretId := repository.repoPasswordSecretId
  credentialSecretId := repository.credentialSecretId
  snapshotId := dto.snapshotId
  includedPaths := dto.includedPaths
  mode := dto.mode
  destination := (dto.destination.map RestoreDestinationDto.destination).getD {}
  options := dto.options.getD {}
  status := .queued
  agentId := dto.destination.bind RestoreDestinationDto.agentId
  initiatedBy := user.id
  createdAt := now

/-- Restoring to a filesystem path requires administrator access. -/
def modeAllowed (user : RequestUser) (mode : RestoreMode) : Bool :=
  mode = .download || user.isAdmin

/-- `RestoreService.create`, up to the dispatch. -/
def createRestoreEffect (server : Server) (user : RequestUser) (dto : CreateRestoreDto) : Effect :=
  match joined (server.db.backupJobs.get? dto.jobId) fun job =>
      server.db.repositories.get? job.repositoryId with
  | none => { next := .done }
  | some (_, repository) =>
      if can server.db user .job dto.jobId .operate && modeAllowed user dto.mode then
        { next := .dispatchRestore (freshId server.db.restoreRuns)
          statement := .insertRestore (createdRestore user dto repository server.now)
          events := [.restoreCreated (freshId server.db.restoreRuns) user.isAdmin] }
      else { next := .done }

/-- Inserts the row of a restore. -/
def insertRestore (user : RequestUser) (dto : CreateRestoreDto) (repository : Repository) :
    Service Uuid := ⟨fun world =>
  (.ok (freshId world.db.restoreRuns),
    { world with
      db := { world.db with
        restoreRuns := world.db.restoreRuns.insert (freshId world.db.restoreRuns)
          (createdRestore user dto repository world.now) } })⟩

/-- `RestoreService.create`, up to the dispatch, as one call. -/
def createRestore (user : RequestUser) (dto : CreateRestoreDto) : Service Uuid := do
  assertAcl user .job dto.jobId .operate
  require (modeAllowed user dto.mode)
    (.forbidden "Restoring to a filesystem path requires administrator access")
  let (_, repository) ← getRow dto.jobId
  insertRestore user dto repository

/-- `RestoreRunnerService.dispatch`: a restore onto an agent waits for the agent's poll. -/
def dispatchedRestore (db : Db) (restore : Uuid) : List Call :=
  match db.restoreRuns.get? restore with
  | none => []
  | some run => if run.destination.agentId.isSome then [] else [.restore restore .load]

/-- The managed directory of a download. -/
def downloadDir (settings : Settings) (restore : Uuid) : String :=
  settings.restoreTmpDir ++ "/restore-" ++ toString restore

/-- The path a restore on the server writes to. -/
def serverTargetPath (settings : Settings) (restore : Uuid) (run : RestoreRun) :
    Except String String :=
  match run.mode with
  | .download => .ok (downloadDir settings restore)
  | .original => .ok (agentTargetPath run.destination)
  | .alternatePath =>
      match run.destination.path with
      | none => .error "alternate_path requires a path"
      | some path => if path = "" then .error "alternate_path requires a path" else .ok path

/-- Whether an archive is made of what was restored. -/
def archives (run : RestoreRun) : Bool :=
  run.mode = .download && run.options.dryRun ≠ some true

/-- `RestoreRunnerService.executeLocal`. -/
def RestorePhase.step (settings : Settings) (server : Server) (call : Nat) (id : Uuid) :
    RestorePhase → Outcome → Option Effect
  | .load, .returns _ =>
      match server.db.restoreRuns.get? id with
      | none => some { next := .done }
      | some run => some { next := .restore id (.register run) }
  | .register run, .returns _ =>
      some { next := .restore id (.openRun run), access := .register .restore id }
  | .openRun run, .returns _ =>
      some {
        next := .restore id (.resolve run)
        statement := .updateRestores (.openLocal id) }
  | .resolve run, .returns _ => some { next := .restore id (.makeTarget run) }
  | .makeTarget run, .returns _ =>
      match serverTargetPath settings id run with
      | .ok targetPath => some { next := .restore id (.prepare run targetPath) }
      | .error error => some { next := .restore id (.caught error) }
  | .prepare run targetPath, .returns _ =>
      some {
        next := .restore id (.child run targetPath (server.aborted call))
        events := [.restoreStarted id targetPath] }
  | .child run targetPath deaf, .reports stats =>
      some {
        next := .restore id (.child run targetPath deaf)
        spawned := [.writeRestoreStats id stats] }
  | .child run targetPath deaf, .exits exit =>
      if server.mayExit call deaf exit then
        some {
          next := .restore id
            (if exit.code ≠ 0 then .caught (exit.error "restore")
            else if archives run then .createArchive run targetPath exit.stats
            else .recordSuccess run exit.stats none) }
      else none
  | .createArchive run targetPath stats, .returns _ =>
      some { next := .restore id (.recordSuccess run stats (some (targetPath ++ ".tar.gz"))) }
  | .resolve _, .throws error | .makeTarget _, .throws error | .prepare _ _, .throws error
  | .child _ _ _, .throws error | .createArchive _ _ _, .throws error =>
      some { next := .restore id (.caught error) }
  | .recordSuccess run stats archive, .returns log =>
      some {
        next := .restore id .unregister
        statement := .updateRestores (.succeedLocal id stats
          { run.destination with downloadRef := archive }
          (archive.map fun _ => server.now + downloadTtlMs) log) }
  | .caught error, .returns _ =>
      some { next := .restore id (.recordFailure (server.aborted call) error) }
  | .recordFailure aborted error, .returns log =>
      some {
        next := .restore id .unregister
        statement := .updateRestores (.failLocal id aborted error log) }
  | .unregister, .returns _ => some { next := .done, access := .unregister .restore id }
  | _, _ => none

/-- Access to a restore: only admins see one whose job was deleted. -/
def mayCancelRestore (db : Db) (user : RequestUser) (run : RestoreRun) : Bool :=
  match run.jobId with
  | none => user.isAdmin
  | some job => can db user .job job .view && can db user .job job .operate

/-- `RestoreService.cancel`. -/
def CancelPhase.restoreStep (server : Server) (id : Uuid) : CancelPhase → Outcome →
    Option Effect
  | .read user, .returns _ =>
      match server.db.restoreRuns.get? id with
      | none => some { next := .done }
      | some run =>
          if mayCancelRestore server.db user run && run.status.active then
            some { next := .cancelRestore id (.probe (cancelError run.status run.agentId)) }
          else some { next := .done }
  | .probe error, .returns _ =>
      match server.running .restore id with
      | some owner => some { next := .done, access := .abort owner }
      | none => some { next := .cancelRestore id (.write error) }
  | .write error, .returns _ =>
      some { next := .done, statement := .updateRestores (.cancel id error) }
  | _, _ => none

end AmberBackup
