import AmberBackup.Jobs.JobRunnerService
import AmberBackup.Restic.ResticService

/-! # A backup on the server, from its scripts to its prune

The commands a local backup runs once its repository is resolved, and what it records:
the status of the run and the outcome of the prune that follows it. The steps between
which other calls of the server act are those of `BackupPhase.step`; here the host decides
how each command ends.
-/

namespace AmberBackup

/-- The `AMBER_*` entries of a script's environment. -/
def scriptEnv (context : RunContext) (run : Uuid) (extra : List (String × String)) :
    List (String × String) :=
  [("AMBER_JOB_ID", toString context.jobId),
    ("AMBER_JOB_NAME", context.jobName),
    ("AMBER_RUN_ID", toString run),
    ("AMBER_PATHS", String.intercalate "\n" context.paths)] ++ extra

/-- Runs a job script; throws when it fails. -/
def runScript (host : Host) (hook : Hook) (path : String) (env : List (String × String)) :
    Local Unit := do
  execute (.script path env)
  match (host.script hook).err with
  | none => return ()
  | some err => .raise ("Script failed: " ++ err)

/-- Runs a script where its path is set. -/
def runIfSet (host : Host) (hook : Hook) (path : Option String)
    (env : List (String × String)) : Local Unit :=
  if hasScript path then runScript host hook (path.getD "") env else return ()

/-- The backup up to the record of its success; the snapshot it took. -/
def backUpLocally (host : Host) (run : Uuid) (context : RunContext) :
    Local (Option String) := do
  let options := context.options
  runIfSet host .pre options.preScript (scriptEnv context run [("AMBER_HOOK", "pre")])
  ResticService.ensureInitialized host
  let snapshot ← ResticService.backup host context.paths options
  match options.retention.filter hasRetention with
  | none => pure ()
  | some retention => ResticService.forget host { retention with prune := some false }
  -- The data is already safe: the error of the script is only logged.
  .ignoring (runIfSet host .postSuccess options.postSuccessScript
    (scriptEnv context run [("AMBER_HOOK", "post-success"), ("AMBER_STATUS", "success"),
      ("AMBER_SNAPSHOT_ID", snapshot.getD "")]))
  return snapshot

/-- What a local backup did and recorded. -/
structure LocalOutcome where
  commands : List Command
  status : RunStatus
  /-- The status of the prune's own run, where there is one. -/
  prune : Option RunStatus
  error : Option String := none
  deriving DecidableEq, Repr

/-- The prune of a recorded backup, an activity of its own. -/
def pruneLocally (host : Host) (commands : List Command) : LocalOutcome :=
  match (ResticService.prune host).run commands with
  | (.ok _, commands) => { commands, status := .success, prune := some .success }
  | (.error _, commands) => { commands, status := .success, prune := some .failed }

/-- `executeLocal`, for a run whose cancel is or is not found when it fails. -/
def executeLocal (host : Host) (run : Uuid) (context : RunContext) (aborted : Bool) :
    LocalOutcome :=
  match (backUpLocally host run context).run [] with
  | (.ok _, commands) =>
      if wantsPrune context.options then pruneLocally host commands
      else { commands, status := .success, prune := none }
  | (.error err, commands) =>
      let script := runIfSet host .postFailure context.options.postFailureScript
        (scriptEnv context run [("AMBER_HOOK", "post-failure"), ("AMBER_STATUS", "failed"),
          ("AMBER_ERROR", err)])
      { commands := if aborted then commands else (script.run commands).2
        status := if aborted then .cancelled else .failed
        prune := none
        error := some err }

end AmberBackup
