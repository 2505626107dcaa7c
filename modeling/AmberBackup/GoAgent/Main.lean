import AmberBackup.GoAgent.Restic

/-! # Task execution on the agent

How the agent runs the tasks it is handed and what it posts for each of them. A task ends
in exactly one result, whatever restic and the scripts do (`runTask` is total); the log of
a result is the text of all lines written to the log while the task ran.
-/

namespace AmberBackup.GoAgent

/-- The points at which a task asks whether it was cancelled, in their order. -/
inductive Moment where
  | beforeStart | preScript | initialized | backup | reported | retention
  deriving DecidableEq, Repr

def Moment.rank : Moment → Nat
  | .beforeStart => 0
  | .preScript => 1
  | .initialized => 2
  | .backup => 3
  | .reported => 4
  | .retention => 5

/-- The context of a task: the first moment at which it is found cancelled, if any. -/
structure Context where
  cancelled : Option Moment := none

/-- `ctx.Err() != nil`. -/
def Context.err (ctx : Context) (moment : Moment) : Bool :=
  ctx.cancelled.any fun first => first.rank ≤ moment.rank

/-- The clock of the agent as RFC 3339 texts, and its conversion of numbers out of range. -/
structure Machine where
  pruneStarted : String
  pruneFinished : String
  beyond : Rat → Int := fun _ => 0

abbrev Run := StateM Trace

/-- The content of a log buffer. -/
def logText : List String → String
  | [] => ""
  | line :: rest => line ++ "\n" ++ logText rest

def appendLog (line : String) : Run Unit :=
  modify fun trace => { trace with log := trace.log ++ [line] }

def appendLines (lines : List String) : Run Unit :=
  modify fun trace => { trace with log := trace.log ++ lines }

def logged : Run String := do return logText (← get).log

/-- One restic command; its lines go wherever the caller puts them. -/
def restic (host : Host) (step : ResticStep) (args : List String) : Run ResticRun := do
  modify (Trace.execute · (.restic args))
  return host.restic step

/-- `runScriptLogged`: the error of the script, if it failed. -/
def runScriptLogged (host : Host) (hook : Hook) (path : String)
    (env : List (String × String)) : Run (Option String) := do
  modify (Trace.execute · (.script path env))
  let output := trimSpace (host.script hook).output
  appendLines (if output = "" then [] else [output])
  return (host.script hook).err

/-- An entry of the environment that is left out where its value is empty. -/
def setEntry (name value : String) : List (String × String) :=
  if value = "" then [] else [(name, value)]

def scriptEnv (task : Task) (hook : Hook) (status snapshotId errMsg : String) :
    List (String × String) :=
  [("AMBER_HOOK", hook.text),
    ("AMBER_JOB_ID", (task.jobId.map toString).getD ""),
    ("AMBER_JOB_NAME", task.jobName),
    ("AMBER_RUN_ID", toString task.taskId),
    ("AMBER_PATHS", String.intercalate "\n" task.paths)] ++
    setEntry "AMBER_STATUS" status ++
    setEntry "AMBER_SNAPSHOT_ID" snapshotId ++
    setEntry "AMBER_ERROR" errMsg

def failTask (msg logStr : String) : TaskResult where
  status := "failed"
  error := msg
  log := logStr

def cancelTask (logStr : String) : TaskResult where
  status := "cancelled"
  log := logStr

/-- The error of a command that did not end well, as `fmt` prints its code and error. -/
def exited (what : String) : Except String Int → String
  | .ok code => what ++ " exited " ++ toString code ++ ": <nil>"
  | .error err => what ++ " exited -1: " ++ err

def forgetFailed : Except String Int → String
  | .ok code => "forget failed: code=" ++ toString code ++ " err=<nil>"
  | .error err => "forget failed: code=-1 err=" ++ err

/-- Whether a command ran to its end with exit code 0. -/
def succeeded (run : ResticRun) : Bool :=
  match run.ending with
  | .ok code => code = 0
  | .error _ => false

/-- Whether restic took a snapshot: exit code 3 means that some files could not be read. -/
def backedUp (run : ResticRun) : Bool :=
  match run.ending with
  | .ok code => code = 0 || code = 3
  | .error _ => false

/-- A hook of the job, on the log with what it prints; the error of the script, if any. -/
def runHook (host : Host) (hook : Hook) (path : String) (env : List (String × String)) :
    Run (Option String) :=
  if path = "" then return none
  else do
    appendLog ("[" ++ hook.text ++ "-script] " ++ path)
    runScriptLogged host hook path env

/-- A script whose failure is only logged. -/
def runBestEffort (host : Host) (hook : Hook) (path : String) (env : List (String × String)) :
    Run Unit := do
  match ← runHook host hook path env with
  | none => return ()
  | some err => appendLog ("[" ++ hook.text ++ "-script] " ++ err)

/-- The script of a hook, empty where the task has none. -/
def Task.hookScript (task : Task) : Hook → String
  | .pre => (task.options.map ResticOptions.preScript).getD ""
  | .postSuccess => (task.options.map ResticOptions.postSuccessScript).getD ""
  | .postFailure => (task.options.map ResticOptions.postFailureScript).getD ""

def Task.retention (task : Task) : Option Retention := task.options.bind ResticOptions.retention

/-- Runs the on-failure script and reports the run as failed, or as cancelled once the
operator stopped it. -/
def handleFailure (host : Host) (ctx : Context) (moment : Moment) (task : Task) (msg : String) :
    Run TaskResult := do
  let status := if ctx.err moment then "cancelled" else "failed"
  let msg := if ctx.err moment then "cancelled on the server" else msg
  runBestEffort host .postFailure (task.hookScript .postFailure)
    (scriptEnv task .postFailure status "" msg)
  if ctx.err moment then return cancelTask (← logged)
  else return failTask msg (← logged)

/-- The error of a repository that is neither readable nor could be initialized. -/
def ensureInitialized (host : Host) : Run (Option String) := do
  let cat ← restic host .catConfig ["cat", "config"]
  match cat.ending with
  | .error err => return some err
  | .ok code =>
      if code = 0 then return none
      else
        let init ← restic host .init ["init"]
        match init.ending with
        | .error err => return some err
        | .ok code => return if code = 0 then none else some "restic init failed"

/-- The last message of the type, if there is one. -/
def lastMessage (type : String) (messages : List Message) : Option Message :=
  (messages.filter fun message =>
    match message.field "message_type" with
    | some (.text text) => text = type
    | _ => false).getLast?

/-- `result.SnapshotID` once the summaries of the backup are read. -/
def snapshotId (messages : List Message) : String :=
  match (lastMessage "summary" messages).bind fun message => message.field "snapshot_id" with
  | some (.text text) => text
  | _ => ""

/-- Fields of a message under the names the server knows them by. -/
def renamed (names : List (String × String)) (message : Message) : List (String × Json) :=
  names.map fun (name, source) => (name, (message.field source).getD .null)

def summaryToStats (message : Message) : List (String × Json) :=
  renamed [("filesNew", "files_new"), ("filesChanged", "files_changed"),
    ("filesUnmodified", "files_unmodified"), ("dataAdded", "data_added"),
    ("totalBytesProcessed", "total_bytes_processed"),
    ("totalFilesProcessed", "total_files_processed"),
    ("totalDuration", "total_duration")] message ++ [("percentDone", .number 1)]

def restoreSummaryToStats (message : Message) : List (String × Json) :=
  let files := Json.number (number message "total_files")
  let bytes := Json.number (number message "total_bytes")
  [("totalFilesProcessed", files), ("totalBytesProcessed", bytes), ("percentDone", .number 1),
    ("bytesDone", bytes), ("totalBytes", bytes), ("filesDone", files), ("totalFiles", files)]

def statsOf (summary : Message → List (String × Json)) (messages : List Message) :
    List (String × Json) :=
  ((lastMessage "summary" messages).map summary).getD []

/-- Reclaims unreferenced storage, with a log of its own. -/
def runPrune (host : Host) (machine : Machine) : Run PruneResult := do
  let run ← restic host .prune ["prune"]
  return {
    status := if succeeded run then "success" else "failed"
    startedAt := machine.pruneStarted
    finishedAt := machine.pruneFinished
    error := if succeeded run then "" else exited "prune" run.ending
    log := logText run.lines }

/-- The forget of the retention, and the prune it may ask for. -/
def runRetention (host : Host) (machine : Machine) (task : Task) : Run (Option PruneResult) :=
  match task.retention with
  | none => return none
  | some retention =>
      if hasRetention (some retention) then do
        let forget ← restic host .forget (forgetArgs retention)
        appendLines forget.lines
        if succeeded forget then
          if retention.prune then return some (← runPrune host machine) else return none
        else
          appendLog (forgetFailed forget.ending)
          return none
      else return none

/-- The repository figures of the last message, or why there are none. -/
def readRepoStats (host : Host) (machine : Machine) :
    Run (Except String RepoStats) := do
  let run ← restic host .stats statsArgs
  let stats : Message := run.messages.getLast?.join
  if succeeded run && stats.isSome then return .ok (repoStatsFrom machine.beyond stats)
  else
    let msg := trimSpace (logText run.lines)
    return .error (if msg = "" then exited "stats" run.ending else msg)

def TaskResult.withStats (result : TaskResult) : Except String RepoStats → TaskResult
  | .ok stats => { result with repoStats := some stats }
  | .error msg => { result with repoStatsError := msg }

/-- What follows a backup whose retention is done. -/
def finishBackup (host : Host) (machine : Machine) (task : Task) (result : TaskResult) :
    Run TaskResult := do
  let stats ← readRepoStats host machine
  runBestEffort host .postSuccess (task.hookScript .postSuccess)
    (scriptEnv task .postSuccess "success" result.snapshotId "")
  return { result.withStats stats with log := ← logged }

/-- What follows a backup that ended without a cancel, with the ending of restic. -/
def retainBackup (host : Host) (machine : Machine) (ctx : Context) (task : Task)
    (run : ResticRun) : Run TaskResult := do
  let prune ← runRetention host machine task
  let snapshot := snapshotId run.messages
  if ctx.err .retention then
    appendLog ("backup finished before the cancel took effect: snapshot " ++ snapshot)
    handleFailure host ctx .retention task ""
  else
    finishBackup host machine task
      { status := "success"
        snapshotId := snapshot
        stats := statsOf summaryToStats run.messages
        prune }

/-- The backup itself, in an initialized repository. -/
def backUp (host : Host) (machine : Machine) (ctx : Context) (task : Task) :
    Run TaskResult := do
  let run ← restic host .backup (backupArgs task)
  appendLines run.lines
  let snapshot := snapshotId run.messages
  if ctx.err .backup then
    if snapshot ≠ "" then
      appendLog ("backup finished before the cancel took effect: snapshot " ++ snapshot)
    handleFailure host ctx .backup task ""
  else if backedUp run then retainBackup host machine ctx task run
  else handleFailure host ctx .reported task (exited "backup" run.ending)

def runBackup (host : Host) (machine : Machine) (ctx : Context) (task : Task) :
    Run TaskResult := do
  match ← runHook host .pre (task.hookScript .pre) (scriptEnv task .pre "" "" "") with
  | some err => handleFailure host ctx .preScript task ("pre-script: " ++ err)
  | none =>
      if ctx.err .preScript then handleFailure host ctx .preScript task ""
      else
        match ← ensureInitialized host with
        | some err => handleFailure host ctx .initialized task err
        | none => backUp host machine ctx task

/-- What is posted for a restore, given the log of the task. -/
def restoreResult (ctx : Context) (run : ResticRun) (log : String) : TaskResult :=
  if ctx.err .backup then cancelTask log
  else if succeeded run then
    { status := "success", stats := statsOf restoreSummaryToStats run.messages, log }
  else failTask (exited "restore" run.ending) log

def runRestore (host : Host) (ctx : Context) (task : Task) : Run TaskResult := do
  let run ← restic host .restore (restoreArgs task)
  appendLines run.lines
  return restoreResult ctx run (← logged)

/-- The error of a check that found damage. -/
def damagedError : String :=
  "Integrity errors found — the log lists the damaged data and how to repair it"

/-- What is posted for a check. Any other failure than found damage means that the check
could not run. -/
def checkResult (ctx : Context) (run : ResticRun) (log : String) : TaskResult :=
  if ctx.err .backup then cancelTask log
  else if succeeded run then { status := "success", log }
  else if run.ending.isOk && isDamagedCheckOutput log then
    { status := "failed", damaged := true, error := damagedError, log }
  else failTask (exited "check" run.ending) log

def runCheck (host : Host) (ctx : Context) (task : Task) : Run TaskResult := do
  let run ← restic host .check (checkArgs task)
  appendLines run.lines
  return checkResult ctx run (← logged)

def runStats (host : Host) (machine : Machine) : Run TaskResult := do
  match ← readRepoStats host machine with
  | .ok stats => return { status := "success", repoStats := some stats }
  | .error msg => return { status := "failed", repoStatsError := msg, error := msg }

/-- A task cancelled while it waited behind another one never starts; a `stats` task has
no run to cancel. -/
def runTask (host : Host) (machine : Machine) (ctx : Context) (task : Task) : Run TaskResult :=
  match task.type with
  | .stats => runStats host machine
  | .backup =>
      if ctx.err .beforeStart then return cancelTask "Cancelled before the agent started it.\n"
      else runBackup host machine ctx task
  | .restore =>
      if ctx.err .beforeStart then return cancelTask "Cancelled before the agent started it.\n"
      else runRestore host ctx task
  | .check =>
      if ctx.err .beforeStart then return cancelTask "Cancelled before the agent started it.\n"
      else runCheck host ctx task

end AmberBackup.GoAgent
