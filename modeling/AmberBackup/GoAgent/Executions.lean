import AmberBackup.GoAgent.Main

/-! # What the execution of a task leaves behind

Every part of a task extends the trace by the commands it runs and the lines it logs.
The functions here give these extensions, and the result, from the task and the host
alone; `runBackup_run` is the execution of a whole backup.
-/

namespace AmberBackup

/-- The trace with further commands and lines. -/
def Trace.extend (trace : Trace) (commands : List Command) (lines : List String) : Trace where
  commands := trace.commands ++ commands
  log := trace.log ++ lines

@[simp] theorem Trace.extend_commands (trace : Trace) (commands : List Command)
    (lines : List String) : (trace.extend commands lines).commands = trace.commands ++ commands :=
  rfl

@[simp] theorem Trace.extend_log (trace : Trace) (commands : List Command)
    (lines : List String) : (trace.extend commands lines).log = trace.log ++ lines := rfl

@[simp] theorem Trace.extend_extend (trace : Trace) (commands more : List Command)
    (lines further : List String) :
    (trace.extend commands lines).extend more further =
      trace.extend (commands ++ more) (lines ++ further) := by
  simp only [Trace.extend, List.append_assoc]

@[simp] theorem Trace.extend_nil (trace : Trace) : trace.extend [] [] = trace := by
  simp only [Trace.extend, List.append_nil]

namespace GoAgent

variable {host : Host} {machine : Machine} {ctx : Context} {task : Task} {trace : Trace}

theorem run_bind {α β : Type} (first : Run α) (next : α → Run β) :
    (first >>= next).run trace = (next (first.run trace).1).run (first.run trace).2 := rfl

theorem run_pure {α : Type} (value : α) : (pure value : Run α).run trace = (value, trace) := rfl

theorem appendLog_run (line : String) :
    (appendLog line).run trace = ((), trace.extend [] [line]) := by
  rw [Trace.extend, List.append_nil]
  rfl

theorem appendLines_run (lines : List String) :
    (appendLines lines).run trace = ((), trace.extend [] lines) := by
  rw [Trace.extend, List.append_nil]
  rfl

theorem logged_run : logged.run trace = (logText trace.log, trace) := rfl

theorem restic_run (step : ResticStep) (args : List String) :
    (restic host step args).run trace =
      (host.restic step, trace.extend [.restic args] []) := by
  rw [Trace.extend, List.append_nil]
  rfl

/-! ## Scripts -/

/-- What a script prints, trimmed. -/
def outputLines (host : Host) (hook : Hook) : List String :=
  let output := trimSpace (host.script hook).output
  if output = "" then [] else [output]

def hookCommands (path : String) (env : List (String × String)) : List Command :=
  if path = "" then [] else [.script path env]

def hookLines (host : Host) (hook : Hook) (path : String) : List String :=
  if path = "" then []
  else ("[" ++ hook.text ++ "-script] " ++ path) :: outputLines host hook

def hookError (host : Host) (hook : Hook) (path : String) : Option String :=
  if path = "" then none else (host.script hook).err

/-- The lines of a script whose failure is only logged. -/
def bestEffortLines (host : Host) (hook : Hook) (path : String) : List String :=
  hookLines host hook path ++
    ((hookError host hook path).map fun err => "[" ++ hook.text ++ "-script] " ++ err).toList

theorem runScriptLogged_run (hook : Hook) (path : String) (env : List (String × String)) :
    (runScriptLogged host hook path env).run trace =
      ((host.script hook).err, trace.extend [.script path env] (outputLines host hook)) := by
  rfl

theorem runHook_run (hook : Hook) (path : String) (env : List (String × String)) :
    (runHook host hook path env).run trace =
      (hookError host hook path,
        trace.extend (hookCommands path env) (hookLines host hook path)) := by
  unfold runHook hookError hookCommands hookLines
  split
  · rw [run_pure, Trace.extend_nil]
  · rw [run_bind, appendLog_run, runScriptLogged_run, Trace.extend_extend]
    rfl

theorem runBestEffort_run (hook : Hook) (path : String) (env : List (String × String)) :
    (runBestEffort host hook path env).run trace =
      ((), trace.extend (hookCommands path env) (bestEffortLines host hook path)) := by
  unfold runBestEffort bestEffortLines
  rw [run_bind, runHook_run]
  cases hookError host hook path with
  | none =>
      change ((), _) = _
      rw [Option.map_none, Option.toList_none, List.append_nil]
  | some err =>
      change (appendLog _).run _ = _
      rw [appendLog_run, Trace.extend_extend, List.append_nil]
      rfl

/-! ## Failed and cancelled backups -/

/-- `AMBER_STATUS` of the on-failure script. -/
def failureStatus (ctx : Context) (moment : Moment) : String :=
  if ctx.err moment then "cancelled" else "failed"

def failureMessage (ctx : Context) (moment : Moment) (msg : String) : String :=
  if ctx.err moment then "cancelled on the server" else msg

/-- The on-failure script, as it is run for a backup that fails with the message. -/
def failureCommands (ctx : Context) (moment : Moment) (task : Task) (msg : String) :
    List Command :=
  hookCommands (task.hookScript .postFailure)
    (scriptEnv task .postFailure (failureStatus ctx moment) "" (failureMessage ctx moment msg))

def failureLines (host : Host) (task : Task) : List String :=
  bestEffortLines host .postFailure (task.hookScript .postFailure)

/-- The result of a backup that fails with the message. -/
def failureResult (ctx : Context) (moment : Moment) (msg log : String) : TaskResult :=
  if ctx.err moment then cancelTask log else failTask msg log

theorem handleFailure_run (moment : Moment) (msg : String) :
    (handleFailure host ctx moment task msg).run trace =
      (failureResult ctx moment msg (logText (trace.log ++ failureLines host task)),
        trace.extend (failureCommands ctx moment task msg) (failureLines host task)) := by
  unfold handleFailure failureCommands failureLines failureResult failureStatus failureMessage
  rw [run_bind, runBestEffort_run]
  dsimp only
  split <;> rfl

/-! ## The parts of a backup -/

/-- Why the repository is not initialized, if it is not. -/
def initError (host : Host) : Option String :=
  match (host.restic .catConfig).ending with
  | .error err => some err
  | .ok code =>
      if code = 0 then none
      else
        match (host.restic .init).ending with
        | .error err => some err
        | .ok code => if code = 0 then none else some "restic init failed"

/-- The repository is read, and initialized where that fails. -/
def initCommands (host : Host) : List Command :=
  .restic ["cat", "config"] ::
    match (host.restic .catConfig).ending with
    | .error _ => []
    | .ok code => if code = 0 then [] else [.restic ["init"]]

theorem ensureInitialized_run :
    (ensureInitialized host).run trace =
      (initError host, trace.extend (initCommands host) []) := by
  unfold ensureInitialized initError initCommands
  rw [run_bind, restic_run]
  dsimp only
  cases (host.restic .catConfig).ending with
  | error err => rfl
  | ok code =>
      dsimp only
      split
      · rfl
      · rw [run_bind, restic_run, Trace.extend_extend]
        dsimp only
        cases (host.restic .init).ending with
        | error err => rfl
        | ok code => rfl

/-- The prune as it is reported. -/
def pruneResult (host : Host) (machine : Machine) : PruneResult where
  status := if succeeded (host.restic .prune) then "success" else "failed"
  startedAt := machine.pruneStarted
  finishedAt := machine.pruneFinished
  error := if succeeded (host.restic .prune) then "" else exited "prune" (host.restic .prune).ending
  log := logText (host.restic .prune).lines

theorem runPrune_run :
    (runPrune host machine).run trace =
      (pruneResult host machine, trace.extend [.restic ["prune"]] []) := by
  unfold runPrune
  rw [run_bind, restic_run]
  rfl

/-- The retention that the backup applies, where it has one. -/
def appliedRetention (task : Task) : Option Retention :=
  if hasRetention task.retention then task.retention else none

/-- The forget is done and the retention asks for a prune. -/
def pruned (host : Host) (retention : Retention) : Bool :=
  succeeded (host.restic .forget) && retention.prune

def retentionCommands (host : Host) (task : Task) : List Command :=
  match appliedRetention task with
  | none => []
  | some retention =>
      .restic (forgetArgs retention) :: if pruned host retention then [.restic ["prune"]] else []

def retentionLines (host : Host) (task : Task) : List String :=
  match appliedRetention task with
  | none => []
  | some _ =>
      let forget := host.restic .forget
      forget.lines ++ if succeeded forget then [] else [forgetFailed forget.ending]

def retentionPrune (host : Host) (machine : Machine) (task : Task) : Option PruneResult :=
  match appliedRetention task with
  | none => none
  | some retention => if pruned host retention then some (pruneResult host machine) else none

theorem runRetention_run :
    (runRetention host machine task).run trace =
      (retentionPrune host machine task,
        trace.extend (retentionCommands host task) (retentionLines host task)) := by
  unfold runRetention retentionPrune retentionCommands retentionLines appliedRetention pruned
  cases task.retention with
  | none =>
      rw [run_pure]
      exact congrArg _ (Trace.extend_nil trace).symm
  | some retention =>
      dsimp only
      cases applies : hasRetention (some retention) with
      | false =>
          rw [if_neg Bool.false_ne_true, if_neg Bool.false_ne_true, run_pure]
          exact congrArg _ (Trace.extend_nil trace).symm
      | true =>
          rw [if_pos rfl, if_pos rfl, run_bind, restic_run, run_bind, appendLines_run,
            Trace.extend_extend]
          dsimp only
          cases succeeded (host.restic .forget) with
          | false =>
              rw [if_neg Bool.false_ne_true, run_bind, appendLog_run, Trace.extend_extend]
              rfl
          | true =>
              rw [if_pos rfl]
              cases retention.prune with
              | false =>
                  rw [if_neg Bool.false_ne_true, run_pure, if_pos rfl, List.append_nil,
                    List.nil_append, List.append_nil]
                  rfl
              | true =>
                  rw [if_pos rfl, run_bind, runPrune_run, Trace.extend_extend, run_pure,
                    List.nil_append]
                  rfl

/-- The repository figures a host gives, or why it gives none. -/
def statsReading (host : Host) (machine : Machine) : Except String RepoStats :=
  let run := host.restic .stats
  let stats : Message := run.messages.getLast?.join
  if succeeded run && stats.isSome then .ok (repoStatsFrom machine.beyond stats)
  else
    let msg := trimSpace (logText run.lines)
    .error (if msg = "" then exited "stats" run.ending else msg)

theorem readRepoStats_run :
    (readRepoStats host machine).run trace =
      (statsReading host machine, trace.extend [.restic statsArgs] []) := by
  unfold readRepoStats statsReading
  rw [run_bind, restic_run]
  dsimp only
  split <;> rfl

/-! ## A whole backup -/

/-- Where a backup fails or is stopped, with the message; none where it completes. -/
def backupFailure (host : Host) (ctx : Context) (task : Task) : Option (Moment × String) :=
  match hookError host .pre (task.hookScript .pre) with
  | some err => some (.preScript, "pre-script: " ++ err)
  | none =>
      if ctx.err .preScript then some (.preScript, "")
      else
        match initError host with
        | some err => some (.initialized, err)
        | none =>
            if ctx.err .backup then some (.backup, "")
            else if !backedUp (host.restic .backup) then
              some (.reported, exited "backup" (host.restic .backup).ending)
            else if ctx.err .retention then some (.retention, "")
            else none

/-- The trace of the pre-script. -/
def startedTrace (host : Host) (task : Task) : Trace where
  commands := hookCommands (task.hookScript .pre) (scriptEnv task .pre "" "" "")
  log := hookLines host .pre (task.hookScript .pre)

/-- The trace up to the end of restic's backup. -/
def backedUpTrace (host : Host) (task : Task) : Trace :=
  (startedTrace host task).extend (initCommands host ++ [.restic (backupArgs task)])
    (host.restic .backup).lines

/-- The trace up to the end of the retention. -/
def retainedTrace (host : Host) (task : Task) : Trace :=
  (backedUpTrace host task).extend (retentionCommands host task) (retentionLines host task)

def cancelNote (host : Host) : String :=
  "backup finished before the cancel took effect: snapshot " ++
    snapshotId (host.restic .backup).messages

/-- The trace of a backup up to the script that closes it. -/
def backupTrace (host : Host) (ctx : Context) (task : Task) : Trace :=
  match backupFailure host ctx task with
  | some (.initialized, _) => (startedTrace host task).extend (initCommands host) []
  | some (.backup, _) =>
      (backedUpTrace host task).extend []
        (if snapshotId (host.restic .backup).messages ≠ "" then [cancelNote host] else [])
  | some (.reported, _) => backedUpTrace host task
  | some (.retention, _) => (retainedTrace host task).extend [] [cancelNote host]
  | some (_, _) => startedTrace host task
  | none => (retainedTrace host task).extend [.restic statsArgs] []

/-- The result of a backup that completes, but for its log. -/
def backupResult (host : Host) (machine : Machine) (task : Task) : TaskResult :=
  { status := "success"
    snapshotId := snapshotId (host.restic .backup).messages
    stats := statsOf summaryToStats (host.restic .backup).messages
    prune := retentionPrune host machine task : TaskResult }.withStats (statsReading host machine)

def successLines (host : Host) (task : Task) : List String :=
  bestEffortLines host .postSuccess (task.hookScript .postSuccess)

def successCommands (host : Host) (task : Task) : List Command :=
  hookCommands (task.hookScript .postSuccess)
    (scriptEnv task .postSuccess "success" (snapshotId (host.restic .backup).messages) "")

theorem finishBackup_run (result : TaskResult) :
    (finishBackup host machine task result).run trace =
      ({ result.withStats (statsReading host machine) with
          log := logText (trace.log ++ successLines host task) },
        trace.extend
          (.restic statsArgs :: hookCommands (task.hookScript .postSuccess)
            (scriptEnv task .postSuccess "success" result.snapshotId ""))
          (successLines host task)) := by
  unfold finishBackup successLines
  rw [run_bind, readRepoStats_run, run_bind, runBestEffort_run, Trace.extend_extend]
  rfl

/-- What a backup posts and leaves behind, given how it ends. -/
def backupRun (host : Host) (machine : Machine) (ctx : Context) (task : Task) :
    TaskResult × Trace :=
  let trace := backupTrace host ctx task
  match backupFailure host ctx task with
  | some (moment, msg) =>
      (failureResult ctx moment msg (logText (trace.log ++ failureLines host task)),
        trace.extend (failureCommands ctx moment task msg) (failureLines host task))
  | none =>
      ({ backupResult host machine task with
          log := logText (trace.log ++ successLines host task) },
        trace.extend (successCommands host task) (successLines host task))

theorem backupFailure_of_pre {err : String}
    (fails : hookError host .pre (task.hookScript .pre) = some err) :
    backupFailure host ctx task = some (.preScript, "pre-script: " ++ err) := by
  unfold backupFailure
  rw [fails]

theorem retainBackup_run (start : Trace) :
    (retainBackup host machine ctx task (host.restic .backup)).run start =
      let retained := start.extend (retentionCommands host task) (retentionLines host task)
      if ctx.err .retention then
        let noted := retained.extend [] [cancelNote host]
        (failureResult ctx .retention "" (logText (noted.log ++ failureLines host task)),
          noted.extend (failureCommands ctx .retention task "") (failureLines host task))
      else
        ({ backupResult host machine task with
            log := logText (retained.log ++ successLines host task) },
          retained.extend (.restic statsArgs :: successCommands host task)
            (successLines host task)) := by
  unfold retainBackup
  rw [run_bind, runRetention_run]
  dsimp only
  split
  · rw [run_bind, appendLog_run, handleFailure_run]
    rfl
  · rw [finishBackup_run]
    rfl

/-- Where a backup fails that gets to restic's backup. -/
theorem backupFailure_of_ready (passed : hookError host .pre (task.hookScript .pre) = none)
    (uncancelled : ctx.err .preScript = false) (ready : initError host = none) :
    backupFailure host ctx task =
      if ctx.err .backup then some (.backup, "")
      else if !backedUp (host.restic .backup) then
        some (.reported, exited "backup" (host.restic .backup).ending)
      else if ctx.err .retention then some (.retention, "")
      else none := by
  unfold backupFailure
  rw [passed, uncancelled, ready]
  rfl

/-- The part of a backup that follows the initialization. -/
theorem backUp_run (passed : hookError host .pre (task.hookScript .pre) = none)
    (uncancelled : ctx.err .preScript = false) (ready : initError host = none) :
    (backUp host machine ctx task).run
        ((startedTrace host task).extend (initCommands host) []) =
      backupRun host machine ctx task := by
  have outcome := backupFailure_of_ready passed uncancelled ready
  unfold backUp
  rw [run_bind, restic_run, run_bind, appendLines_run]
  simp only [Trace.extend_extend, List.append_nil, List.nil_append]
  change StateT.run _ (backedUpTrace host task) = _
  unfold backupRun backupTrace
  rw [outcome]
  cases ctx.err .backup with
  | true =>
      simp only [if_true]
      split
      · rw [run_bind, appendLog_run, handleFailure_run]
        rfl
      · rw [handleFailure_run, Trace.extend_nil]
  | false =>
      simp only [Bool.false_eq_true, if_false]
      cases backedUp (host.restic .backup) with
      | false =>
          simp only [Bool.false_eq_true, if_false, Bool.not_false, if_true]
          rw [handleFailure_run]
      | true =>
          simp only [if_true, Bool.not_true, Bool.false_eq_true, if_false]
          rw [retainBackup_run]
          split
          · rfl
          · simp only [retainedTrace, Trace.extend_extend, Trace.extend_log, List.append_nil,
              List.append_assoc, List.singleton_append]

/-- **Execution of a backup.** A backup posts the result and leaves the trace that
`backupRun` gives. -/
theorem runBackup_run :
    (runBackup host machine ctx task).run {} = backupRun host machine ctx task := by
  unfold runBackup
  rw [run_bind, runHook_run]
  change StateT.run (match hookError host .pre (task.hookScript .pre) with
    | some err => _
    | none => _) (startedTrace host task) = _
  cases pre : hookError host .pre (task.hookScript .pre) with
  | some err =>
      dsimp only
      rw [handleFailure_run]
      unfold backupRun backupTrace
      rw [backupFailure_of_pre pre]
  | none =>
      dsimp only
      cases cancelled : ctx.err .preScript with
      | true =>
          rw [if_pos rfl, handleFailure_run]
          unfold backupRun backupTrace backupFailure
          rw [pre, cancelled]
          rfl
      | false =>
          rw [if_neg Bool.false_ne_true, run_bind, ensureInitialized_run]
          dsimp only
          cases ready : initError host with
          | some err =>
              dsimp only
              rw [handleFailure_run]
              unfold backupRun backupTrace backupFailure
              rw [pre, cancelled, ready]
              rfl
          | none => exact backUp_run pre cancelled ready

end GoAgent

end AmberBackup
