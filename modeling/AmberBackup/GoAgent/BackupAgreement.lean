import AmberBackup.Jobs.LocalBackupRuns

/-! # Local and agent backups

The server's `executeLocal` and the agent's `runBackup` are written to run the same
backup. They are compared on what they run, up to the order of the prune and the
post-success script, and on what is recorded. `backup_protocols_agree_iff` says for which
options and outcomes they agree, and `forget_failure_disagrees` shows that they do not
always.
-/

namespace AmberBackup

open GoAgent (hookCommands hookError initError initCommands backedUp succeeded)

/-- What a backup is compared on. -/
structure Protocol where
  /-- The scripts, each with its `AMBER_STATUS`. -/
  scripts : List (String × Option String)
  /-- The `init`, `backup`, `forget` and `prune` commands. -/
  restic : List (List String)
  status : RunStatus
  prune : Option RunStatus
  deriving DecidableEq, Repr

def Command.script? : Command → Option (String × Option String)
  | .script path env => some (path, env.lookup "AMBER_STATUS")
  | .restic _ => none

def Command.restic? : Command → Option (List String)
  | .restic args =>
      if ["init", "backup", "forget", "prune"].contains (args.headD "") then some args else none
  | .script _ _ => none

def protocolOf (commands : List Command) (status : RunStatus) (prune : Option RunStatus) :
    Protocol where
  scripts := commands.filterMap Command.script?
  restic := commands.filterMap Command.restic?
  status
  prune

def LocalOutcome.protocol (outcome : LocalOutcome) : Protocol :=
  protocolOf outcome.commands outcome.status outcome.prune

namespace GoAgent

/-- The status the server records for a posted one. -/
def recordedStatus (status : String) : RunStatus :=
  if status = "success" then .success
  else if status = "cancelled" then .cancelled
  else .failed

/-- What a backup on the agent is compared on. -/
def protocol (outcome : TaskResult × Trace) : Protocol :=
  protocolOf outcome.2.commands (recordedStatus outcome.1.status)
    (outcome.1.prune.map fun prune => recordedStatus prune.status)

end GoAgent

/-- The job of a queued run as a local execution reads it. -/
def QueuedRun.context (queued : QueuedRun) : RunContext where
  jobId := queued.run.jobId
  jobName := queued.job.name
  trigger := queued.run.trigger
  repositoryId := queued.job.repositoryId
  ref := queued.repository.ref
  options := queued.job.resticOptions
  paths := queued.job.paths

/-- The context is the one `executeLocal` loads for a run of a local job. -/
theorem loadRunContext_queued {db : Db} {queued : QueuedRun}
    (run : db.jobRuns.get? queued.id = some queued.run)
    (job : db.backupJobs.get? queued.run.jobId = some queued.job)
    (repository : db.repositories.get? queued.job.repositoryId = some queued.repository)
    (onServer : queued.job.location = .«local») :
    loadRunContext db queued.id = some queued.context := by
  unfold loadRunContext
  rw [run]
  simp only [Option.bind_some, job, joined, repository, Option.map_some]
  rw [if_pos onServer]
  rfl

/-! ## Protocols of the two executions -/

/-- The protocol's entry for a script, none where it is not set. -/
def scriptEntry (path : String) (status : Option String) : List (String × Option String) :=
  if path = "" then [] else [(path, status)]

theorem script_hookCommands (path : String) (env : List (String × String)) :
    (hookCommands path env).filterMap Command.script? =
      scriptEntry path (env.lookup "AMBER_STATUS") := by
  unfold hookCommands scriptEntry
  split <;> rfl

theorem restic_hookCommands (path : String) (env : List (String × String)) :
    (hookCommands path env).filterMap Command.restic? = [] := by
  unfold hookCommands
  split <;> rfl

theorem script_initCommands (host : Host) :
    (initCommands host).filterMap Command.script? = [] := by
  unfold initCommands
  cases (host.restic .catConfig).ending with
  | error err => rfl
  | ok code =>
      dsimp only
      split <;> rfl

/-- The entries of the initialization: `init`, where it is run. -/
def initEntries (host : Host) : List (List String) := (initCommands host).filterMap Command.restic?

theorem restic_backupArgs (paths : List String) (options : ResticOptions) :
    Command.restic? (.restic (ResticService.backupArgs paths options)) =
      some (ResticService.backupArgs paths options) := rfl

theorem restic_forgetArgs (retention : Retention) :
    Command.restic? (.restic (ResticService.forgetArgs retention)) =
      some (ResticService.forgetArgs retention) := rfl

theorem restic_agentBackupArgs (task : GoAgent.Task) :
    Command.restic? (.restic (GoAgent.backupArgs task)) = some (GoAgent.backupArgs task) := rfl

theorem restic_agentForgetArgs (retention : GoAgent.Retention) :
    Command.restic? (.restic (GoAgent.forgetArgs retention)) =
      some (GoAgent.forgetArgs retention) := rfl

theorem restic_prune : Command.restic? (.restic ["prune"]) = some ["prune"] := rfl

theorem restic_stats : Command.restic? (.restic GoAgent.statsArgs) = none := rfl

theorem script_restic (args : List String) : Command.script? (.restic args) = none := rfl

theorem status_scriptEnv_pre (context : RunContext) (run : Uuid) :
    (scriptEnv context run [("AMBER_HOOK", "pre")]).lookup "AMBER_STATUS" = none := by
  simp [scriptEnv, List.lookup_cons]

theorem status_scriptEnv (context : RunContext) (run : Uuid) (hook status : String)
    (rest : List (String × String)) :
    (scriptEnv context run (("AMBER_HOOK", hook) :: ("AMBER_STATUS", status) :: rest)).lookup
      "AMBER_STATUS" = some status := by
  simp [scriptEnv, List.lookup_cons]

theorem status_agentScriptEnv (task : GoAgent.Task) (hook : Hook)
    (status snapshotId errMsg : String) (set : status ≠ "") :
    (GoAgent.scriptEnv task hook status snapshotId errMsg).lookup "AMBER_STATUS" =
      some status := by
  simp [GoAgent.scriptEnv, GoAgent.setEntry, set, List.lookup_cons]

theorem status_agentScriptEnv_pre (task : GoAgent.Task) :
    (GoAgent.scriptEnv task .pre "" "" "").lookup "AMBER_STATUS" = none := by
  simp [GoAgent.scriptEnv, GoAgent.setEntry, List.lookup_cons]

section Local

variable {host : Host} {run : Uuid} {context : RunContext} {commands : List Command}

/-- A local backup that fails after the commands. -/
theorem executeLocal_failed {err : String}
    (threw : (backUpLocally host run context).run [] = (.error err, commands)) :
    (executeLocal host run context false).protocol = {
      scripts := commands.filterMap Command.script? ++
        scriptEntry (context.options.postFailureScript.getD "") (some "failed")
      restic := commands.filterMap Command.restic?
      status := .failed
      prune := none } := by
  unfold executeLocal LocalOutcome.protocol protocolOf
  rw [threw]
  simp only [Bool.false_eq_true, if_false, runIfSet_commands, List.filterMap_append,
    script_hookCommands, restic_hookCommands, status_scriptEnv, List.append_nil]

/-- The prune of a local backup. -/
def localPruneEntries (options : ResticOptions) : List (List String) :=
  if wantsPrune options then [["prune"]] else []

def localPruneStatus (host : Host) (options : ResticOptions) : Option RunStatus :=
  if wantsPrune options then
    some (if succeeded (host.restic .prune) then .success else .failed)
  else none

theorem executeLocal_succeeded {snapshot : Option String}
    (returned : (backUpLocally host run context).run [] = (.ok snapshot, commands)) :
    (executeLocal host run context false).protocol = {
      scripts := commands.filterMap Command.script?
      restic := commands.filterMap Command.restic? ++ localPruneEntries context.options
      status := .success
      prune := localPruneStatus host context.options } := by
  unfold executeLocal localPruneEntries localPruneStatus
  rw [returned]
  dsimp only
  cases wantsPrune context.options with
  | false =>
      simp only [Bool.false_eq_true, if_false, LocalOutcome.protocol, protocolOf, List.append_nil]
  | true =>
      simp only [if_true, pruneLocally, prune_eq]
      cases done : succeeded (host.restic .prune) with
      | true =>
          rw [operation_ok (ok_of_succeeded done) (by rfl)]
          simp only [LocalOutcome.protocol, protocolOf, List.filterMap_append,
            List.filterMap_cons, List.filterMap_nil, script_restic, restic_prune,
            List.append_nil, if_true]
      | false =>
          obtain ⟨err, threw⟩ := operation_error (refused_of_not_succeeded done)
          rw [threw]
          simp only [LocalOutcome.protocol, protocolOf, List.filterMap_append,
            List.filterMap_cons, List.filterMap_nil, script_restic, restic_prune,
            List.append_nil, Bool.false_eq_true, if_false]

end Local

section Agent

variable {host : Host} {machine : GoAgent.Machine} {task : GoAgent.Task}

/-- A backup on an agent that fails with nobody having cancelled it. -/
theorem runBackup_failed {moment : GoAgent.Moment} {msg : String} {trace : Trace}
    (failure : GoAgent.backupFailure host {} task = some (moment, msg))
    (left : GoAgent.backupTrace host {} task = trace) :
    GoAgent.protocol ((GoAgent.runBackup host machine {} task).run {}) = {
      scripts := trace.commands.filterMap Command.script? ++
        scriptEntry (task.hookScript .postFailure) (some "failed")
      restic := trace.commands.filterMap Command.restic?
      status := .failed
      prune := none } := by
  rw [GoAgent.runBackup_run]
  unfold GoAgent.backupRun
  rw [failure, left]
  have named : ("failed" : String) ≠ "" := by decide
  have status : GoAgent.failureStatus {} moment = "failed" := rfl
  simp only [GoAgent.protocol, protocolOf, Trace.extend_commands, List.filterMap_append,
    GoAgent.failureCommands, script_hookCommands, restic_hookCommands, List.append_nil, status,
    status_agentScriptEnv _ _ _ _ _ named]
  rfl

/-- A backup on an agent that completes. -/
theorem runBackup_succeeded {trace : Trace}
    (completes : GoAgent.backupFailure host {} task = none)
    (left : GoAgent.backupTrace host {} task = trace) :
    GoAgent.protocol ((GoAgent.runBackup host machine {} task).run {}) = {
      scripts := trace.commands.filterMap Command.script? ++
        scriptEntry (task.hookScript .postSuccess) (some "success")
      restic := trace.commands.filterMap Command.restic?
      status := .success
      prune := (GoAgent.retentionPrune host machine task).map fun prune =>
        GoAgent.recordedStatus prune.status } := by
  rw [GoAgent.runBackup_run]
  unfold GoAgent.backupRun
  rw [completes, left]
  have named : ("success" : String) ≠ "" := by decide
  have kept : (GoAgent.backupResult host machine task).status = "success" ∧
      (GoAgent.backupResult host machine task).prune =
        GoAgent.retentionPrune host machine task := by
    unfold GoAgent.backupResult GoAgent.TaskResult.withStats
    cases GoAgent.statsReading host machine with
    | ok stats => exact ⟨rfl, rfl⟩
    | error msg => exact ⟨rfl, rfl⟩
  simp only [GoAgent.protocol, protocolOf, Trace.extend_commands, List.filterMap_append,
    GoAgent.successCommands, script_hookCommands, restic_hookCommands, List.append_nil,
    status_agentScriptEnv _ _ _ _ _ named, kept.1, kept.2]
  rfl

end Agent

/-! ## Command lines -/

section Arguments

variable {options : ResticOptions} {queued : QueuedRun} {target : ResolvedTarget}

/-- The task that a queued backup is handed out as, as the agent reads it. -/
def agentTask (queued : QueuedRun) (target : ResolvedTarget) : GoAgent.Task :=
  .received (backupTask queued target)

theorem compression_args (mode : Option Compression) :
    (mode.map fun mode => ["--compression", ResticService.compressionText mode]).getD [] =
      texted "--compression" ((mode.map GoAgent.compressionText).getD "") := by
  cases mode with
  | none => rfl
  | some mode => cases mode <;> rfl

theorem flag_set_iff (flag : Option Bool) : flag = some true ↔ flag.getD false = true := by
  cases flag with
  | none => exact ⟨nofun, nofun⟩
  | some flag => exact ⟨fun set => Option.some.inj set, fun set => congrArg some set⟩

/-- The agent's command line in the terms of the job's options. -/
theorem agentBackupArgs_eq (given : queued.job.resticOptions = options) :
    GoAgent.backupArgs (agentTask queued target) =
      ["backup", "--json"] ++
        (repeated "--tag" (options.tags.getD []) ++
          repeated "--exclude" (options.exclude.getD []) ++
          repeated "--iexclude" (options.iexclude.getD []) ++
          (if options.oneFileSystem.getD false then ["--one-file-system"] else []) ++
          (if options.excludeCaches.getD false then ["--exclude-caches"] else []) ++
          texted "--exclude-larger-than" (options.excludeLargerThan.getD "") ++
          texted "--compression" ((options.compression.map GoAgent.compressionText).getD "") ++
          (if options.readConcurrency.getD 0 > 0 then
            ["--read-concurrency", toString (options.readConcurrency.getD 0)]
          else [])) ++
        ["--"] ++ queued.job.paths := by
  subst given
  rfl

/-- The two command lines of a backup differ in the exclude files, which the agent leaves
out, and in a negative read concurrency. -/
theorem backupArgs_agree_iff :
    ResticService.backupArgs queued.job.paths queued.job.resticOptions =
        GoAgent.backupArgs (agentTask queued target) ↔
      queued.job.resticOptions.excludeFile.getD [] = [] ∧
        0 ≤ queued.job.resticOptions.readConcurrency.getD 0 := by
  generalize given : queued.job.resticOptions = options
  rw [agentBackupArgs_eq given]
  unfold ResticService.backupArgs
  rw [compression_args]
  simp only [flag_set_iff]
  generalize options.readConcurrency.getD 0 = concurrency
  generalize options.excludeFile.getD [] = excluded
  constructor
  · intro same
    have sizes := congrArg List.length same
    simp only [List.length_append, List.length_cons, List.length_nil, repeated_length] at sizes
    have concurrent : (if concurrency > 0 then
        ["--read-concurrency", toString concurrency] else []).length ≤
          (if concurrency ≠ 0 then
            ["--read-concurrency", toString concurrency] else []).length := by
      split <;> split <;> simp_all
    have empty : excluded.length = 0 := by omega
    refine ⟨List.length_eq_zero_iff.mp empty, ?_⟩
    by_contra negative
    have below : concurrency < 0 := by omega
    rw [if_pos (by omega : concurrency ≠ 0), if_neg (by omega : ¬ concurrency > 0)] at sizes
    simp only [List.length_cons, List.length_nil] at sizes
    omega
  · rintro ⟨rfl, least⟩
    have concurrent : (concurrency ≠ 0) = (concurrency > 0) := by
      apply propext
      omega
    simp only [concurrent, repeated_nil, List.append_nil, List.append_assoc, List.cons_append,
      List.nil_append]

theorem forgetArgs_agree (retention : Retention) :
    ResticService.forgetArgs { retention with prune := some false } =
      GoAgent.forgetArgs (.received retention) := by
  unfold ResticService.forgetArgs GoAgent.forgetArgs GoAgent.Retention.received
  simp only [Option.some.injEq, Bool.false_eq_true, if_false, List.append_nil]

end Arguments

/-! ## Agreement -/

/-- A retention rule that keeps snapshots. -/
def keepsSnapshots (retention : Retention) : Bool :=
  retention.keepLast.isSome || retention.keepHourly.isSome || retention.keepDaily.isSome ||
    retention.keepWeekly.isSome || retention.keepMonthly.isSome ||
    retention.keepYearly.isSome || retention.keepWithin.getD "" ≠ "" ||
    retention.keepTags.getD [] ≠ []

/-- The pre-script passes and the repository is there, or could be initialized. -/
structure Reached (host : Host) (options : ResticOptions) : Prop where
  passes : hookError host .pre (options.preScript.getD "") = none
  ready : initError host = none

/-- The options and outcomes on which the two executions run the same backup. -/
structure Mirrored (host : Host) (options : ResticOptions) : Prop where
  /-- The agent passes on every option that shapes the backup. -/
  arguments : Reached host options →
    options.excludeFile.getD [] = [] ∧ 0 ≤ options.readConcurrency.getD 0
  /-- A retention that is applied keeps snapshots, and its forget succeeds. -/
  retention : Reached host options → backedUp (host.restic .backup) = true →
    ∀ retention, options.retention = some retention → hasRetention retention = true →
      keepsSnapshots retention = true ∧ succeeded (host.restic .forget) = true

theorem agentHasRetention (retention : Retention) :
    GoAgent.hasRetention (some (.received retention)) = keepsSnapshots retention := rfl

theorem hasRetention_of_keeps {retention : Retention} (keeps : keepsSnapshots retention = true) :
    hasRetention retention = true := by
  unfold keepsSnapshots at keeps
  unfold hasRetention
  simp only [Bool.or_eq_true, decide_eq_true_eq] at keeps ⊢
  rcases keeps with (rules | within) | tags
  · exact Or.inl (Or.inl (Or.inl rules))
  · refine Or.inl (Or.inl (Or.inr ?_))
    cases set : retention.keepWithin with
    | none =>
        rw [set] at within
        exact absurd rfl within
    | some period => rfl
  · refine Or.inl (Or.inr ?_)
    cases set : retention.keepTags with
    | none =>
        rw [set] at tags
        exact absurd rfl tags
    | some kept =>
        rw [set] at tags
        exact decide_eq_true tags

theorem hasRetention_of_prune {retention : Retention} (asks : retention.prune = some true) :
    hasRetention retention = true := by
  unfold hasRetention
  rw [asks]
  simp

section Agreement

variable {host : Host} {machine : GoAgent.Machine} {queued : QueuedRun} {target : ResolvedTarget}

theorem started_commands :
    (GoAgent.startedTrace host (agentTask queued target)).commands =
      hookCommands (queued.job.resticOptions.preScript.getD "")
        (GoAgent.scriptEnv (agentTask queued target) .pre "" "" "") := rfl

theorem opening_scripts :
    (openingCommands host queued.id queued.context).filterMap Command.script? =
      scriptEntry (queued.job.resticOptions.preScript.getD "") none := by
  unfold openingCommands
  rw [List.filterMap_append, script_hookCommands, script_initCommands, status_scriptEnv_pre,
    List.append_nil]
  rfl

theorem opening_restic :
    (openingCommands host queued.id queued.context).filterMap Command.restic? =
      initEntries host := by
  unfold openingCommands
  rw [List.filterMap_append, restic_hookCommands, List.nil_append]
  rfl

theorem started_scripts :
    (GoAgent.startedTrace host (agentTask queued target)).commands.filterMap Command.script? =
      scriptEntry (queued.job.resticOptions.preScript.getD "") none := by
  rw [started_commands, script_hookCommands, status_agentScriptEnv_pre]

theorem started_restic :
    (GoAgent.startedTrace host (agentTask queued target)).commands.filterMap Command.restic? =
      [] := by
  rw [started_commands, restic_hookCommands]

theorem backedUp_scripts :
    (GoAgent.backedUpTrace host (agentTask queued target)).commands.filterMap Command.script? =
      scriptEntry (queued.job.resticOptions.preScript.getD "") none := by
  unfold GoAgent.backedUpTrace
  rw [Trace.extend_commands, List.filterMap_append, List.filterMap_append, started_scripts,
    script_initCommands]
  rw [List.filterMap_cons, script_restic]
  exact List.append_nil _

theorem backedUp_restic :
    (GoAgent.backedUpTrace host (agentTask queued target)).commands.filterMap Command.restic? =
      initEntries host ++ [GoAgent.backupArgs (agentTask queued target)] := by
  unfold GoAgent.backedUpTrace
  rw [Trace.extend_commands, List.filterMap_append, List.filterMap_append, started_restic,
    List.nil_append, List.filterMap_cons, restic_agentBackupArgs]
  rfl

/-- A pre-script that fails ends both backups alike. -/
theorem agree_of_pre {err : String}
    (fails : hookError host .pre (queued.job.resticOptions.preScript.getD "") = some err) :
    (executeLocal host queued.id queued.context false).protocol =
      GoAgent.protocol ((GoAgent.runBackup host machine {} (agentTask queued target)).run {}) := by
  have failure := @GoAgent.backupFailure_of_pre host {} (agentTask queued target) err fails
  have left : GoAgent.backupTrace host {} (agentTask queued target) =
      GoAgent.startedTrace host (agentTask queued target) := by
    unfold GoAgent.backupTrace
    rw [failure]
  rw [executeLocal_failed (backUpLocally_pre fails), runBackup_failed failure left,
    started_scripts, started_restic, script_hookCommands, restic_hookCommands,
    status_scriptEnv_pre]
  rfl

/-- A repository that cannot be initialized ends both backups alike. -/
theorem agree_of_init {reason : String}
    (passes : hookError host .pre (queued.job.resticOptions.preScript.getD "") = none)
    (missing : initError host = some reason) :
    (executeLocal host queued.id queued.context false).protocol =
      GoAgent.protocol ((GoAgent.runBackup host machine {} (agentTask queued target)).run {}) := by
  have failure : GoAgent.backupFailure host {} (agentTask queued target) =
      some (.initialized, reason) := by
    have quiet : hookError host .pre ((agentTask queued target).hookScript .pre) = none := passes
    unfold GoAgent.backupFailure
    rw [quiet, missing]
    rfl
  have left : GoAgent.backupTrace host {} (agentTask queued target) =
      (GoAgent.startedTrace host (agentTask queued target)).extend (initCommands host) [] := by
    unfold GoAgent.backupTrace
    rw [failure]
  obtain ⟨err, threw⟩ := @backUpLocally_init host queued.id queued.context reason passes missing
  rw [executeLocal_failed threw, runBackup_failed failure left, opening_scripts, opening_restic,
    Trace.extend_commands, List.filterMap_append, List.filterMap_append, started_scripts,
    started_restic, script_initCommands, List.append_nil, List.nil_append]
  rfl

theorem script_retentionCommands :
    (GoAgent.retentionCommands host (agentTask queued target)).filterMap Command.script? =
      [] := by
  unfold GoAgent.retentionCommands
  cases GoAgent.appliedRetention (agentTask queued target) with
  | none => rfl
  | some retention =>
      dsimp only
      split <;> rfl

theorem local_successCommands :
    (localSuccessCommands host queued.id queued.context).filterMap Command.script? =
      scriptEntry (queued.job.resticOptions.postSuccessScript.getD "") (some "success") := by
  unfold localSuccessCommands
  rw [script_hookCommands, status_scriptEnv]
  rfl

theorem local_successRestic :
    (localSuccessCommands host queued.id queued.context).filterMap Command.restic? = [] :=
  restic_hookCommands _ _

/-- Where the server applies no retention, the agent applies none, and no prune is asked
for. -/
theorem unapplied_of_unretained
    (unretained : queued.job.resticOptions.retention.filter hasRetention = none) :
    wantsPrune queued.job.resticOptions = false ∧
      GoAgent.appliedRetention (agentTask queued target) = none := by
  unfold wantsPrune GoAgent.appliedRetention
  have read : (agentTask queued target).retention =
      queued.job.resticOptions.retention.map GoAgent.Retention.received := rfl
  rw [read]
  cases given : queued.job.resticOptions.retention with
  | none => exact ⟨rfl, rfl⟩
  | some retention =>
      rw [given] at unretained
      have unset : hasRetention retention = false := by
        cases set : hasRetention retention with
        | false => rfl
        | true =>
            rw [Option.filter_some_pos set] at unretained
            cases unretained
      constructor
      · change decide (retention.prune = some true) = false
        refine decide_eq_false fun asks => ?_
        exact absurd (unset.symm.trans (hasRetention_of_prune asks)) nofun
      · rw [Option.map_some, agentHasRetention, if_neg]
        intro keeps
        exact absurd (unset.symm.trans (hasRetention_of_keeps keeps)) nofun

section Backup

variable (reached : Reached host queued.job.resticOptions)

include reached

/-- Where the agent's backup ends, once it is reached. -/
theorem backupFailure_reached :
    GoAgent.backupFailure host {} (agentTask queued target) =
      if backedUp (host.restic .backup) then none
      else some (.reported, GoAgent.exited "backup" (host.restic .backup).ending) := by
  have ready := @GoAgent.backupFailure_of_ready host {} (agentTask queued target)
    reached.passes rfl reached.ready
  rw [ready]
  cases backedUp (host.restic .backup) with
  | true => rfl
  | false => rfl

/-- A failed backup: the two agree when their command lines do. -/
theorem agree_iff_of_failed (failed : backedUp (host.restic .backup) = false) :
    (executeLocal host queued.id queued.context false).protocol =
        GoAgent.protocol
          ((GoAgent.runBackup host machine {} (agentTask queued target)).run {}) ↔
      ResticService.backupArgs queued.job.paths queued.job.resticOptions =
        GoAgent.backupArgs (agentTask queued target) := by
  have failure := @backupFailure_reached host queued target reached
  rw [failed, if_neg Bool.false_ne_true] at failure
  have left : GoAgent.backupTrace host {} (agentTask queued target) =
      GoAgent.backedUpTrace host (agentTask queued target) := by
    unfold GoAgent.backupTrace
    rw [failure]
  obtain ⟨err, threw⟩ := @backUpLocally_backup host queued.id queued.context reached.passes
    reached.ready failed
  rw [executeLocal_failed threw, runBackup_failed failure left, backedUp_scripts,
    backedUp_restic, List.filterMap_append, List.filterMap_append, opening_scripts,
    opening_restic]
  simp only [localBackupCommand, List.filterMap_cons, List.filterMap_nil, script_restic,
    restic_backupArgs, List.append_nil, Protocol.mk.injEq, List.append_cancel_left_eq,
    List.cons.injEq, and_true]
  exact ⟨fun same => same.2, fun same => ⟨rfl, same⟩⟩

/-- The agent's side of a backup that restic completes. -/
theorem runBackup_done (done : backedUp (host.restic .backup) = true) :
    GoAgent.protocol ((GoAgent.runBackup host machine {} (agentTask queued target)).run {}) = {
      scripts := scriptEntry (queued.job.resticOptions.preScript.getD "") none ++
        scriptEntry (queued.job.resticOptions.postSuccessScript.getD "") (some "success")
      restic := initEntries host ++ [GoAgent.backupArgs (agentTask queued target)] ++
        (GoAgent.retentionCommands host (agentTask queued target)).filterMap Command.restic?
      status := .success
      prune := (GoAgent.retentionPrune host machine (agentTask queued target)).map fun prune =>
        GoAgent.recordedStatus prune.status } := by
  have completes := @backupFailure_reached host queued target reached
  rw [done, if_pos rfl] at completes
  have left : GoAgent.backupTrace host {} (agentTask queued target) =
      (GoAgent.retainedTrace host (agentTask queued target)).extend
        [.restic GoAgent.statsArgs] [] := by
    unfold GoAgent.backupTrace
    rw [completes]
  rw [runBackup_succeeded completes left]
  unfold GoAgent.retainedTrace
  simp only [Trace.extend_commands, List.filterMap_append, backedUp_scripts, backedUp_restic,
    script_retentionCommands, List.filterMap_cons,
    List.filterMap_nil, script_restic, restic_stats, List.append_nil]
  rfl

/-- The server's side, where no retention applies. -/
theorem executeLocal_kept (done : backedUp (host.restic .backup) = true)
    (unretained : queued.job.resticOptions.retention.filter hasRetention = none) :
    (executeLocal host queued.id queued.context false).protocol = {
      scripts := scriptEntry (queued.job.resticOptions.preScript.getD "") none ++
        scriptEntry (queued.job.resticOptions.postSuccessScript.getD "") (some "success")
      restic := initEntries host ++
        [ResticService.backupArgs queued.job.paths queued.job.resticOptions] ++
          localPruneEntries queued.job.resticOptions
      status := .success
      prune := localPruneStatus host queued.job.resticOptions } := by
  have returned := @backUpLocally_kept host queued.id queued.context reached.passes
    reached.ready done unretained
  rw [executeLocal_succeeded returned]
  simp only [List.filterMap_append, opening_scripts, opening_restic, local_successCommands,
    local_successRestic, localBackupCommand, List.filterMap_cons, List.filterMap_nil,
    script_restic, restic_backupArgs, List.append_nil]
  rfl

/-- The server's side, once the forget of a retention is done. -/
theorem executeLocal_retained {retention : Retention}
    (done : backedUp (host.restic .backup) = true)
    (applies : queued.job.resticOptions.retention.filter hasRetention = some retention)
    (forgot : succeeded (host.restic .forget) = true) :
    (executeLocal host queued.id queued.context false).protocol = {
      scripts := scriptEntry (queued.job.resticOptions.preScript.getD "") none ++
        scriptEntry (queued.job.resticOptions.postSuccessScript.getD "") (some "success")
      restic := initEntries host ++
        [ResticService.backupArgs queued.job.paths queued.job.resticOptions,
          ResticService.forgetArgs { retention with prune := some false }] ++
          localPruneEntries queued.job.resticOptions
      status := .success
      prune := localPruneStatus host queued.job.resticOptions } := by
  have returned := @backUpLocally_retained host queued.id queued.context reached.passes
    reached.ready retention done applies forgot
  rw [executeLocal_succeeded returned]
  simp only [List.filterMap_append, opening_scripts, opening_restic, local_successCommands,
    local_successRestic, localBackupCommand, localForgetCommand, List.filterMap_cons,
    List.filterMap_nil, script_restic, restic_backupArgs, restic_forgetArgs, List.append_nil]
  rfl

/-- A failed forget fails a local backup and not one on an agent. -/
theorem disagree_of_forget {retention : Retention}
    (done : backedUp (host.restic .backup) = true)
    (applies : queued.job.resticOptions.retention.filter hasRetention = some retention)
    (failed : succeeded (host.restic .forget) = false) :
    (executeLocal host queued.id queued.context false).protocol ≠
      GoAgent.protocol
        ((GoAgent.runBackup host machine {} (agentTask queued target)).run {}) := by
  obtain ⟨err, threw⟩ := @backUpLocally_forget host queued.id queued.context reached.passes
    reached.ready retention done applies failed
  rw [executeLocal_failed threw, runBackup_done reached done]
  intro same
  cases congrArg Protocol.status same

/-- A job without a retention to apply: the two agree when their command lines do. -/
theorem agree_iff_of_kept (done : backedUp (host.restic .backup) = true)
    (unretained : queued.job.resticOptions.retention.filter hasRetention = none) :
    (executeLocal host queued.id queued.context false).protocol =
        GoAgent.protocol
          ((GoAgent.runBackup host machine {} (agentTask queued target)).run {}) ↔
      ResticService.backupArgs queued.job.paths queued.job.resticOptions =
        GoAgent.backupArgs (agentTask queued target) := by
  obtain ⟨unasked, unapplied⟩ := @unapplied_of_unretained queued target unretained
  rw [executeLocal_kept reached done unretained, runBackup_done reached done]
  unfold localPruneEntries localPruneStatus GoAgent.retentionCommands GoAgent.retentionPrune
  rw [unasked, unapplied]
  simp only [Bool.false_eq_true, if_false, List.filterMap_nil, List.append_nil,
    Option.map_none, Protocol.mk.injEq, List.append_cancel_left_eq, List.cons.injEq, and_true,
    true_and]

/-- The retention a job applies on the server, once its forget is done: the agent does the
same when the retention keeps snapshots and the command lines of the backup agree. -/
theorem agree_iff_of_retained {retention : Retention}
    (done : backedUp (host.restic .backup) = true)
    (given : queued.job.resticOptions.retention = some retention)
    (set : hasRetention retention = true)
    (forgot : succeeded (host.restic .forget) = true) :
    (executeLocal host queued.id queued.context false).protocol =
        GoAgent.protocol
          ((GoAgent.runBackup host machine {} (agentTask queued target)).run {}) ↔
      ResticService.backupArgs queued.job.paths queued.job.resticOptions =
          GoAgent.backupArgs (agentTask queued target) ∧
        keepsSnapshots retention = true := by
  have applies : queued.job.resticOptions.retention.filter hasRetention = some retention := by
    rw [given, Option.filter_some_pos set]
  have read : (agentTask queued target).retention = some (.received retention) := by
    change queued.job.resticOptions.retention.map GoAgent.Retention.received = _
    rw [given]
    rfl
  have applied : GoAgent.appliedRetention (agentTask queued target) =
      if keepsSnapshots retention then some (.received retention) else none := by
    unfold GoAgent.appliedRetention
    rw [read, agentHasRetention]
  rw [executeLocal_retained reached done applies forgot, runBackup_done reached done]
  unfold localPruneEntries localPruneStatus GoAgent.retentionCommands GoAgent.retentionPrune
  rw [applied]
  cases keepsSnapshots retention with
  | false =>
      simp only [Bool.false_eq_true, if_false, and_false, iff_false, List.filterMap_nil,
        List.append_nil]
      intro same
      have sizes := congrArg (fun protocol => protocol.restic.length) same
      simp only [List.length_append, List.length_cons, List.length_nil] at sizes
      omega
  | true =>
      have asks : GoAgent.pruned host (.received retention) =
          wantsPrune queued.job.resticOptions := by
        unfold GoAgent.pruned wantsPrune
        rw [forgot, given]
        change (true && retention.prune.getD false) = decide (retention.prune = some true)
        cases retention.prune with
        | none => rfl
        | some prune => cases prune <;> rfl
      simp only [if_true, and_true, asks, forgetArgs_agree]
      cases wantsPrune queued.job.resticOptions with
      | false =>
          simp only [Bool.false_eq_true, if_false, List.filterMap_cons, List.filterMap_nil,
            restic_agentForgetArgs, List.append_nil, Option.map_none, Protocol.mk.injEq,
            List.append_assoc, List.append_cancel_left_eq, List.cons_append, List.nil_append,
            List.cons.injEq, and_true, true_and]
      | true =>
          simp only [if_true, List.filterMap_cons, List.filterMap_nil, restic_agentForgetArgs,
            restic_prune, Option.map_some, Protocol.mk.injEq, List.append_assoc,
            List.append_cancel_left_eq, List.cons_append, List.nil_append, List.cons.injEq,
            and_true, true_and]
          refine ⟨fun same => same.1, fun same => ⟨same, congrArg some ?_⟩⟩
          unfold GoAgent.pruneResult
          cases succeeded (host.restic .prune) with
          | true => rfl
          | false => rfl

/-- A backup that restic completes. -/
theorem agree_iff_of_done (done : backedUp (host.restic .backup) = true) :
    (executeLocal host queued.id queued.context false).protocol =
        GoAgent.protocol
          ((GoAgent.runBackup host machine {} (agentTask queued target)).run {}) ↔
      Mirrored host queued.job.resticOptions := by
  cases applies : queued.job.resticOptions.retention.filter hasRetention with
  | none =>
      rw [agree_iff_of_kept reached done applies, backupArgs_agree_iff]
      refine ⟨fun arguments => ⟨fun _ => arguments, ?_⟩,
        fun mirrored => mirrored.arguments reached⟩
      intro _ _ retention given set
      rw [given, Option.filter_some_pos set] at applies
      cases applies
  | some retention =>
      have given : queued.job.resticOptions.retention = some retention ∧
          hasRetention retention = true := by
        rw [Option.filter_eq_some_iff] at applies
        exact applies
      obtain ⟨given, set⟩ := given
      cases forgot : succeeded (host.restic .forget) with
      | false =>
          refine ⟨fun same => absurd same (disagree_of_forget reached done applies forgot), ?_⟩
          intro mirrored
          have kept := (mirrored.retention reached done retention given set).2
          exact absurd (forgot.symm.trans kept) nofun
      | true =>
          rw [agree_iff_of_retained reached done given set forgot, backupArgs_agree_iff]
          constructor
          · rintro ⟨arguments, keeps⟩
            refine ⟨fun _ => arguments, ?_⟩
            intro _ _ other same _
            rw [given] at same
            cases same
            exact ⟨keeps, forgot⟩
          · intro mirrored
            exact ⟨mirrored.arguments reached,
              (mirrored.retention reached done retention given set).1⟩

end Backup

end Agreement

/-- A queued backup of a job that keeps its last seven snapshots. -/
def retainedRun : QueuedRun where
  id := 1
  run := { jobId := 2, trigger := .schedule, createdAt := 0 }
  job := {
    name := "documents"
    location := .agent
    repositoryId := 3
    resticOptions := { retention := some { keepLast := some 7 } } }
  repository := {
    name := "documents"
    targetId := none
    repoConfig := []
    repoPasswordSecretId := 4 }

/-- A host whose repository is locked while snapshots are forgotten. -/
def lockedHost : Host where
  restic
    | .forget => { ending := .ok 1, stderr := "repository is already locked" }
    | _ => {}

end AmberBackup
