import AmberBackup.GoAgent.Executions
import AmberBackup.Jobs.LocalBackup

/-! # The ways a local backup ends

The commands a local backup has run when it fails, by the step that fails, and when it
succeeds (`backUpLocally_kept`, `backUpLocally_retained`). Scripts, the initialization and
restic's backup are judged by the same tests of the host as on an agent.
-/

namespace AmberBackup

open GoAgent (hookCommands hookError initError initCommands backedUp succeeded)

/-! ## The operations -/

variable {host : Host} {commands : List Command}

theorem hookPath_eq_empty_iff {path : Option String} :
    hasScript path = false ↔ path.getD "" = "" := by
  unfold hasScript
  cases path with
  | none => exact ⟨fun _ => rfl, fun _ => rfl⟩
  | some path => simp

/-- A script that does not fail. -/
theorem runIfSet_ok {hook : Hook} {path : Option String} {env : List (String × String)}
    (passes : hookError host hook (path.getD "") = none) :
    (runIfSet host hook path env).run commands =
      (.ok (), commands ++ hookCommands (path.getD "") env) := by
  unfold runIfSet hookCommands
  unfold hookError at passes
  cases set : hasScript path with
  | false =>
      rw [if_neg Bool.false_ne_true, if_pos (hookPath_eq_empty_iff.mp set), List.append_nil]
      rfl
  | true =>
      have nonempty : path.getD "" ≠ "" := fun empty =>
        absurd (set.symm.trans (hookPath_eq_empty_iff.mpr empty)) nofun
      rw [if_neg nonempty] at passes
      rw [if_pos rfl, if_neg nonempty]
      unfold runScript
      rw [passes]
      rfl

/-- A script that fails. -/
theorem runIfSet_error {hook : Hook} {path : Option String} {env : List (String × String)}
    {err : String} (fails : hookError host hook (path.getD "") = some err) :
    (runIfSet host hook path env).run commands =
      (.error ("Script failed: " ++ err), commands ++ hookCommands (path.getD "") env) := by
  unfold runIfSet hookCommands
  unfold hookError at fails
  cases set : hasScript path with
  | false =>
      rw [if_pos (hookPath_eq_empty_iff.mp set)] at fails
      cases fails
  | true =>
      have nonempty : path.getD "" ≠ "" := fun empty =>
        absurd (set.symm.trans (hookPath_eq_empty_iff.mpr empty)) nofun
      rw [if_neg nonempty] at fails
      rw [if_pos rfl, if_neg nonempty]
      unfold runScript
      rw [fails]
      rfl

/-- Whether it fails or not, a script is run where it is set. -/
theorem runIfSet_commands {hook : Hook} {path : Option String}
    {env : List (String × String)} :
    ((runIfSet host hook path env).run commands).2 =
      commands ++ hookCommands (path.getD "") env := by
  cases outcome : hookError host hook (path.getD "") with
  | none => rw [runIfSet_ok outcome]
  | some err => rw [runIfSet_error outcome]

theorem restic_run_ok {step : ResticStep} {args : List String} {code : Int}
    (ends : (host.restic step).ending = .ok code) :
    (ResticService.run host step args).run commands =
      (.ok code, commands ++ [.restic args]) := by
  unfold ResticService.run
  rw [ends]
  rfl

theorem restic_run_error {step : ResticStep} {args : List String} {err : String}
    (ends : (host.restic step).ending = .error err) :
    (ResticService.run host step args).run commands =
      (.error err, commands ++ [.restic args]) := by
  unfold ResticService.run
  rw [ends]
  rfl

/-- An operation that accepts some exit codes of one command. -/
def operation {α : Type} (host : Host) (step : ResticStep) (args : List String)
    (accepted : Int → Bool) (value : α) (failure : Int → String) : Local α := do
  let code ← ResticService.run host step args
  if accepted code then return value else .raise (failure code)

variable {α : Type} {step : ResticStep} {args : List String} {accepted : Int → Bool} {value : α}
  {failure : Int → String}

/-- The operation returns where the command ends with a code it accepts. -/
theorem operation_ok {code : Int} (ends : (host.restic step).ending = .ok code)
    (accepts : accepted code = true) :
    (operation host step args accepted value failure).run commands =
      (.ok value, commands ++ [.restic args]) := by
  unfold operation
  rw [Procedure.run_bind_of_ok (restic_run_ok ends), if_pos accepts]
  rfl

/-- It throws where the command cannot be run or ends with another code. -/
theorem operation_error
    (refused : ∀ code, (host.restic step).ending = .ok code → accepted code = false) :
    ∃ err, (operation host step args accepted value failure).run commands =
      (.error err, commands ++ [.restic args]) := by
  unfold operation
  cases ends : (host.restic step).ending with
  | error err => exact ⟨err, Procedure.run_bind_of_error (restic_run_error ends)⟩
  | ok code =>
      refine ⟨failure code, ?_⟩
      rw [Procedure.run_bind_of_ok (restic_run_ok ends), refused code ends]
      rfl

theorem ok_of_succeeded {run : ResticRun} (done : succeeded run = true) : run.ending = .ok 0 := by
  unfold succeeded at done
  cases ends : run.ending with
  | error err =>
      rw [ends] at done
      cases done
  | ok code =>
      rw [ends] at done
      exact congrArg _ (of_decide_eq_true done)

theorem refused_of_not_succeeded {run : ResticRun} (failed : succeeded run = false) (code : Int)
    (ends : run.ending = .ok code) : decide (code = 0) = false := by
  unfold succeeded at failed
  rw [ends] at failed
  exact failed

theorem ok_of_backedUp {run : ResticRun} (done : backedUp run = true) :
    ∃ code, run.ending = .ok code ∧ (decide (code = 0) || decide (code = 3)) = true := by
  unfold backedUp at done
  cases ends : run.ending with
  | error err =>
      rw [ends] at done
      cases done
  | ok code =>
      rw [ends] at done
      exact ⟨code, rfl, done⟩

theorem refused_of_not_backedUp {run : ResticRun} (failed : backedUp run = false) (code : Int)
    (ends : run.ending = .ok code) : (decide (code = 0) || decide (code = 3)) = false := by
  unfold backedUp at failed
  rw [ends] at failed
  exact failed

theorem backup_eq (paths : List String) (options : ResticOptions) :
    ResticService.backup host paths options =
      operation host .backup (ResticService.backupArgs paths options)
        (fun code => code = 0 || code = 3)
        (ResticService.snapshotId (host.restic .backup).messages)
        (fun code => ResticService.failure (host.restic .backup)
          ("restic backup exited " ++ toString code)) := rfl

theorem forget_eq (retention : Retention) :
    ResticService.forget host retention =
      operation host .forget (ResticService.forgetArgs retention) (fun code => code = 0) ()
        (fun _ => ResticService.failure (host.restic .forget) "restic forget failed") := by
  unfold ResticService.forget operation
  simp only [decide_eq_true_eq]

theorem prune_eq :
    ResticService.prune host =
      operation host .prune ["prune"] (fun code => code = 0) ()
        (fun code => ResticService.failure (host.restic .prune)
          ("restic prune exited " ++ toString code)) := by
  unfold ResticService.prune operation
  simp only [decide_eq_true_eq]

/-- The repository is read, or initialized. -/
theorem ensureInitialized_ok (ready : initError host = none) :
    (ResticService.ensureInitialized host).run commands =
      (.ok (), commands ++ initCommands host) := by
  unfold initError at ready
  unfold ResticService.ensureInitialized initCommands
  cases cat : (host.restic .catConfig).ending with
  | error err =>
      rw [cat] at ready
      cases ready
  | ok code =>
      rw [cat] at ready
      rw [Procedure.run_bind_of_ok (restic_run_ok cat)]
      dsimp only at ready ⊢
      by_cases read : code = 0
      · rw [if_pos read, if_pos read]
        rfl
      · rw [if_neg read] at ready
        rw [if_neg read, if_neg read]
        cases init : (host.restic .init).ending with
        | error err =>
            rw [init] at ready
            cases ready
        | ok created =>
            rw [init] at ready
            dsimp only at ready
            rw [Procedure.run_bind_of_ok (restic_run_ok init), List.append_assoc]
            by_cases done : created = 0
            · rw [if_pos done]
              rfl
            · rw [if_neg done] at ready
              cases ready

/-- The repository can neither be read nor initialized. -/
theorem ensureInitialized_error {reason : String} (missing : initError host = some reason) :
    ∃ err, (ResticService.ensureInitialized host).run commands =
      (.error err, commands ++ initCommands host) := by
  unfold initError at missing
  unfold ResticService.ensureInitialized initCommands
  cases cat : (host.restic .catConfig).ending with
  | error err => exact ⟨err, Procedure.run_bind_of_error (restic_run_error cat)⟩
  | ok code =>
      rw [cat] at missing
      rw [Procedure.run_bind_of_ok (restic_run_ok cat)]
      dsimp only at missing ⊢
      by_cases read : code = 0
      · rw [if_pos read] at missing
        cases missing
      · rw [if_neg read] at missing
        rw [if_neg read, if_neg read]
        cases init : (host.restic .init).ending with
        | error err =>
            refine ⟨err, ?_⟩
            rw [Procedure.run_bind_of_error (restic_run_error init), List.append_assoc]
            rfl
        | ok created =>
            rw [init] at missing
            dsimp only at missing
            rw [Procedure.run_bind_of_ok (restic_run_ok init), List.append_assoc]
            by_cases done : created = 0
            · rw [if_pos done] at missing
              cases missing
            · rw [if_neg done]
              exact ⟨_, rfl⟩

/-! ## The ways a local backup ends -/

variable {run : Uuid} {context : RunContext}

/-- The commands up to the backup itself. -/
def openingCommands (host : Host) (run : Uuid) (context : RunContext) : List Command :=
  hookCommands (context.options.preScript.getD "")
    (scriptEnv context run [("AMBER_HOOK", "pre")]) ++ initCommands host

def localBackupCommand (context : RunContext) : Command :=
  .restic (ResticService.backupArgs context.paths context.options)

def localForgetCommand (retention : Retention) : Command :=
  .restic (ResticService.forgetArgs { retention with prune := some false })

/-- The on-success script, with the snapshot it is told of. -/
def localSuccessCommands (host : Host) (run : Uuid) (context : RunContext) : List Command :=
  hookCommands (context.options.postSuccessScript.getD "")
    (scriptEnv context run [("AMBER_HOOK", "post-success"), ("AMBER_STATUS", "success"),
      ("AMBER_SNAPSHOT_ID",
        (ResticService.snapshotId (host.restic .backup).messages).getD "")])

theorem backUpLocally_pre {err : String}
    (fails : hookError host .pre (context.options.preScript.getD "") = some err) :
    (backUpLocally host run context).run [] =
      (.error ("Script failed: " ++ err), hookCommands (context.options.preScript.getD "")
        (scriptEnv context run [("AMBER_HOOK", "pre")])) := by
  unfold backUpLocally
  rw [Procedure.run_bind_of_error (runIfSet_error fails), List.nil_append]

/-- Past the pre-script, the rest of the backup starts from the commands so far. -/
theorem run_bind_pre {β : Type} {next : Unit → Local β} {env : List (String × String)}
    (passes : hookError host .pre (context.options.preScript.getD "") = none) :
    (runIfSet host .pre context.options.preScript env >>= next).run [] =
      (next ()).run (hookCommands (context.options.preScript.getD "") env) := by
  rw [Procedure.run_bind_of_ok (runIfSet_ok passes), List.nil_append]

theorem backUpLocally_init {reason : String}
    (passes : hookError host .pre (context.options.preScript.getD "") = none)
    (missing : initError host = some reason) :
    ∃ err, (backUpLocally host run context).run [] =
      (.error err, openingCommands host run context) := by
  unfold backUpLocally
  rw [run_bind_pre passes]
  obtain ⟨err, threw⟩ := ensureInitialized_error missing
  exact ⟨err, Procedure.run_bind_of_error threw⟩

section Reached

variable (passes : hookError host .pre (context.options.preScript.getD "") = none)
  (ready : initError host = none)

include passes ready

theorem backUpLocally_backup (failed : backedUp (host.restic .backup) = false) :
    ∃ err, (backUpLocally host run context).run [] =
      (.error err, openingCommands host run context ++ [localBackupCommand context]) := by
  unfold backUpLocally
  rw [run_bind_pre passes, Procedure.run_bind_of_ok (ensureInitialized_ok ready), backup_eq]
  obtain ⟨err, threw⟩ := operation_error (refused_of_not_backedUp failed)
  exact ⟨err, Procedure.run_bind_of_error threw⟩

theorem backUpLocally_forget {retention : Retention}
    (done : backedUp (host.restic .backup) = true)
    (applies : context.options.retention.filter hasRetention = some retention)
    (failed : succeeded (host.restic .forget) = false) :
    ∃ err, (backUpLocally host run context).run [] =
      (.error err, openingCommands host run context ++
        [localBackupCommand context, localForgetCommand retention]) := by
  obtain ⟨code, ends, accepts⟩ := ok_of_backedUp done
  unfold backUpLocally
  rw [run_bind_pre passes, Procedure.run_bind_of_ok (ensureInitialized_ok ready), backup_eq,
    Procedure.run_bind_of_ok (operation_ok ends accepts)]
  simp only [applies, forget_eq]
  obtain ⟨err, threw⟩ := operation_error (refused_of_not_succeeded failed)
  refine ⟨err, ?_⟩
  rw [Procedure.run_bind_of_error threw]
  simp only [openingCommands, localBackupCommand, localForgetCommand, List.append_assoc,
    List.cons_append, List.nil_append]

theorem backUpLocally_retained {retention : Retention}
    (done : backedUp (host.restic .backup) = true)
    (applies : context.options.retention.filter hasRetention = some retention)
    (forgot : succeeded (host.restic .forget) = true) :
    (backUpLocally host run context).run [] =
      (.ok (ResticService.snapshotId (host.restic .backup).messages),
        openingCommands host run context ++
          [localBackupCommand context, localForgetCommand retention] ++
            localSuccessCommands host run context) := by
  obtain ⟨code, ends, accepts⟩ := ok_of_backedUp done
  unfold backUpLocally
  rw [run_bind_pre passes, Procedure.run_bind_of_ok (ensureInitialized_ok ready), backup_eq,
    Procedure.run_bind_of_ok (operation_ok ends accepts)]
  simp only [applies, forget_eq]
  rw [Procedure.run_bind_of_ok (operation_ok (ok_of_succeeded forgot) (by rfl)),
    Procedure.run_bind_of_ok (Procedure.run_ignoring _), runIfSet_commands]
  simp only [openingCommands, localBackupCommand, localForgetCommand, localSuccessCommands,
    Procedure.run_pure, List.append_assoc, List.cons_append, List.nil_append]

theorem backUpLocally_kept (done : backedUp (host.restic .backup) = true)
    (applies : context.options.retention.filter hasRetention = none) :
    (backUpLocally host run context).run [] =
      (.ok (ResticService.snapshotId (host.restic .backup).messages),
        openingCommands host run context ++ [localBackupCommand context] ++
          localSuccessCommands host run context) := by
  obtain ⟨code, ends, accepts⟩ := ok_of_backedUp done
  unfold backUpLocally
  rw [run_bind_pre passes, Procedure.run_bind_of_ok (ensureInitialized_ok ready), backup_eq,
    Procedure.run_bind_of_ok (operation_ok ends accepts)]
  simp only [applies]
  rw [Procedure.run_bind_of_ok (Procedure.run_ignoring _), runIfSet_commands]
  rfl

end Reached

end AmberBackup
