import AmberBackup.GoAgent.Executions
import AmberBackup.GoAgent.TaskResultDto
import Mathlib.Algebra.GroupWithZero.Nat

/-! # Results the server takes

The agent collects the log of a task without a bound and posts texts that restic and the
scripts determine, while the server bounds every field of a result. Whether a finished
task's result is taken thus depends on what the task printed: `result_accepted_iff` states
the exact condition for every task, and `verbose_backup_rejected` is a backup whose result
is refused.
-/

namespace AmberBackup.GoAgent

variable {validator : Validator} {host : Host} {machine : Machine} {ctx : Context} {task : Task}

/-- The length of a log is that of its lines, each ended by a line feed. -/
theorem logText_length (lines : List String) :
    (logText lines).length = (lines.map String.length).sum + lines.length := by
  induction lines with
  | nil => rfl
  | cons line rest ih =>
      change (line ++ "\n" ++ logText rest).length = _
      have feed : ("\n" : String).length = 1 := rfl
      rw [String.length_append, String.length_append, ih, List.map_cons, List.sum_cons,
        List.length_cons, feed]
      omega

/-- A log whose lines are short and few fits. -/
theorem logText_fits {lines : List String} {bound : Nat}
    (short : (lines.map String.length).sum + lines.length ≤ bound) :
    validator.Fits bound (logText lines) :=
  Validator.fits_of_length_le (by rw [logText_length]; exact short)

/-! ## Conditions on what a task prints -/

/-- The figures that restic prints are not negative, or the text that stands for them fits. -/
def FiguresFit (validator : Validator) (host : Host) (machine : Machine) : Prop :=
  match statsReading host machine with
  | .ok stats => 0 ≤ stats.sizeBytes ∧ 0 ≤ stats.snapshotCount
  | .error msg => validator.Fits 20000 msg

/-- What a prune prints fits, and so does its error. -/
structure PruneOutputFits (validator : Validator) (host : Host) : Prop where
  log : validator.Fits 200000 (logText (host.restic .prune).lines)
  error : succeeded (host.restic .prune) = false →
    validator.Fits 20000 (exited "prune" (host.restic .prune).ending)

/-- A backup that fails, or is stopped, with the message. -/
structure FailureFits (validator : Validator) (host : Host) (ctx : Context) (task : Task)
    (moment : Moment) (msg : String) : Prop where
  log : validator.Fits 200000
    (logText ((backupTrace host ctx task).log ++ failureLines host task))
  error : ctx.err moment = false → validator.Fits 20000 msg

/-- A backup that completes. -/
structure CompletionFits (validator : Validator) (host : Host) (machine : Machine)
    (ctx : Context) (task : Task) : Prop where
  log : validator.Fits 200000
    (logText ((backupTrace host ctx task).log ++ successLines host task))
  snapshotId : validator.Fits 128 (snapshotId (host.restic .backup).messages)
  prune : ∀ retention, appliedRetention task = some retention → pruned host retention = true →
    PruneOutputFits validator host
  figures : FiguresFit validator host machine

/-- What the scripts and restic print during a backup fits the fields it is posted in. -/
def BackupFits (validator : Validator) (host : Host) (machine : Machine) (ctx : Context)
    (task : Task) : Prop :=
  match backupFailure host ctx task with
  | some (moment, msg) => FailureFits validator host ctx task moment msg
  | none => CompletionFits validator host machine ctx task

/-- What one restic command prints fits, and so does the error it fails with. -/
structure CommandFits (validator : Validator) (ctx : Context) (what : String)
    (run : ResticRun) : Prop where
  log : validator.Fits 200000 (logText run.lines)
  error : ctx.err .backup = false → succeeded run = false →
    validator.Fits 20000 (exited what run.ending)

/-- A check that found damage. -/
def damagedCheck (run : ResticRun) : Bool :=
  run.ending.isOk && isDamagedCheckOutput (logText run.lines)

/-- Every text the task produces fits its field. -/
def TaskFits (validator : Validator) (host : Host) (machine : Machine) (ctx : Context)
    (task : Task) : Prop :=
  match task.type with
  | .stats => FiguresFit validator host machine
  | .backup => ctx.err .beforeStart = false → BackupFits validator host machine ctx task
  | .restore => ctx.err .beforeStart = false →
      CommandFits validator ctx "restore" (host.restic .restore)
  | .check => ctx.err .beforeStart = false →
      validator.Fits 200000 (logText (host.restic .check).lines) ∧
        (damagedCheck (host.restic .check) = false →
          CommandFits validator ctx "check" (host.restic .check))

/-! ## The results of the tasks -/

theorem fits_failed {msg log : String} :
    Validator.ResultFits validator (failTask msg log) ↔
      validator.Fits 20000 msg ∧ validator.Fits 200000 log := by
  constructor
  · intro fits
    exact ⟨fits.error, fits.log⟩
  · rintro ⟨error, log⟩
    exact ⟨Or.inr (Or.inl rfl), Validator.fits_empty _, nofun, nofun, Validator.fits_empty _,
      error, log⟩

theorem fits_cancelled {log : String} :
    Validator.ResultFits validator (cancelTask log) ↔ validator.Fits 200000 log := by
  constructor
  · intro fits
    exact fits.log
  · intro log
    exact ⟨Or.inr (Or.inr rfl), Validator.fits_empty _, nofun, nofun, Validator.fits_empty _,
      Validator.fits_empty _, log⟩

theorem fits_failure {moment : Moment} {msg log : String} :
    Validator.ResultFits validator (failureResult ctx moment msg log) ↔
      validator.Fits 200000 log ∧ (ctx.err moment = false → validator.Fits 20000 msg) := by
  unfold failureResult
  cases ctx.err moment with
  | true =>
      rw [if_pos rfl, fits_cancelled]
      exact ⟨fun log => ⟨log, nofun⟩, fun fits => fits.1⟩
  | false =>
      rw [if_neg Bool.false_ne_true, fits_failed]
      exact ⟨fun fits => ⟨fits.2, fun _ => fits.1⟩, fun fits => ⟨fits.2 rfl, fits.1⟩⟩

/-- The figures of a reading, on a result that has none of its own. -/
theorem fits_figures {result : TaskResult} (figureless : result.repoStats = none)
    (unexplained : result.repoStatsError = "") :
    ((∀ stats, (result.withStats (statsReading host machine)).repoStats = some stats →
        0 ≤ stats.sizeBytes ∧ 0 ≤ stats.snapshotCount) ∧
      validator.Fits 20000 (result.withStats (statsReading host machine)).repoStatsError) ↔
      FiguresFit validator host machine := by
  unfold FiguresFit TaskResult.withStats
  cases statsReading host machine with
  | ok stats =>
      dsimp only
      rw [unexplained]
      constructor
      · rintro ⟨counts, -⟩
        exact counts stats rfl
      · intro counts
        refine ⟨?_, Validator.fits_empty _⟩
        intro other same
        cases same
        exact counts
  | error msg =>
      dsimp only
      rw [figureless]
      exact ⟨fun fits => fits.2, fun fits => ⟨nofun, fits⟩⟩

section Clock

variable (started : validator.isISO8601 machine.pruneStarted = true)
  (finished : validator.isISO8601 machine.pruneFinished = true)

include started finished

theorem fits_pruneResult :
    Validator.PruneFits validator (pruneResult host machine) ↔ PruneOutputFits validator host := by
  constructor
  · rintro ⟨-, -, -, error, log⟩
    refine ⟨log, fun failed => ?_⟩
    change validator.Fits 20000 (if succeeded (host.restic .prune) then "" else _) at error
    rw [failed, if_neg Bool.false_ne_true] at error
    exact error
  · rintro ⟨log, error⟩
    refine ⟨?_, started, finished, ?_, log⟩
    · change (if succeeded (host.restic .prune) then "success" else "failed") = "success" ∨
        (if succeeded (host.restic .prune) then "success" else "failed") = "failed"
      cases succeeded (host.restic .prune) with
      | true => exact Or.inl (if_pos rfl)
      | false => exact Or.inr (if_neg Bool.false_ne_true)
    · change validator.Fits 20000 (if succeeded (host.restic .prune) then "" else _)
      cases failed : succeeded (host.restic .prune) with
      | true =>
          rw [if_pos rfl]
          exact Validator.fits_empty _
      | false =>
          rw [if_neg Bool.false_ne_true]
          exact error failed

/-- The prune of a completed backup. -/
theorem fits_prune :
    (∀ prune, retentionPrune host machine task = some prune →
        Validator.PruneFits validator prune) ↔
      ∀ retention, appliedRetention task = some retention → pruned host retention = true →
        PruneOutputFits validator host := by
  have whole : Validator.PruneFits validator (pruneResult host machine) ↔
      PruneOutputFits validator host := fits_pruneResult started finished
  unfold retentionPrune
  cases appliedRetention task with
  | none =>
      constructor
      · intro _ _ same
        cases same
      · intro _ _ same
        cases same
  | some retention =>
      dsimp only
      constructor
      · intro fits _ same runs
        cases same
        rw [if_pos runs] at fits
        exact whole.mp (fits (pruneResult host machine) rfl)
      · intro fits prune reported
        split at reported
        · rename_i runs
          cases reported
          exact whole.mpr (fits retention rfl runs)
        · cases reported

/-- A backup's result is taken exactly when its output fits. -/
theorem fits_backupRun :
    Validator.ResultFits validator (backupRun host machine ctx task).1 ↔
      BackupFits validator host machine ctx task := by
  unfold backupRun BackupFits
  cases backupFailure host ctx task with
  | some failure =>
      obtain ⟨moment, msg⟩ := failure
      dsimp only
      rw [fits_failure]
      exact ⟨fun fits => ⟨fits.1, fits.2⟩, fun fits => ⟨fits.log, fits.error⟩⟩
  | none =>
      dsimp only
      have figures := @fits_figures validator host machine
        { status := "success"
          snapshotId := snapshotId (host.restic .backup).messages
          stats := statsOf summaryToStats (host.restic .backup).messages
          prune := retentionPrune host machine task } rfl rfl
      have prunes := @fits_prune validator host machine task started finished
      have kept : (backupResult host machine task).status = "success" ∧
          (backupResult host machine task).snapshotId =
            snapshotId (host.restic .backup).messages ∧
          (backupResult host machine task).prune = retentionPrune host machine task ∧
          (backupResult host machine task).error = "" := by
        unfold backupResult TaskResult.withStats
        cases statsReading host machine with
        | ok stats => exact ⟨rfl, rfl, rfl, rfl⟩
        | error msg => exact ⟨rfl, rfl, rfl, rfl⟩
      obtain ⟨status, snapshot, applied, error⟩ := kept
      constructor
      · intro fits
        refine ⟨fits.log, ?_, ?_, figures.mp ⟨fits.repoStats, fits.repoStatsError⟩⟩
        · rw [← snapshot]
          exact fits.snapshotId
        · exact prunes.mp fun prune reported => fits.prune prune (applied.trans reported)
      · intro fits
        obtain ⟨repoStats, repoStatsError⟩ := figures.mpr fits.figures
        refine ⟨Or.inl status, ?_, ?_, repoStats, repoStatsError, ?_, fits.log⟩
        · change validator.Fits 128 (backupResult host machine task).snapshotId
          rw [snapshot]
          exact fits.snapshotId
        · exact fun prune reported => prunes.mpr fits.prune prune (applied.symm.trans reported)
        · change validator.Fits 20000 (backupResult host machine task).error
          rw [error]
          exact Validator.fits_empty _

end Clock

theorem runRestore_run :
    ((runRestore host ctx task).run {}).1 =
      restoreResult ctx (host.restic .restore) (logText (host.restic .restore).lines) := by
  unfold runRestore
  rw [run_bind, restic_run, run_bind, appendLines_run, run_bind, logged_run]
  rfl

theorem fits_runRestore :
    Validator.ResultFits validator ((runRestore host ctx task).run {}).1 ↔
      CommandFits validator ctx "restore" (host.restic .restore) := by
  rw [runRestore_run]
  unfold restoreResult
  cases cancelled : ctx.err .backup with
  | true =>
      rw [if_pos rfl, fits_cancelled]
      exact ⟨fun log => ⟨log, fun running => absurd (running.symm.trans cancelled) nofun⟩,
        fun fits => fits.log⟩
  | false =>
      rw [if_neg Bool.false_ne_true]
      cases ended : succeeded (host.restic .restore) with
      | true =>
          rw [if_pos rfl]
          constructor
          · intro fits
            exact ⟨fits.log, fun _ failed => absurd (failed.symm.trans ended) nofun⟩
          · intro fits
            exact ⟨Or.inl rfl, Validator.fits_empty _, nofun, nofun, Validator.fits_empty _,
              Validator.fits_empty _, fits.log⟩
      | false =>
          rw [if_neg Bool.false_ne_true, fits_failed]
          exact ⟨fun fits => ⟨fits.2, fun _ _ => fits.1⟩,
            fun fits => ⟨fits.error cancelled ended, fits.log⟩⟩

theorem runCheck_run :
    ((runCheck host ctx task).run {}).1 =
      checkResult ctx (host.restic .check) (logText (host.restic .check).lines) := by
  unfold runCheck
  rw [run_bind, restic_run, run_bind, appendLines_run, run_bind, logged_run]
  rfl

theorem damagedError_fits : validator.Fits 20000 damagedError :=
  Validator.fits_of_length_le (by decide)

theorem fits_runCheck :
    Validator.ResultFits validator ((runCheck host ctx task).run {}).1 ↔
      validator.Fits 200000 (logText (host.restic .check).lines) ∧
        (damagedCheck (host.restic .check) = false →
          CommandFits validator ctx "check" (host.restic .check)) := by
  rw [runCheck_run]
  unfold checkResult
  cases cancelled : ctx.err .backup with
  | true =>
      rw [if_pos rfl, fits_cancelled]
      exact ⟨fun log => ⟨log, fun _ => ⟨log, fun running =>
        absurd (running.symm.trans cancelled) nofun⟩⟩, fun fits => fits.1⟩
  | false =>
      rw [if_neg Bool.false_ne_true]
      cases ended : succeeded (host.restic .check) with
      | true =>
          rw [if_pos rfl]
          constructor
          · intro fits
            exact ⟨fits.log, fun _ => ⟨fits.log, fun _ failed =>
              absurd (failed.symm.trans ended) nofun⟩⟩
          · intro fits
            exact ⟨Or.inl rfl, Validator.fits_empty _, nofun, nofun, Validator.fits_empty _,
              Validator.fits_empty _, fits.1⟩
      | false =>
          rw [if_neg Bool.false_ne_true]
          unfold damagedCheck
          cases (host.restic .check).ending.isOk &&
              isDamagedCheckOutput (logText (host.restic .check).lines) with
          | true =>
              rw [if_pos rfl]
              constructor
              · intro fits
                exact ⟨fits.log, nofun⟩
              · intro fits
                exact ⟨Or.inr (Or.inl rfl), Validator.fits_empty _, nofun, nofun,
                  Validator.fits_empty _, damagedError_fits, fits.1⟩
          | false =>
              rw [if_neg Bool.false_ne_true, fits_failed]
              exact ⟨fun fits => ⟨fits.2, fun _ => ⟨fits.2, fun _ _ => fits.1⟩⟩,
                fun fits => ⟨(fits.2 rfl).error cancelled ended, fits.1⟩⟩

theorem fits_runStats :
    Validator.ResultFits validator ((runStats host machine).run {}).1 ↔
      FiguresFit validator host machine := by
  have ran : ((runStats host machine).run {}).1 =
      match statsReading host machine with
      | .ok stats => { status := "success", repoStats := some stats }
      | .error msg => { status := "failed", repoStatsError := msg, error := msg } := by
    unfold runStats
    rw [run_bind, readRepoStats_run]
    cases statsReading host machine with
    | ok stats => rfl
    | error msg => rfl
  rw [ran]
  unfold FiguresFit
  cases statsReading host machine with
  | ok stats =>
      dsimp only
      constructor
      · intro fits
        exact fits.repoStats stats rfl
      · intro counts
        refine ⟨Or.inl rfl, Validator.fits_empty _, nofun, ?_, Validator.fits_empty _,
          Validator.fits_empty _, Validator.fits_empty _⟩
        intro other same
        cases same
        exact counts
  | error msg =>
      dsimp only
      constructor
      · intro fits
        exact fits.error
      · intro fits
        exact ⟨Or.inr (Or.inl rfl), Validator.fits_empty _, nofun, nofun, fits, fits,
          Validator.fits_empty _⟩

/-- A task cancelled before it starts posts a short log. -/
theorem fits_unstarted :
    Validator.ResultFits validator (cancelTask "Cancelled before the agent started it.\n") :=
  fits_cancelled.mpr (Validator.fits_of_length_le (by decide))

/-- A task that may be cancelled before it starts. -/
theorem fits_unless_cancelled {started : Run TaskResult} {Fits : Prop}
    (fits : Validator.ResultFits validator (started.run {}).1 ↔ Fits) :
    Validator.ResultFits validator
        ((if ctx.err .beforeStart then
            return cancelTask "Cancelled before the agent started it.\n"
          else started : Run TaskResult).run {}).1 ↔
      (ctx.err .beforeStart = false → Fits) := by
  cases ctx.err .beforeStart with
  | true => exact ⟨fun _ => nofun, fun _ => fits_unstarted⟩
  | false => exact ⟨fun taken _ => fits.mp taken, fun taken => fits.mpr (taken rfl)⟩

/-- **Results the server takes.** The result that the agent posts for a task satisfies the
server's validation exactly when every text the task produces fits its field and the
repository figures it reads are not negative. -/
theorem result_accepted_iff (validator : Validator) (host : Host) (machine : Machine)
    (ctx : Context) (task : Task)
    (started : validator.isISO8601 machine.pruneStarted = true)
    (finished : validator.isISO8601 machine.pruneFinished = true) :
    validator.accepts ((runTask host machine ctx task).run {}).1.posted ↔
      TaskFits validator host machine ctx task := by
  rw [Validator.accepts_posted_iff]
  unfold runTask TaskFits
  cases task.type with
  | backup =>
      refine fits_unless_cancelled ?_
      rw [runBackup_run]
      exact fits_backupRun started finished
  | check => exact fits_unless_cancelled fits_runCheck
  | stats => exact fits_runStats
  | restore => exact fits_unless_cancelled fits_runRestore

/-- Texts without emoji count by their characters. -/
def characters : Validator where
  length := String.length
  isISO8601 text :=
    text.length = 20 && text.toList.all fun char => char.isDigit || "-T:Z".toList.contains char
  length_le _ := Nat.le_refl _

theorem length_le_of_fits {bound : Nat} {text : String} (fits : characters.Fits bound text) :
    text.length ≤ bound := by
  rcases fits with rfl | short
  · exact Nat.zero_le bound
  · exact short

def clock : Machine where
  pruneStarted := "2026-03-01T02:10:05Z"
  pruneFinished := "2026-03-01T02:14:41Z"

/-- A line that `restic check` prints for a damaged blob. -/
def damagedBlob : String :=
  "error for tree 4bf1c0d2: blob 7c9e6679f1d94f13a1cbd21cbd1b5d7e in pack 550e8400: " ++
    "ciphertext verification failed"

/-- What `restic check` prints for 2001 damaged blobs. -/
def damageReport : List String :=
  List.replicate 2001 damagedBlob ++ ["Fatal: repository contains errors"]

theorem damageReport_length : 200000 < (logText damageReport).length := by
  have blob : 100 ≤ damagedBlob.length := by decide +kernel
  unfold damageReport
  rw [logText_length, List.map_append, List.map_replicate, List.sum_append_nat,
    List.sum_replicate_nat, List.length_append, List.length_replicate]
  omega

def damagedHost : Host where
  restic
    | .check => { ending := .ok 1, lines := damageReport }
    | _ => {}

/-- A check that finds many damaged blobs posts a log that is too long, and the server
refuses its result. -/
theorem damage_report_refused :
    characters.isISO8601 clock.pruneStarted = true ∧
      characters.isISO8601 clock.pruneFinished = true ∧
      ¬ characters.accepts
        ((runTask damagedHost clock {} { type := .check, taskId := 1 }).run {}).1.posted := by
  refine ⟨by decide +kernel, by decide +kernel, ?_⟩
  rw [Validator.accepts_posted_iff]
  intro fits
  have log : characters.Fits 200000 (logText damageReport) := (fits_runCheck.mp fits).1
  exact absurd (length_le_of_fits log) (Nat.not_le.mpr damageReport_length)

/-- A host on which a backup with a prune goes through. -/
def quietHost : Host where
  restic
    | .backup =>
        { messages :=
            [some [("message_type", .text "summary"), ("snapshot_id", .text "4bf1c0d2")]] }
    | .stats => { messages := [some [("total_size", .number 4096)]] }
    | _ => {}

def pruningTask : Task where
  type := .backup
  taskId := 1
  options := some { retention := some { keepLast := some 7, prune := true } }

theorem quiet_backup_taken :
    characters.isISO8601 clock.pruneStarted = true ∧
      characters.isISO8601 clock.pruneFinished = true ∧
      characters.accepts ((runTask quietHost clock {} pruningTask).run {}).1.posted := by
  have started : characters.isISO8601 clock.pruneStarted = true := by decide +kernel
  have finished : characters.isISO8601 clock.pruneFinished = true := by decide +kernel
  refine ⟨started, finished, ?_⟩
  refine (result_accepted_iff characters quietHost clock {} pruningTask started finished).mpr ?_
  intro _
  have completes : backupFailure quietHost {} pruningTask = none := by decide +kernel
  unfold BackupFits
  rw [completes]
  refine ⟨Or.inl (by decide +kernel), Or.inr (by decide +kernel), ?_, ?_⟩
  · intro retention applied runs
    exact ⟨Or.inl rfl, fun failed => absurd failed (by decide)⟩
  · change 0 ≤ (repoStatsFrom _ _).sizeBytes ∧ _
    decide +kernel

end AmberBackup.GoAgent
