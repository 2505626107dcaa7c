import AmberBackup.Jobs.RunRetryService
import AmberBackup.Repositories.RepositoriesService

/-! # Results posted by agents

The result of a task updates the task's run while it is still running. What follows the
update (the repository's figures, the prune the agent ran, the retry or notification)
is not tied to whether the update hit the run, so a late or duplicate result passes it
by and still changes the rest; `submitBackupResult_late_quiet_iff` states exactly when
it changes nothing.
-/

namespace AmberBackup

open Relational

/-- The repository figures an agent reported on a task result. -/
def toStatsReading (result : TaskResult) : StatsReading :=
  match result.repoStats with
  | some stats => .figures (some stats.sizeBytes) stats.snapshotCount
  | none => .failed ((result.repoStatsError.or result.error).getD "stats failed")

def statsReported (result : TaskResult) : Bool :=
  result.repoStats.isSome || result.repoStatsError.isSome

/-- The finished activity of a prune that an agent already ran. -/
def pruneRow (job parent agent : Uuid) (trigger : RunTrigger) (prune : PruneResult)
    (createdAt : Nat) : JobRun where
  jobId := job
  kind := .prune
  parentRunId := some parent
  trigger
  status := if prune.failed then .failed else .success
  agentId := some agent
  startedAt := some prune.startedAt
  finishedAt := some prune.finishedAt
  error := prune.error
  log := prune.log
  createdAt

/-- Records a prune that an agent already ran as a finished activity. -/
def recordPrune (job parent agent repository : Uuid) (trigger : RunTrigger)
    (prune : PruneResult) (reported : Bool) : Service Unit := do
  let world ← .read fun world => world
  let _ ← insertRun (pruneRow job parent agent trigger prune world.now)
  if !prune.failed && !reported then refreshStatsInBackground repository

/-- The run of a task that was handed to the agent, with its job. -/
def taskRun (db : Db) (agent task : Uuid) : Option (JobRun × BackupJob) :=
  joined ((db.jobRuns.get? task).filter fun run => run.agentId = some agent) fun run =>
    db.backupJobs.get? run.jobId

/-- The repository just changed size: a current agent read the new figures itself, only
an older one leaves it to the server. -/
def reportFigures (repository : Uuid) (result : TaskResult) : Service Unit :=
  if statsReported result then recordStats repository (toStatsReading result)
  else if result.status = .success then refreshStatsInBackground repository
  else pure ()

/-- The prune the agent ran after the backup is an activity of its own. -/
def reportPrune (agent task : Uuid) (result : TaskResult) (run : JobRun) (job : BackupJob) :
    Service Unit :=
  match result.prune with
  | none => pure ()
  | some prune =>
      recordPrune run.jobId task agent job.repositoryId run.trigger prune (statsReported result)

/-- What follows the update of the run, whether it hit the run or not. -/
def followUp (agent task : Uuid) (result : TaskResult) (run : JobRun) (job : BackupJob) :
    Service Unit := do
  reportFigures job.repositoryId result
  reportPrune agent task result run job
  detach (.finalize task)

/-- Records the result of a backup task. -/
def submitBackupResult (agent task : Uuid) (result : TaskResult) : Service Unit := do
  let world ← .read fun world => world
  match taskRun world.db agent task with
  | none => .raise (.notFound "Task not found for this agent")
  | some (run, job) =>
      if result.status = .cancelled then updateRuns (.cancelledOnAgent task result.log)
      else
        -- A run cancelled on the server, or settled before, is no longer running.
        updateRuns (.recordResult task result)
        followUp agent task result run job

def Detached.run (platform : Platform) : Detached → Service Unit
  | .refreshStats repository => AmberBackup.refreshStats platform repository
  | .finalize run => AmberBackup.finalize platform run

/-- Runs the started calls in their order; what one of them throws is only logged. -/
def runDetached (platform : Platform) : List Detached → World → World
  | [], world => world
  | call :: rest, world => runDetached platform rest ((call.run platform).run world).2

/-- The world once a result and every call it started are done. -/
def afterResult (platform : Platform) (agent task : Uuid) (result : TaskResult)
    (world : World) : World :=
  let submitted := ((submitBackupResult agent task result).run { world with detached := [] }).2
  runDetached platform submitted.detached { submitted with detached := [] }

/-- Nothing is written and no notification is sent. -/
structure World.Unchanged (before after : World) : Prop where
  db : after.db = before.db
  sent : after.sent = before.sent

/-- The figures a result brings, or makes the server read, repeat what is cached. -/
def figuresQuiet (platform : Platform) (world : World) (result : TaskResult)
    (repository : Repository) : Prop :=
  if statsReported result then (toStatsReading result).quiet world.now repository
  else if result.status = .success then
    (readFigures platform world.db repository).quiet world.now repository
  else True

/-- A result whose follow-up has nothing to do. -/
structure QuietResult (platform : Platform) (world : World) (task : Uuid)
    (result : TaskResult) (run : JobRun) (job : BackupJob) (repository : Repository) :
    Prop where
  noPrune : result.prune = none
  figures : figuresQuiet platform world result repository
  noRetry : retryDue world.db task run job = false
  silent : notifiedChannels world.db run job = []

section LateResult

variable {platform : Platform} {world : World} {agent task : Uuid} {result : TaskResult}
  {run : JobRun} {job : BackupJob} {repository : Repository}

/-- A run that is no longer running is passed by. -/
theorem recordResult_late {db : Db} (now : Nat) (present : db.jobRuns.get? task = some run)
    (late : run.status ≠ .running) : db.updateRuns now (.recordResult task result) = db := by
  have same : db.jobRuns.update (RunUpdate.hits db (.recordResult task result))
      (RunUpdate.set now (.recordResult task result)) = db.jobRuns := by
    refine Table.update_eq_self_iff.mpr ?_
    intro id row listed hit
    simp only [RunUpdate.hits, Bool.and_eq_true, decide_eq_true_eq] at hit
    obtain ⟨rfl, running⟩ := hit
    rw [present] at listed
    cases listed
    exact absurd running late
  unfold Db.updateRuns
  rw [same]

/-- Submitting a late result is following up on it. -/
theorem submitBackupResult_late (present : world.db.jobRuns.get? task = some run)
    (owner : run.agentId = some agent) (job_present : world.db.backupJobs.get? run.jobId = some job)
    (late : run.status ≠ .running) (reported : result.status ≠ .cancelled) :
    (submitBackupResult agent task result).run world =
      (followUp agent task result run job).run world := by
  have found : taskRun world.db agent task = some (run, job) := by
    refine joined_of ?_ job_present
    rw [present]
    simp [owner]
  unfold submitBackupResult
  rw [Procedure.run_bind_read, found]
  dsimp only
  rw [if_neg reported]
  unfold updateRuns
  rw [Procedure.run_bind_write, recordResult_late world.now present late]

/-- The world after a late result's figures are recorded: those it reports, or those the
server reads where it reports none for a success. -/
def World.afterFigures (platform : Platform) (world : World) (result : TaskResult)
    (id : Uuid) (repository : Repository) : World :=
  if statsReported result then
    { world with db := world.db.withReading world.now id repository (toStatsReading result) }
  else if result.status = .success then
    { world with
      db := world.db.withReading world.now id repository
        (readFigures platform world.db repository) }
  else world

theorem afterFigures_frame (platform : Platform) (world : World) (result : TaskResult)
    (id : Uuid) (repository : Repository) :
    (world.afterFigures platform result id repository).db.jobRuns = world.db.jobRuns ∧
      (world.afterFigures platform result id repository).db.backupJobs = world.db.backupJobs ∧
      (world.afterFigures platform result id repository).db.notificationChannels =
        world.db.notificationChannels ∧
      (world.afterFigures platform result id repository).sent = world.sent := by
  unfold World.afterFigures
  split
  · exact ⟨rfl, rfl, rfl, rfl⟩
  · split <;> exact ⟨rfl, rfl, rfl, rfl⟩

theorem afterFigures_db_iff
    (repository_present : world.db.repositories.get? job.repositoryId = some repository) :
    (world.afterFigures platform result job.repositoryId repository).db = world.db ↔
      figuresQuiet platform world result repository := by
  unfold World.afterFigures figuresQuiet
  by_cases given : statsReported result = true
  · simp only [given, ↓reduceIte]
    exact withReading_eq_self_iff repository_present world.now (toStatsReading result)
  · by_cases succeeded : result.status = .success
    · simp only [given, succeeded, ↓reduceIte, Bool.false_eq_true]
      exact withReading_eq_self_iff repository_present world.now _
    · simp [given, succeeded]

/-- Following up on a result without a prune records the figures and settles the run. -/
theorem followUp_of_noPrune (idle : world.detached = []) (noPrune : result.prune = none)
    (repository_present : world.db.repositories.get? job.repositoryId = some repository) :
    let followed := ((followUp agent task result run job).run world).2
    runDetached platform followed.detached { followed with detached := [] } =
      ((finalize platform task).run
        (world.afterFigures platform result job.repositoryId repository)).2 := by
  obtain ⟨db, now, detached, sent⟩ := world
  cases idle
  have pruned : reportPrune agent task result run job = pure () := by
    unfold reportPrune
    rw [noPrune]
  unfold followUp World.afterFigures reportFigures
  rw [pruned]
  by_cases given : statsReported result = true
  · simp only [given, ↓reduceIte]
    rw [Procedure.run_bind_of_ok (recordStats_run repository_present _)]
    rfl
  · by_cases succeeded : result.status = .success
    · simp only [given, succeeded, ↓reduceIte, Bool.false_eq_true]
      change ((finalize platform task).run
        ((refreshStats platform job.repositoryId).run ⟨db, now, [], sent⟩).2).2 = _
      rw [refreshStats_run platform repository_present]
    · simp only [given, succeeded, ↓reduceIte, Bool.false_eq_true]
      rfl

theorem runDetached_runs_le (platform : Platform) (calls : List Detached) (world : World) :
    world.db.jobRuns.rows.length ≤
      (runDetached platform calls world).db.jobRuns.rows.length := by
  induction calls generalizing world with
  | nil => exact Nat.le_refl _
  | cons call rest ih =>
      refine Nat.le_trans ?_ (ih _)
      cases call with
      | refreshStats id =>
          exact Nat.le_of_eq (congrArg (fun runs => runs.rows.length)
            (refreshStats_runs platform id world)).symm
      | finalize id => exact finalize_runs_le platform id world

theorem reportFigures_runs
    (repository_present : world.db.repositories.get? job.repositoryId = some repository)
    (result : TaskResult) :
    ∃ after, (reportFigures job.repositoryId result).run world = (.ok (), after) ∧
      after.db.jobRuns = world.db.jobRuns := by
  unfold reportFigures
  split
  · exact ⟨_, recordStats_run repository_present _, rfl⟩
  · split <;> exact ⟨_, rfl, rfl⟩

/-- Recording a prune inserts its row, whatever it starts besides. -/
theorem reportPrune_runs {prune : PruneResult} (pruned : result.prune = some prune)
    (agent task : Uuid) (run : JobRun) (job : BackupJob) (world : World) :
    ∃ after, (reportPrune agent task result run job).run world = (.ok (), after) ∧
      after.db.jobRuns.rows.length = world.db.jobRuns.rows.length + 1 := by
  have inserted : ∀ row : JobRun,
      (world.db.jobRuns.insert (freshId world.db.jobRuns) row).rows.length =
        world.db.jobRuns.rows.length + 1 := by
    intro row
    rw [Table.rows_insert (get?_freshId _), List.length_append]
    rfl
  unfold reportPrune
  rw [pruned]
  dsimp only
  unfold recordPrune
  rw [Procedure.run_bind_read, Procedure.run_bind_of_ok rfl]
  split
  · exact ⟨_, rfl, inserted _⟩
  · exact ⟨_, rfl, inserted _⟩

/-- Following up on a result with a prune adds the prune's row. -/
theorem followUp_prune_runs {prune : PruneResult} (pruned : result.prune = some prune)
    (agent task : Uuid) (run : JobRun)
    (repository_present : world.db.repositories.get? job.repositoryId = some repository) :
    ((followUp agent task result run job).run world).2.db.jobRuns.rows.length =
      world.db.jobRuns.rows.length + 1 := by
  obtain ⟨middle, figures, kept⟩ := reportFigures_runs repository_present result
  obtain ⟨after, recorded, counted⟩ := reportPrune_runs pruned agent task run job middle
  unfold followUp
  rw [Procedure.run_bind_of_ok figures, Procedure.run_bind_of_ok recorded, ← kept, ← counted]
  rfl

/-- The world once the follow-up on a result and every call it started are done. -/
def afterFollowUp (platform : Platform) (agent task : Uuid) (result : TaskResult)
    (run : JobRun) (job : BackupJob) (world : World) : World :=
  let followed := ((followUp agent task result run job).run world).2
  runDetached platform followed.detached { followed with detached := [] }

theorem followUp_quiet_iff (idle : world.detached = [])
    (present : world.db.jobRuns.get? task = some run)
    (job_present : world.db.backupJobs.get? run.jobId = some job)
    (repository_present : world.db.repositories.get? job.repositoryId = some repository) :
    world.Unchanged (afterFollowUp platform agent task result run job world) ↔
      QuietResult platform world task result run job repository := by
  unfold afterFollowUp
  cases pruned : result.prune with
  | some prune =>
      constructor
      · rintro ⟨same, -⟩
        have added := followUp_prune_runs pruned agent task run repository_present
        have grown := runDetached_runs_le platform
          ((followUp agent task result run job).run world).2.detached
          { ((followUp agent task result run job).run world).2 with detached := [] }
        rw [same] at grown
        dsimp only at grown
        omega
      · intro quiet
        have noPrune := quiet.noPrune
        rw [pruned] at noPrune
        cases noPrune
  | none =>
      rw [followUp_of_noPrune idle pruned repository_present]
      obtain ⟨runs, jobs, channels, silent⟩ :=
        afterFigures_frame platform world result job.repositoryId repository
      have stored : (world.afterFigures platform result job.repositoryId
          repository).db.jobRuns.get? task = some run := by
        rw [runs]
        exact present
      have owned : (world.afterFigures platform result job.repositoryId
          repository).db.backupJobs.get? run.jobId = some job := by
        rw [jobs]
        exact job_present
      have settled := finalize_quiet_iff platform stored owned
      have due : retryDue (world.afterFigures platform result job.repositoryId repository).db
          task run job = retryDue world.db task run job := by
        unfold retryDue
        rw [runs]
      have notified : notifiedChannels
          (world.afterFigures platform result job.repositoryId repository).db run job =
            notifiedChannels world.db run job := by
        unfold notifiedChannels enabledChannels
        rw [channels]
      rw [due, notified] at settled
      constructor
      · rintro ⟨same, unsent⟩
        have kept : (world.afterFigures platform result job.repositoryId repository).db =
            world.db := by
          have frame := finalize_frame platform task
            (world.afterFigures platform result job.repositoryId repository)
          rw [same] at frame
          rw [frame, ← runs]
        obtain ⟨noRetry, quiet⟩ := settled.mp ⟨same.trans kept.symm, unsent.trans silent.symm⟩
        exact ⟨pruned, (afterFigures_db_iff repository_present).mp kept, noRetry, quiet⟩
      · intro quiet
        have kept := (afterFigures_db_iff repository_present).mpr quiet.figures
        obtain ⟨same, unsent⟩ := settled.mpr ⟨quiet.noRetry, quiet.silent⟩
        exact ⟨same.trans kept, unsent.trans silent⟩

/-- **A late result is quiet exactly when its follow-up has nothing to do.** For a run that
is no longer running, a result of a success or failure changes nothing if and only if it
brings no prune, its figures repeat what is cached, no retry of the stored run is due, and
the stored run is not to be announced. -/
theorem submitBackupResult_late_quiet_iff
    (present : world.db.jobRuns.get? task = some run) (owner : run.agentId = some agent)
    (job_present : world.db.backupJobs.get? run.jobId = some job)
    (repository_present : world.db.repositories.get? job.repositoryId = some repository)
    (late : run.status ≠ .running) (reported : result.status ≠ .cancelled) :
    world.Unchanged (afterResult platform agent task result world) ↔
      QuietResult platform world task result run job repository := by
  obtain ⟨db, now, detached, sent⟩ := world
  have submitted : (submitBackupResult agent task result).run ⟨db, now, [], sent⟩ =
      (followUp agent task result run job).run ⟨db, now, [], sent⟩ :=
    submitBackupResult_late present owner job_present late reported
  have followed : afterResult platform agent task result ⟨db, now, detached, sent⟩ =
      afterFollowUp platform agent task result run job ⟨db, now, [], sent⟩ := by
    unfold afterResult afterFollowUp
    dsimp only
    rw [submitted]
  rw [followed]
  have settled : World.Unchanged ⟨db, now, [], sent⟩
      (afterFollowUp platform agent task result run job ⟨db, now, [], sent⟩) ↔
        QuietResult platform ⟨db, now, [], sent⟩ task result run job repository :=
    followUp_quiet_iff rfl present job_present repository_present
  constructor
  · rintro ⟨same, silent⟩
    obtain ⟨noPrune, figures, noRetry, quiet⟩ := settled.mp ⟨same, silent⟩
    exact ⟨noPrune, figures, noRetry, quiet⟩
  · rintro ⟨noPrune, figures, noRetry, quiet⟩
    obtain ⟨same, silent⟩ := settled.mpr ⟨noPrune, figures, noRetry, quiet⟩
    exact ⟨same, silent⟩

end LateResult

/-- A server whose job 1 was cancelled on run 3 while agent 7 worked on it. -/
def cancelledRunWorld : World where
  db :=
    { repositories := .ofList [(5, {
        name := "nightly", targetId := none, repoConfig := [], repoPasswordSecretId := 9 })]
      backupJobs := .ofList [(1, {
        name := "nightly", location := .agent, agentId := some 7, repositoryId := 5 })]
      jobRuns := .ofList [(3, {
        jobId := 1, trigger := .schedule, status := .cancelled, agentId := some 7,
        createdAt := 0 })] }
  now := 1000

/-- A runtime without stored secrets whose repositories hold one snapshot. -/
def examplePlatform : Platform where
  decrypt _ _ _ := none
  parseCredentials _ := none
  readFigures _ := .ok (some 1024, 1)
  publicBaseUrl := "https://backup.example.com"

/-- The success an agent reports for the cancelled run replaces the figures of the
repository. -/
theorem late_result_replaces_figures :
    ((cancelledRunWorld.db.jobRuns.get? 3).map fun run => (run.status, run.agentId)) =
        some (.cancelled, some 7) ∧
      ¬ cancelledRunWorld.Unchanged (afterResult examplePlatform 7 3
        { status := .success, repoStats := some { sizeBytes := 2048, snapshotCount := 2 } }
        cancelledRunWorld) := by
  refine ⟨by decide, fun unchanged => ?_⟩
  have figures := congrArg (fun db => (db.repositories.get? 5).map (·.sizeBytes)) unchanged.db
  revert figures
  decide

/-- A failure reported for the cancelled run is quiet. -/
theorem late_failure_is_quiet :
    cancelledRunWorld.Unchanged (afterResult examplePlatform 7 3
      { status := .failed, error := some "signal: terminated" } cancelledRunWorld) :=
  (submitBackupResult_late_quiet_iff rfl rfl rfl rfl (by decide) (by decide)).mpr
    ⟨rfl, trivial, rfl, rfl⟩

end AmberBackup
