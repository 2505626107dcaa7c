import AmberBackup.Notifications.NotificationsService

/-! # Retries of failed backups

A failed backup whose job allows another attempt is queued again, held back until the
job's retry delay has passed; every other finished run is announced. Settling a run
leaves everything as it was exactly when neither applies (`finalize_quiet_iff`).
-/

namespace AmberBackup

open Relational

/-- Wait before a retry when a job does not set one. -/
def defaultRetryDelaySeconds : Nat := 300

/-- Only real failures of backups are retried, while the job has retries left.
`attempt` counts the first try, so N retries allow N + 1 attempts. -/
def retryAllowed (run : JobRun) (job : BackupJob) : Bool :=
  run.kind = .backup && run.status = .failed && run.attempt ≤ job.retryMax

/-- Another backup of the job that is on its way. -/
def otherActive (job id : Uuid) (other : Uuid) (row : JobRun) : Bool :=
  row.jobId = job && row.kind = .backup && row.status.active && other ≠ id

/-- The instant a retry becomes due. -/
def retryDueAt (now retryDelaySeconds : Nat) : Nat := now + retryDelaySeconds * 1000

/-- The queued row of the next attempt. -/
def retryRow (job : Uuid) (trigger : RunTrigger) (attempt : Nat) (retryOf : Uuid)
    (notBefore createdAt : Nat) : JobRun where
  jobId := job
  kind := .backup
  trigger
  status := .queued
  attempt
  retryOfRunId := some retryOf
  notBefore := some notBefore
  createdAt

/-- Queues the next attempt of a failed backup if its job has retries left. -/
def scheduleRetry (id : Uuid) : Service (Option Uuid) := do
  let world ← .read fun world => world
  match joined (world.db.jobRuns.get? id) fun run => world.db.backupJobs.get? run.jobId with
  | none => return none
  | some (run, job) =>
      if retryAllowed run job && !world.db.jobRuns.anyWhere (otherActive run.jobId id) then
        let retry ← insertRun (retryRow run.jobId run.trigger (run.attempt + 1) id
          (retryDueAt world.now job.retryDelaySeconds) world.now)
        return some retry
      else return none

/-- Settles a run that has reached a terminal state: queues a retry when one is due and
otherwise fires the configured notifications. -/
def finalize (platform : Platform) (id : Uuid) : Service Unit := do
  match ← scheduleRetry id with
  | some _ => return
  | none => notifyJobRun platform id

/-- Whether settling a run queues a retry of it. -/
def retryDue (db : Db) (id : Uuid) (run : JobRun) (job : BackupJob) : Bool :=
  retryAllowed run job && !db.jobRuns.anyWhere (otherActive run.jobId id)

section Settled

variable {world : World} {id : Uuid} {run : JobRun} {job : BackupJob}

theorem scheduleRetry_run (present : world.db.jobRuns.get? id = some run)
    (owner : world.db.backupJobs.get? run.jobId = some job) :
    (scheduleRetry id).run world =
      if retryDue world.db id run job then
        (.ok (some (freshId world.db.jobRuns)),
          { world with
            db := { world.db with
              jobRuns := world.db.jobRuns.insert (freshId world.db.jobRuns)
                (retryRow run.jobId run.trigger (run.attempt + 1) id
                  (retryDueAt world.now job.retryDelaySeconds) world.now) } })
      else (.ok none, world) := by
  unfold scheduleRetry
  rw [Procedure.run_bind_read, joined_of present owner]
  dsimp only
  unfold retryDue
  split <;> rfl

/-- The rows a settled run leaves: one more when a retry was due. -/
theorem finalize_runs (platform : Platform) (present : world.db.jobRuns.get? id = some run)
    (owner : world.db.backupJobs.get? run.jobId = some job) :
    ((finalize platform id).run world).2.db.jobRuns.rows.length =
      world.db.jobRuns.rows.length + if retryDue world.db id run job then 1 else 0 := by
  unfold finalize
  by_cases due : retryDue world.db id run job = true
  · have queued := scheduleRetry_run present owner
    rw [if_pos due] at queued
    rw [Procedure.run_bind_of_ok queued, if_pos due]
    change (world.db.jobRuns.insert _ _).rows.length = _
    rw [Table.rows_insert (get?_freshId _), List.length_append]
    rfl
  · have none := scheduleRetry_run present owner
    rw [if_neg due] at none
    rw [Procedure.run_bind_of_ok none, if_neg due, notifyJobRun_db]
    rfl

/-- Settling a run without a due retry is announcing it. -/
theorem finalize_of_not_due (platform : Platform)
    (present : world.db.jobRuns.get? id = some run)
    (owner : world.db.backupJobs.get? run.jobId = some job)
    (none : retryDue world.db id run job = false) :
    (finalize platform id).run world = (notifyJobRun platform id).run world := by
  have nothing := scheduleRetry_run present owner
  rw [none] at nothing
  unfold finalize
  rw [Procedure.run_bind_of_ok nothing]

theorem finalize_of_missing (platform : Platform)
    (missing : joined (world.db.jobRuns.get? id) (fun run =>
      world.db.backupJobs.get? run.jobId) = none) :
    (finalize platform id).run world = (notifyJobRun platform id).run world := by
  have nothing : (scheduleRetry id).run world = (.ok none, world) := by
    unfold scheduleRetry
    rw [Procedure.run_bind_read, missing]
    rfl
  unfold finalize
  rw [Procedure.run_bind_of_ok nothing]

/-- Settling a run writes to the runs only. -/
theorem finalize_frame (platform : Platform) (id : Uuid) (world : World) :
    ((finalize platform id).run world).2.db =
      { world.db with jobRuns := ((finalize platform id).run world).2.db.jobRuns } := by
  cases found : joined (world.db.jobRuns.get? id) fun run =>
      world.db.backupJobs.get? run.jobId with
  | none =>
      rw [finalize_of_missing platform found, notifyJobRun_db]
  | some pair =>
      obtain ⟨run, job⟩ := pair
      obtain ⟨present, owner⟩ := of_joined found
      by_cases due : retryDue world.db id run job = true
      · have queued := scheduleRetry_run present owner
        rw [if_pos due] at queued
        unfold finalize
        rw [Procedure.run_bind_of_ok queued]
        rfl
      · rw [finalize_of_not_due platform present owner (by simpa using due), notifyJobRun_db]

/-- Settling a run removes none. -/
theorem finalize_runs_le (platform : Platform) (id : Uuid) (world : World) :
    world.db.jobRuns.rows.length ≤
      ((finalize platform id).run world).2.db.jobRuns.rows.length := by
  cases found : joined (world.db.jobRuns.get? id) fun run =>
      world.db.backupJobs.get? run.jobId with
  | none =>
      exact Nat.le_of_eq (by rw [finalize_of_missing platform found, notifyJobRun_db])
  | some pair =>
      obtain ⟨run, job⟩ := pair
      obtain ⟨present, owner⟩ := of_joined found
      rw [finalize_runs platform present owner]
      omega

/-- Settling a run changes neither the database nor the notifications exactly when no
retry is due and no channel is to be notified. -/
theorem finalize_quiet_iff (platform : Platform) (present : world.db.jobRuns.get? id = some run)
    (owner : world.db.backupJobs.get? run.jobId = some job) :
    (((finalize platform id).run world).2.db = world.db ∧
        ((finalize platform id).run world).2.sent = world.sent) ↔
      retryDue world.db id run job = false ∧ notifiedChannels world.db run job = [] := by
  constructor
  · rintro ⟨same, silent⟩
    have none : retryDue world.db id run job = false := by
      by_contra due
      have counted := finalize_runs platform present owner
      rw [same, if_pos (by simpa using due)] at counted
      omega
    refine ⟨none, ?_⟩
    rw [finalize_of_not_due platform present owner none] at silent
    exact (notifyJobRun_quiet_iff platform present owner).mp silent
  · rintro ⟨none, quiet⟩
    rw [finalize_of_not_due platform present owner none]
    exact ⟨notifyJobRun_db platform id world,
      (notifyJobRun_quiet_iff platform present owner).mpr quiet⟩

end Settled

end AmberBackup
