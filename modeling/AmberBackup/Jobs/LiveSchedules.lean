import AmberBackup.Jobs.CronEntries
import AmberBackup.Jobs.EditCases
import AmberBackup.Lib.Sequences

/-! # Schedules that fire

A check schedule that is on needs an expression, but the creation of a job leaves the empty
one to the parser, and an edit writes it without a look. In sequences of calls that name no
empty expression every job, and every check schedule that is on, has an expression that was
let through, and a registration enters each of them; any other creation or edit leaves a job
whose expression is empty (`schedules_stay_live`).
-/

namespace AmberBackup

open Relational Transition

inductive ScheduleAction where
  | createJob (user : RequestUser) (dto : CreateJobDto)
  | updateJob (user : RequestUser) (job : Uuid) (dto : UpdateJobDto)
  | setIntegrityCheck (user : RequestUser) (job : Uuid) (dto : IntegrityCheckConfigDto)

def ScheduleAction.call (editing : Editing) : ScheduleAction → Service Unit
  | .createJob user dto => do
      let _ ← AmberBackup.createJob editing user dto
  | .updateJob user job dto => AmberBackup.updateJob editing user job dto
  | .setIntegrityCheck user job dto => AmberBackup.setIntegrityCheck editing user job dto

/-- An expression that `validateCron` was asked about, and not the empty one. -/
def Editing.schedules (editing : Editing) (expr : String) : Bool :=
  expr ≠ "" && editing.validCron expr

/-- The job has such an expression, and so has its check schedule while it is on. -/
def BackupJob.live (editing : Editing) (job : BackupJob) : Bool :=
  editing.schedules job.cronExpr &&
    (job.integrityCheck.enabled ≠ some true || job.integrityCheck.cronExpr.any editing.schedules)

def Db.Live (editing : Editing) (db : Db) : Prop :=
  ∀ id job, db.backupJobs.get? id = some job → job.live editing = true

/-- Sequences of calls from a database whose schedules are live, such as the empty one. -/
def scheduleCalls (editing : Editing) : System World ScheduleAction :=
  Procedure.sequences (fun world => world.db.Live editing) (ScheduleAction.call editing)

/-- The call names no empty expression for a job. -/
def namesExpression : ScheduleAction → Bool
  | .createJob _ dto => dto.cronExpr ≠ ""
  | .updateJob _ _ dto => dto.job.cronExpr ≠ some ""
  | .setIntegrityCheck .. => true

abbrev NamesExpression (_ : World) (action : ScheduleAction) : Prop :=
  namesExpression action = true

section Call

variable {editing : Editing} {user : RequestUser} {world next : World}

theorem Editing.schedules_iff {expr : String} (valid : editing.validCron expr = true) :
    editing.schedules expr = true ↔ expr ≠ "" := by
  rw [schedules, valid, Bool.and_true, decide_eq_true_eq]

/-- A creation enters a live job exactly if its expression is not empty. -/
theorem createJob_live {dto : CreateJobDto} {job : Uuid} (live : world.db.Live editing)
    (returned : (createJob editing user dto).run world = (.ok job, next)) :
    next.db.Live editing ↔ dto.cronExpr ≠ "" := by
  obtain ⟨backendType, config, overrides, credential, middle, created⟩ :=
    createJob_returns returned
  obtain ⟨secrets, restores, rfl, -⟩ := created.before
  obtain rfl := (Prod.mk.inj created.inserted).2
  have fresh : world.db.backupJobs.get? (freshId world.db.backupJobs) = none := get?_freshId _
  constructor
  · intro after
    have entered := after _ _ (Table.get?_insert_self fresh)
    rw [BackupJob.live, Bool.and_eq_true] at entered
    exact (Editing.schedules_iff created.cron).mp entered.1
  · intro named id row found
    rcases Table.insert_cases fresh found with ⟨-, rfl⟩ | ⟨-, before⟩
    · rw [BackupJob.live, (Editing.schedules_iff created.cron).mpr named]
      rfl
    · exact live id row before

/-- An edit leaves a live job exactly if it does not write the empty expression. -/
theorem updateJob_live {job : Uuid} {dto : UpdateJobDto} (live : world.db.Live editing)
    (returned : (updateJob editing user job dto).run world = (.ok (), next)) :
    next.db.Live editing ↔ dto.job.cronExpr ≠ some "" := by
  obtain ⟨row, repository, place, edit, middle, edited⟩ := updateJob_returns returned
  obtain ⟨secrets, restores, rfl, -⟩ := edited.before
  obtain ⟨others, changed, rfl, -⟩ := edited.after
  have stored := (of_joined edited.found).1
  constructor
  · intro after emptied
    have written : (world.db.backupJobs.update (fun id _ => id = job)
        (dto.job.apply world.now)).get? job = some (dto.job.apply world.now row) := by
      rw [Table.get?_update_self, stored]
      rfl
    have scheduled := after job _ written
    rw [BackupJob.live, Bool.and_eq_true, Editing.schedules, Bool.and_eq_true] at scheduled
    have filled := of_decide_eq_true scheduled.1.1
    exact filled (by rw [JobPatch.apply, emptied]; rfl)
  · intro named id after found
    rcases Table.update_cases found with ⟨rfl, old, before, rfl⟩ | ⟨-, before⟩
    · have scheduled := live id old before
      rw [BackupJob.live, Bool.and_eq_true] at scheduled
      have cron := edited.cron
      rw [BackupJob.live, Bool.and_eq_true]
      refine ⟨?_, scheduled.2⟩
      cases changed : dto.job.cronExpr with
      | none =>
          rw [JobPatch.apply, changed]
          exact scheduled.1
      | some expr =>
          rw [changed, Option.all_some, Bool.or_eq_true, decide_eq_true_eq] at cron
          have filled : expr ≠ "" := fun empty => named (by rw [changed, empty])
          rw [JobPatch.apply, changed]
          exact (Editing.schedules_iff (cron.resolve_left filled)).mpr filled
    · exact live id after before

/-- A schedule that is set is off, or has an expression. -/
theorem setIntegrityCheck_live {job : Uuid} {dto : IntegrityCheckConfigDto}
    (live : world.db.Live editing)
    (returned : (setIntegrityCheck editing user job dto).run world = (.ok (), next)) :
    next.db.Live editing := by
  obtain ⟨expression, rfl⟩ := setIntegrityCheck_returns returned
  intro id after found
  rcases Table.update_cases found with ⟨rfl, old, before, rfl⟩ | ⟨-, before⟩
  · have scheduled := live id old before
    rw [BackupJob.live, Bool.and_eq_true] at scheduled
    rw [BackupJob.live, Bool.and_eq_true, Bool.or_eq_true, decide_eq_true_eq]
    refine ⟨scheduled.1, ?_⟩
    by_cases on : dto.enabled = true
    · exact .inr (expression on)
    · exact .inl fun enabled => on (Option.some.inj enabled)
  · exact live id after before

theorem scheduleCall_live {action : ScheduleAction} (live : world.db.Live editing)
    (returned : (action.call editing).run world = (.ok (), next)) :
    next.db.Live editing ↔ NamesExpression world action := by
  cases action with
  | createJob user dto =>
      obtain ⟨job, after, created, same⟩ := Procedure.bind_returns.mp returned
      obtain rfl := (Prod.mk.inj same).2
      rw [createJob_live live created, NamesExpression, namesExpression, decide_eq_true_eq]
  | updateJob user job dto =>
      rw [updateJob_live live returned, NamesExpression, namesExpression, decide_eq_true_eq]
  | setIntegrityCheck user job dto => exact iff_of_true (setIntegrityCheck_live live returned) rfl

end Call

/-- The registration of a job enters each of its live expressions that is on. -/
theorem registerAll_live {editing : Editing} {runtime : CronRuntime} {timezone : String}
    {registry : CronRegistry} {id : Uuid} {job : BackupJob}
    (accepted : ∀ expr, expr ≠ "" → editing.validCron expr = true →
      runtime.accepts expr timezone = true)
    (live : job.live editing = true) (enabled : job.enabled = true)
    (free : ∀ name : CronName, name.job = id → registry name = none) :
    registerAll runtime timezone registry id job (.backupJob id) =
        some ⟨job.cronExpr, timezone⟩ ∧
      (job.integrityCheck.enabled = some true →
        ∃ expr, job.integrityCheck.cronExpr = some expr ∧
          registerAll runtime timezone registry id job (.checkJob id) = some ⟨expr, timezone⟩) := by
  have taken : ∀ expr, editing.schedules expr = true → runtime.accepts expr timezone = true := by
    intro expr scheduled
    rw [Editing.schedules, Bool.and_eq_true, decide_eq_true_eq] at scheduled
    exact accepted expr scheduled.1 scheduled.2
  rw [BackupJob.live, Bool.and_eq_true, Bool.or_eq_true, decide_eq_true_eq] at live
  have entered : ∀ name : CronName, name.job = id →
      registerAll runtime timezone registry id job name =
        entryFor runtime timezone (job.cronExpr? name) := by
    intro name own
    rw [registerAll_apply enabled, if_pos own, free name own, Option.none_or]
  refine ⟨?_, ?_⟩
  · rw [entered (.backupJob id) rfl, BackupJob.cronExpr?, if_pos enabled, entryFor,
      Option.filter_some, if_pos (taken _ live.1)]
    rfl
  · intro on
    obtain ⟨expr, named, scheduled⟩ :=
      (Option.any_eq_true _ _).mp (live.2.resolve_left fun off => off on)
    have filled : expr ≠ "" := by
      rw [Editing.schedules, Bool.and_eq_true, decide_eq_true_eq] at scheduled
      exact scheduled.1
    refine ⟨expr, named, ?_⟩
    have asked : job.cronExpr? (.checkJob id) = some expr := by
      simp [BackupJob.cronExpr?, enabled, on, named, filled]
    rw [entered (.checkJob id) rfl, asked, entryFor, Option.filter_some,
      if_pos (taken _ scheduled)]
    rfl

/-- **Schedules stay live.** In every sequence of successful creations, edits and settings of
check schedules that name no empty expression for a job, from a database whose schedules are
live, every schedule is a nonempty expression that was validated, and the registration of a job
that is enabled enters it and its check schedule; a successful call that names the empty
expression leaves a job with it. -/
theorem schedules_stay_live {editing : Editing} {runtime : CronRuntime} {timezone : String}
    {start : World} (live : start.db.Live editing)
    (accepted : ∀ expr, expr ≠ "" → editing.validCron expr = true →
      runtime.accepts expr timezone = true) :
    (∀ world, (scheduleCalls editing).Steps NamesExpression start world →
        world.db.Live editing ∧
          ∀ id job, world.db.backupJobs.get? id = some job → job.enabled = true →
            ∀ registry : CronRegistry, (∀ name : CronName, name.job = id → registry name = none) →
              registerAll runtime timezone registry id job (.backupJob id) =
                  some ⟨job.cronExpr, timezone⟩ ∧
                (job.integrityCheck.enabled = some true →
                  ∃ expr, job.integrityCheck.cronExpr = some expr ∧
                    registerAll runtime timezone registry id job (.checkJob id) =
                      some ⟨expr, timezone⟩)) ∧
      ∀ world action next, (scheduleCalls editing).Steps NamesExpression start world →
        (action.call editing).run world = (.ok (), next) →
          (next.db.Live editing ↔ NamesExpression world action) := by
  have kept : ∀ world, (scheduleCalls editing).Steps NamesExpression start world →
      world.db.Live editing := by
    intro world steps
    refine steps.stable (fun world => world.db.Live editing) (.initial live) ?_ live
    intro world action next _ stands names moved
    exact (scheduleCall_live stands (Procedure.step_eq_some.mp moved)).mpr names
  refine ⟨?_, ?_⟩
  · intro world steps
    refine ⟨kept world steps, ?_⟩
    intro id job found enabled registry free
    exact registerAll_live accepted (kept world steps id job found) enabled free
  · intro world action next steps returned
    exact scheduleCall_live (kept world steps) returned

/-- A server without jobs. -/
def noJobs : World where
  now := 0
  db := {}

theorem noJobs_live (editing : Editing) : noJobs.db.Live editing := by
  intro id job found
  cases found

/-- A cron package that takes every expression but the empty one. -/
def nonEmptyExpressions : CronRuntime where
  validCron _ := true
  accepts expr _ := expr ≠ ""
  isValidTimezone _ := true

/-- The nightly backup of a directory into another one. -/
def nightlyToDisk : CreateJobDto where
  name := "nightly"
  location := .«local»
  paths := ["/srv"]
  repoConfig := some [("path", .text "/var/backups")]
  repoPassword := "secret"
  cronExpr := "0 3 * * *"

/-- An edit clears the expression of a job. -/
theorem cleared_schedule_is_dead :
    ¬ ∀ (editing : Editing) (start world : World), start.db.Live editing →
      (scheduleCalls editing).Steps (fun _ _ => True) start world → world.db.Live editing := by
  intro claim
  have ends : ((scheduleCalls vault).runWithin (fun _ _ => True) noJobs
      [.createJob admin nightlyToDisk, .updateJob admin 0 { job := { cronExpr := some "" } }]).any
        (fun world => (world.db.backupJobs.get? 0).any fun job => !job.live vault) = true := by
    decide +kernel
  obtain ⟨world, ran, found⟩ := (Option.any_eq_true _ _).mp ends
  obtain ⟨job, present, dead⟩ := (Option.any_eq_true _ _).mp found
  rw [claim vault noJobs world (noJobs_live vault) (System.steps_of_runWithin ran) 0 job present]
    at dead
  exact absurd dead Bool.false_ne_true

/-- The time of a job is changed, and a check schedule is set; both are registered. -/
theorem rescheduled_job_fires :
    ∃ world, (scheduleCalls vault).Steps NamesExpression noJobs world ∧
      ∃ job, world.db.backupJobs.get? 0 = some job ∧
        registerAll nonEmptyExpressions "UTC" (fun _ => none) 0 job (.backupJob 0) =
          some ⟨"0 4 * * *", "UTC"⟩ := by
  have ends : ((scheduleCalls vault).runWithin NamesExpression noJobs
      [.createJob admin nightlyToDisk,
        .setIntegrityCheck admin 0
          { enabled := true, cronExpr := some "0 5 * * 0", level := .full },
        .updateJob admin 0 { job := { cronExpr := some "0 4 * * *" } }]).any (fun world =>
          (world.db.backupJobs.get? 0).any fun job =>
            job.enabled && job.cronExpr = "0 4 * * *") = true := by
    decide +kernel
  obtain ⟨world, ran, found⟩ := (Option.any_eq_true _ _).mp ends
  obtain ⟨job, present, both⟩ := (Option.any_eq_true _ _).mp found
  simp only [Bool.and_eq_true, decide_eq_true_eq] at both
  have steps := System.steps_of_runWithin ran
  refine ⟨world, steps, job, present, ?_⟩
  have accepted : ∀ expr, expr ≠ "" → vault.validCron expr = true →
      nonEmptyExpressions.accepts expr "UTC" = true := fun _ filled _ => decide_eq_true filled
  have registered := ((schedules_stay_live (noJobs_live vault) accepted).1 world steps).2 0 job
    present both.1 (fun _ => none) fun _ _ => rfl
  rw [registered.1, both.2]

end AmberBackup
