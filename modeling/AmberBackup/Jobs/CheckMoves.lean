import AmberBackup.Agents.PollClaims
import AmberBackup.Jobs.EditCases
import AmberBackup.Jobs.RotatingChecks

/-! # What a step does to a rotation

The statements of a step change few of the things a rotation depends on. Each of the calls
is taken apart here, once; `Checks.step_move` says what a step can do.
-/

namespace AmberBackup

open Relational Transition Rotation

/-! ## What a rotation depends on -/

/-- Where a repository is, and how far its rotation got. -/
structure Cursor where
  place : Place
  parts : Option Nat
  next : Nat
  deriving DecidableEq, Repr

def Repository.cursor (repository : Repository) : Cursor where
  place := repository.place
  parts := repository.checkSubsetParts
  next := repository.checkSubsetNext

/-- The repository a job checks and the schedule it checks it on. -/
def BackupJob.checked (job : BackupJob) : Uuid × IntegrityCheckConfig :=
  (job.repositoryId, job.integrityCheck)

namespace Db

variable (db : Db)

def cursor (repository : Uuid) : Option Cursor :=
  (db.repositories.get? repository).map Repository.cursor

def checked (job : Uuid) : Option (Uuid × IntegrityCheckConfig) :=
  (db.backupJobs.get? job).map BackupJob.checked

def checkRun (run : Uuid) : Option JobRun :=
  (db.jobRuns.get? run).filter fun row => row.kind = .check

end Db

/-- Neither a repository's place or cursor, nor a job's repository or schedule, nor a check
run differs. -/
structure SameChecks (before after : Db) : Prop where
  cursor : after.cursor = before.cursor
  checked : after.checked = before.checked
  checkRun : after.checkRun = before.checkRun

theorem SameChecks.refl (db : Db) : SameChecks db db := ⟨rfl, rfl, rfl⟩

theorem SameChecks.trans {first second third : Db} (before : SameChecks first second)
    (after : SameChecks second third) : SameChecks first third where
  cursor := after.cursor.trans before.cursor
  checked := after.checked.trans before.checked
  checkRun := after.checkRun.trans before.checkRun

theorem SameChecks.of_tables {before after : Db}
    (repositories : after.repositories = before.repositories)
    (jobs : after.backupJobs = before.backupJobs) (runs : after.jobRuns = before.jobRuns) :
    SameChecks before after where
  cursor := by unfold Db.cursor; rw [repositories]
  checked := by unfold Db.checked; rw [jobs]
  checkRun := by unfold Db.checkRun; rw [runs]

/-- An update of the repositories that keeps their cursors keeps the checks. -/
theorem SameChecks.of_repositories {before after : Db} (hit : Uuid → Repository → Bool)
    (change : Repository → Repository)
    (repositories : after.repositories = before.repositories.update hit change)
    (jobs : after.backupJobs = before.backupJobs) (runs : after.jobRuns = before.jobRuns)
    (kept : ∀ repository, (change repository).cursor = repository.cursor) :
    SameChecks before after where
  cursor := by
    funext id
    unfold Db.cursor
    rw [repositories, Table.get?_update]
    cases before.repositories.get? id with
    | none => rfl
    | some row => by_cases hits : hit id row = true <;> simp [hits, kept]
  checked := by unfold Db.checked; rw [jobs]
  checkRun := by unfold Db.checkRun; rw [runs]

theorem Db.checkRun_of_get? {db : Db} {run : Uuid} {row : JobRun}
    (present : db.jobRuns.get? run = some row) (check : row.kind = .check) :
    db.checkRun run = some row := by
  unfold checkRun
  rw [present, Option.filter_some, if_pos (decide_eq_true check)]

theorem Db.get?_of_checkRun {db : Db} {run : Uuid} {row : JobRun}
    (found : db.checkRun run = some row) :
    db.jobRuns.get? run = some row ∧ row.kind = .check := by
  unfold checkRun at found
  obtain ⟨present, check⟩ := Option.filter_eq_some_iff.mp found
  exact ⟨present, of_decide_eq_true check⟩

/-- An update of the runs hits the check runs among them. -/
theorem Db.checkRun_updateRuns (db : Db) (now : Nat) (update : RunUpdate) (run : Uuid) :
    (db.updateRuns now update).checkRun run =
      (db.checkRun run).map fun row =>
        if update.hits db run row then update.set now row else row := by
  unfold checkRun
  rw [Db.get?_updateRuns]
  cases db.jobRuns.get? run with
  | none => rfl
  | some row =>
      have kind : (if update.hits db run row then update.set now row else row).kind =
          row.kind := by
        split
        · exact (update.set_identity now row).kind
        · rfl
      simp only [Option.map_some, Option.filter_some, kind]
      split <;> rfl

theorem Db.checkRun_insert (db : Db) (row : JobRun) :
    ({ db with jobRuns := db.jobRuns.insert (freshId db.jobRuns) row } : Db).checkRun =
      if row.kind = .check then
        Function.update db.checkRun (freshId db.jobRuns) (some row)
      else db.checkRun := by
  have fresh := get?_freshId db.jobRuns
  funext run
  unfold checkRun
  change ((db.jobRuns.insert (freshId db.jobRuns) row).get? run).filter _ = _
  rw [Table.get?_insert fresh]
  by_cases same : run = freshId db.jobRuns
  · subst same
    by_cases check : row.kind = .check
    · simp [check]
    · simp [check, fresh]
  · by_cases check : row.kind = .check <;> simp [check, same]

theorem Db.checkRun_freshId (db : Db) : db.checkRun (freshId db.jobRuns) = none := by
  unfold checkRun
  rw [get?_freshId]
  rfl

/-- An update that hits one of the runs alone. -/
theorem Db.checkRun_update_one {db : Db} {now : Nat} {update : RunUpdate} {run : Uuid}
    {row : JobRun} (found : db.checkRun run = some row)
    (hits : update.hits db run row = true)
    (alone : ∀ other row, update.hits db other row = true → other = run) :
    (db.updateRuns now update).checkRun =
      Function.update db.checkRun run (some (update.set now row)) := by
  funext other
  rw [checkRun_updateRuns]
  by_cases same : other = run
  · subst same
    simp [found, hits]
  · rw [Function.update_of_ne same]
    cases db.checkRun other with
    | none => rfl
    | some row =>
        have misses : ¬ update.hits db other row = true := fun hit => same (alone other row hit)
        simp [misses]

/-! ## The calls -/

/-- An outcome is written to the run it hits, and a verdict to the repository with it. -/
theorem settle_db (platform : Platform) (world : World) (run : Uuid) (info : CheckInfo)
    (repository : Uuid) (outcome : CheckOutcome) :
    ((CheckRunner.settle platform run info repository outcome).run world).2.db =
      if settles world.db run info outcome && outcome.status ≠ .cancelled then
        { world.db.updateRuns world.now (.settleCheck run info outcome) with
          repositories := world.db.repositories.update (fun id _ => id = repository)
            (repositoryPatch world.now info outcome) }
      else world.db.updateRuns world.now (.settleCheck run info outcome) := by
  have hits : (!(world.db.runsHit (.settleCheck run info outcome)).isEmpty) =
      settles world.db run info outcome := rfl
  unfold CheckRunner.settle
  rw [Procedure.run_bind]
  unfold updateRunsReturning CheckRunner.carryOver
  simp only [hits]
  split
  · rw [CheckRunner.patchRepository, Procedure.run_bind_write, notifyJobRun_db]
    rfl
  · rfl

theorem claimRun_db (platform : Platform) (agent : Uuid)
    (task : QueuedRun → ResolvedTarget → AgentTask) (queued : QueuedRun) (world : World) :
    ((claimRun platform agent task queued).run world).2.db =
      world.db.updateRuns world.now (.claim queued.id agent) := by
  unfold claimRun
  rw [Procedure.run_bind]
  unfold updateRunsReturning
  split
  next claimed middle same =>
    cases same
    split
    · rcases Procedure.run_bind_lift _ (fun target =>
          (return some (task queued target) : Service (Option AgentTask))) _ with
        ⟨failure, _, ran⟩ | ⟨target, _, ran⟩
      · exact congrArg (fun result => result.2.db) ran
      · exact congrArg (fun result => result.2.db) ran
    · rfl
  next same => cases same

theorem OnlySecrets.sameChecks {before after : World} (only : OnlySecrets before after) :
    SameChecks before.db after.db := by
  obtain ⟨secrets, restoreRuns, rfl, -⟩ := only
  exact SameChecks.of_tables rfl rfl rfl

/-! ## Verdicts and cursors -/

/-- The cursor once a check passed: a rotating one moves on to the next part. -/
def Cursor.advance (cursor : Cursor) (info : CheckInfo) : Cursor :=
  match info.level, info.part, info.parts with
  | .rotating, some part, some parts =>
      if part ≠ 0 ∧ parts ≠ 0 then
        { cursor with parts := some parts, next := part % parts + 1 }
      else cursor
  | _, _, _ => cursor

theorem Cursor.advance_place (cursor : Cursor) (info : CheckInfo) :
    (cursor.advance info).place = cursor.place := by
  unfold advance
  split
  · split <;> rfl
  · rfl

section Verdicts

variable {now : Nat} {info : CheckInfo} {outcome : CheckOutcome}

theorem repositoryPatch_passed (passed : outcome.passed = true) (repository : Repository) :
    (repositoryPatch now info outcome repository).cursor =
        repository.cursor.advance info ∧
      (repositoryPatch now info outcome repository).dataVerifiedAt =
        if info.completesVerification then some now else repository.dataVerifiedAt := by
  obtain ⟨success, sound⟩ : outcome.status = .success ∧ outcome.damaged = false := by
    simpa [CheckOutcome.passed] using passed
  unfold repositoryPatch Cursor.advance
  rw [sound, success, if_neg Bool.false_ne_true, if_neg (by simp)]
  rcases info with ⟨level, part, parts, _⟩
  cases level with
  | quick | full => exact ⟨rfl, rfl⟩
  | rotating =>
      cases part with
      | none => exact ⟨rfl, rfl⟩
      | some part =>
          cases parts with
          | none => exact ⟨rfl, rfl⟩
          | some parts =>
              dsimp only
              by_cases numbered : part ≠ 0 ∧ parts ≠ 0
              · rw [if_pos numbered, if_pos numbered]
                exact ⟨rfl, rfl⟩
              · rw [if_neg numbered, if_neg numbered]
                exact ⟨rfl, rfl⟩

/-- Only a check that passed moves a rotation on, or sets `data_verified_at`. -/
theorem repositoryPatch_not_passed (failed : outcome.passed = false)
    (repository : Repository) :
    (repositoryPatch now info outcome repository).cursor = repository.cursor ∧
      (repositoryPatch now info outcome repository).dataVerifiedAt =
        repository.dataVerifiedAt := by
  unfold repositoryPatch
  cases damaged : outcome.damaged with
  | true => exact ⟨rfl, rfl⟩
  | false =>
      have unsuccessful : outcome.status ≠ .success := by
        intro success
        simp [CheckOutcome.passed, success, damaged] at failed
      rw [if_neg Bool.false_ne_true, if_pos unsuccessful]
      exact ⟨rfl, rfl⟩

end Verdicts

/-! ## Moves -/

/-- Whether an edit takes the job's repository to another place. -/
def relocates (world : World) (user : RequestUser) (job : Uuid) (dto : UpdateJobDto) : Bool :=
  match joined (world.db.backupJobs.get? job) fun row =>
      world.db.repositories.get? row.repositoryId with
  | none => false
  | some (_, repository) =>
      match ((movedPlace user dto repository).run world).1 with
      | .ok (some place) => place ≠ repository.place
      | _ => false

/-- Check runs may end; none begins or goes on. -/
def Db.ChecksEnd (before after : Db) : Prop :=
  ∀ run, after.checkRun run = before.checkRun run ∨
    ∃ row ended, before.checkRun run = some row ∧ after.checkRun run = some ended ∧
      ended.jobId = row.jobId ∧ ended.status.active = false

/-- Executions may end; none begins. -/
def Checks.FewerExecutions (before after : Checks) : Prop :=
  ∀ run execution, after.executions run = some execution →
    before.executions run = some execution

/-- No reading is added, and nothing is verified. -/
structure Checks.SameBook (before after : Checks) : Prop where
  readings : after.readings = before.readings
  verifications : after.verifications = before.verifications

/-- What a step does to what rotations depend on. -/
inductive Checks.Move (before : Checks) : CheckAction → Checks → Prop where
  | ends {action : CheckAction} {after : Checks}
      (cursor : after.world.db.cursor = before.world.db.cursor)
      (checked : after.world.db.checked = before.world.db.checked)
      (runs : before.world.db.ChecksEnd after.world.db)
      (executions : before.FewerExecutions after) (book : before.SameBook after) :
      Move before action after
  /-- The job is idle, and its check is planned from its repository's cursor. -/
  | starts {action : CheckAction} {after : Checks} {run job : Uuid} {row : BackupJob}
      {repository : Repository} {level : Option IntegrityLevel} {started : JobRun}
      (rowPresent : before.world.db.backupJobs.get? job = some row)
      (repositoryPresent : before.world.db.repositories.get? row.repositoryId = some repository)
      (idle : before.world.db.jobRuns.anyWhere (activeRun job) = false)
      (fresh : before.world.db.checkRun run = none)
      (cursor : after.world.db.cursor = before.world.db.cursor)
      (checked : after.world.db.checked = before.world.db.checked)
      (runs : after.world.db.checkRun =
        Function.update before.world.db.checkRun run (some started))
      (ofJob : started.jobId = job)
      (planned : started.checkInfo = some (planCheck row repository level))
      (executions : after.executions = Function.update before.executions run
        (startedExecution before.world.db job level))
      (running : row.location = .«local» → started.status = .running)
      (book : before.SameBook after) :
      Move before action after
  /-- The run leaves the queue; a task that does not reach the agent is not executed. -/
  | claims {action : CheckAction} {after : Checks} {agent : Uuid} {queued : QueuedRun}
      (listed : queued ∈ queuedRuns before.world.db agent queuedCheck)
      (cursor : after.world.db.cursor = before.world.db.cursor)
      (checked : after.world.db.checked = before.world.db.checked)
      (runs : after.world.db.checkRun = Function.update before.world.db.checkRun queued.id
        (some ((RunUpdate.claim queued.id agent).set before.world.now queued.run)))
      (executions : after.executions = before.executions ∨
        after.executions = Function.update before.executions queued.id
          (some (claimedExecution agent queued)))
      (book : before.SameBook after) :
      Move before action after
  /-- A check passes while its run is running. -/
  | passes {action : CheckAction} {after : Checks} {run repository : Uuid}
      {execution : Execution} {row ended : JobRun} {info : CheckInfo}
      (executed : before.executions run = some execution)
      (present : before.world.db.checkRun run = some row)
      (running : row.status = .running)
      (ofRun : (info = execution.info ∧ repository = execution.repository) ∨
        info = row.checkInfo.getD { level := .quick } ∧
          ∃ schedule, before.world.db.checked row.jobId = some (repository, schedule))
      (cursor : after.world.db.cursor = fun id =>
        if id = repository then (before.world.db.cursor id).map (·.advance info)
        else before.world.db.cursor id)
      (checked : after.world.db.checked = before.world.db.checked)
      (runs : after.world.db.checkRun =
        Function.update before.world.db.checkRun run (some ended))
      (ofJob : ended.jobId = row.jobId) (finished : ended.status.active = false)
      (executions : before.FewerExecutions after)
      (readings : after.readings = before.readingsAfter execution)
      (verifications : after.verifications =
        before.verification execution info repository ++ before.verifications) :
      Move before action after
  | schedules {action : CheckAction} {after : Checks} {job : Uuid}
      {schedule : IntegrityCheckConfig}
      (valid : schedule.subsetParts.all fun parts => 2 ≤ parts && parts ≤ 100)
      (cursor : after.world.db.cursor = before.world.db.cursor)
      (checked : after.world.db.checked = fun id =>
        if id = job then (before.world.db.checked id).map fun old => (old.1, schedule)
        else before.world.db.checked id)
      (runs : after.world.db.checkRun = before.world.db.checkRun)
      (executions : after.executions = before.executions)
      (book : before.SameBook after) :
      Move before action after
  /-- An edit takes the job's repository, with its cursor, to another place. -/
  | relocates {after : Checks} {user : RequestUser} {job : Uuid} {dto : UpdateJobDto}
      {row : BackupJob} {place : Place}
      (elsewhere : relocates before.world user job dto = true)
      (rowPresent : before.world.db.backupJobs.get? job = some row)
      (cursor : after.world.db.cursor = fun id =>
        if id = row.repositoryId then
          (before.world.db.cursor id).map fun old => { old with place }
        else before.world.db.cursor id)
      (checked : after.world.db.checked = before.world.db.checked)
      (runs : after.world.db.checkRun = before.world.db.checkRun)
      (executions : after.executions = before.executions)
      (book : before.SameBook after) :
      Move before (.updateJob user job dto) after

theorem Checks.SameBook.refl (checks : Checks) : checks.SameBook checks := ⟨rfl, rfl⟩

theorem Checks.FewerExecutions.of_eq {before after : Checks}
    (same : after.executions = before.executions) : before.FewerExecutions after := by
  intro run execution present
  rwa [same] at present

theorem Checks.Move.quiet {before after : Checks} {action : CheckAction}
    (same : SameChecks before.world.db after.world.db)
    (executions : before.FewerExecutions after) (book : before.SameBook after) :
    before.Move action after :=
  .ends same.cursor same.checked (fun run => Or.inl (congrFun same.checkRun run)) executions
    book

/-- An update of the runs that only ends some. -/
theorem Checks.Move.of_update {before after : Checks} {action : CheckAction} {now : Nat}
    {update : RunUpdate}
    (written : after.world.db = before.world.db.updateRuns now update)
    (finished : ∀ row, (update.set now row).status.active = false)
    (executions : before.FewerExecutions after) (book : before.SameBook after) :
    before.Move action after := by
  refine .ends ?_ ?_ ?_ executions book
  · rw [written]
    rfl
  · rw [written]
    rfl
  · intro run
    rw [written, Db.checkRun_updateRuns]
    cases before.world.db.checkRun run with
    | none => exact Or.inl rfl
    | some row =>
        by_cases hits : update.hits before.world.db run row = true
        · refine Or.inr ⟨row, update.set now row, rfl, ?_, (update.set_identity now row).jobId,
            finished row⟩
          rw [Option.map_some, if_pos hits]
        · refine Or.inl ?_
          rw [Option.map_some, if_neg hits]

/-! ## Every step is a move -/

section Steps

variable {before after : Checks} {action : CheckAction}

theorem cursor_of_get? {db : Db} {id : Uuid} {repository : Repository}
    (present : db.repositories.get? id = some repository) :
    db.cursor id = some repository.cursor := by
  unfold Db.cursor
  rw [present]
  rfl

theorem checked_of_get? {db : Db} {job : Uuid} {row : BackupJob}
    (present : db.backupJobs.get? job = some row) : db.checked job = some row.checked := by
  unfold Db.checked
  rw [present]
  rfl

theorem start_move (before : Checks) (requester : Option RequestUser) (job : Uuid)
    (trigger : RunTrigger) (level : Option IntegrityLevel) :
    before.Move action (before.start requester job trigger level) := by
  unfold Checks.start
  rcases start_cases before.world requester job trigger level with
    ⟨failure, refused⟩ | ⟨row, repository, _, found, idle, ran⟩
  · rw [refused]
    exact Checks.Move.quiet (SameChecks.refl _) (.of_eq rfl) (.refl before)
  · rw [ran]
    obtain ⟨rowPresent, repositoryPresent⟩ := of_joined found
    have runs := (before.world.db.checkRun_insert (checkRow job trigger
      (row.location = .«local») (planCheck row repository level) before.world.now)).trans
        (if_pos rfl)
    refine .starts rowPresent repositoryPresent idle before.world.db.checkRun_freshId rfl rfl
      runs rfl rfl rfl ?_ ⟨rfl, rfl⟩
    intro isLocal
    unfold checkRow
    rw [isLocal]
    rfl

theorem restart_move {keeps : Execution → Bool} :
    before.Move action { before with
      executions := fun run => (before.executions run).filter keeps } :=
  Checks.Move.quiet (SameChecks.refl _)
    (fun _ _ present => (Option.filter_eq_some_iff.mp present).1) ⟨rfl, rfl⟩

theorem cancel_move (before : Checks) (user : RequestUser) (run : Uuid) :
    before.Move action (before.cancel user run) := by
  unfold Checks.cancel
  split
  · exact Checks.Move.quiet (SameChecks.refl _) (.of_eq rfl) (.refl before)
  · rcases cancelRun_cases before.world user run with same | ⟨row, error, _, _, written⟩
    · rw [same]
      exact Checks.Move.quiet (SameChecks.refl _) (.of_eq rfl) (.refl before)
    · exact Checks.Move.of_update (congrArg World.db written) (fun _ => rfl) (.of_eq rfl) ⟨rfl, rfl⟩

theorem joined_of_mem_queuedRuns {db : Db} {agent : Uuid} {selects : JobRun → Bool}
    {queued : QueuedRun} (member : queued ∈ queuedRuns db agent selects) :
    db.backupJobs.get? queued.run.jobId = some queued.job ∧
      db.repositories.get? queued.job.repositoryId = some queued.repository := by
  obtain ⟨⟨id, run⟩, _, found⟩ := List.mem_filterMap.mp member
  dsimp only at found
  split at found
  case isFalse => cases found
  case isTrue =>
    unfold queuedRun at found
    obtain ⟨⟨job, repository⟩, both, selected⟩ := Option.bind_eq_some_iff.mp found
    dsimp only at selected
    split at selected
    case isFalse => cases selected
    case isTrue =>
      cases selected
      exact of_joined both

theorem claim_move (editing : Editing) {agent : Uuid} {queued : QueuedRun}
    (listed : queued ∈ queuedRuns before.world.db agent queuedCheck) :
    before.Move action (before.claim editing agent queued) := by
  obtain ⟨present, check, waiting⟩ := mem_queuedRuns listed
  have written := claimRun_db editing.platform agent checkTask queued before.world
  have found := Db.checkRun_of_get? present (of_decide_eq_true check)
  have hits : RunUpdate.hits before.world.db (.claim queued.id agent) queued.id queued.run =
      true := by
    simp [RunUpdate.hits, waiting]
  have alone : ∀ other row,
      RunUpdate.hits before.world.db (.claim queued.id agent) other row = true →
        other = queued.id := by
    intro other row hit
    simp only [RunUpdate.hits, Bool.and_eq_true, decide_eq_true_eq] at hit
    exact hit.1
  refine .claims listed ?_ ?_ ?_ ?_ ⟨rfl, rfl⟩
  · exact (congrArg Db.cursor written).trans rfl
  · exact (congrArg Db.checked written).trans rfl
  · exact (congrArg Db.checkRun written).trans (Db.checkRun_update_one found hits alone)
  · unfold Checks.claim
    dsimp only
    split
    · exact Or.inr rfl
    · exact Or.inl rfl

/-- Whether an outcome hits its run. -/
theorem settles_iff {db : Db} {run : Uuid} {info : CheckInfo} {outcome : CheckOutcome} :
    settles db run info outcome = true ↔
      ∃ row, db.jobRuns.get? run = some row ∧ row.status = .running := by
  unfold settles
  rw [Bool.not_eq_true', List.isEmpty_eq_false_iff_exists_mem]
  constructor
  · rintro ⟨id, hit⟩
    obtain ⟨row, present, hits⟩ := Db.mem_runsHit.mp hit
    simp only [RunUpdate.hits, Bool.and_eq_true, decide_eq_true_eq] at hits
    obtain ⟨rfl, running⟩ := hits
    exact ⟨row, present, running⟩
  · rintro ⟨row, present, running⟩
    exact ⟨run, Db.mem_runsHit.mpr ⟨row, present, by simp [RunUpdate.hits, running]⟩⟩

theorem settled_over (now : Nat) (run : Uuid) (info : CheckInfo) (outcome : CheckOutcome)
    (row : JobRun) :
    ((RunUpdate.settleCheck run info outcome).set now row).status.active = false := by
  rcases outcome with ⟨status, _, _, _⟩
  cases status <;> rfl

theorem cursor_patched {db patched : Db} {repository : Uuid} {now : Nat} {info : CheckInfo}
    {outcome : CheckOutcome} (passed : outcome.passed = true)
    (written : patched.repositories = db.repositories.update (fun id _ => id = repository)
      (repositoryPatch now info outcome)) :
    patched.cursor = fun id =>
      if id = repository then (db.cursor id).map (·.advance info) else db.cursor id := by
  funext id
  unfold Db.cursor
  rw [written, Table.get?_update]
  cases db.repositories.get? id with
  | none => simp
  | some row =>
      by_cases same : id = repository
      · simp [same, (repositoryPatch_passed passed row).1]
      · simp [same]

theorem cursor_patched_same {db patched : Db} {repository : Uuid} {now : Nat}
    {info : CheckInfo} {outcome : CheckOutcome} (failed : outcome.passed = false)
    (written : patched.repositories = db.repositories.update (fun id _ => id = repository)
      (repositoryPatch now info outcome)) : patched.cursor = db.cursor := by
  funext id
  unfold Db.cursor
  rw [written, Table.get?_update]
  cases db.repositories.get? id with
  | none => rfl
  | some row =>
      by_cases same : id = repository
      · simp [same, (repositoryPatch_not_passed failed row).1]
      · simp [same]

/-- An outcome that is recorded passes, or it ends its run at most. -/
theorem record_move {run : Uuid} {execution : Execution} {info : CheckInfo}
    {repository : Uuid} (outcome : CheckOutcome)
    (written : after.world.db =
      if settles before.world.db run info outcome && outcome.status ≠ .cancelled then
        { before.world.db.updateRuns before.world.now (.settleCheck run info outcome) with
          repositories := before.world.db.repositories.update (fun id _ => id = repository)
            (repositoryPatch before.world.now info outcome) }
      else before.world.db.updateRuns before.world.now (.settleCheck run info outcome))
    (readings : after.readings =
      (before.record run execution info repository outcome after.world).readings)
    (verifications : after.verifications =
      (before.record run execution info repository outcome after.world).verifications)
    (executions : before.FewerExecutions after)
    (executed : before.executions run = some execution)
    {row : JobRun} (present : before.world.db.checkRun run = some row)
    (ofRun : (info = execution.info ∧ repository = execution.repository) ∨
      info = row.checkInfo.getD { level := .quick } ∧
        ∃ schedule, before.world.db.checked row.jobId = some (repository, schedule)) :
    before.Move action after := by
  have finished := settled_over before.world.now run info outcome
  obtain ⟨stored, _⟩ := Db.get?_of_checkRun present
  unfold Checks.record at readings verifications
  cases passed : outcome.passed with
  | false =>
      rw [passed, Bool.and_false, if_neg Bool.false_ne_true] at readings verifications
      by_cases carried :
          (settles before.world.db run info outcome && outcome.status ≠ .cancelled) = true
      · rw [if_pos carried] at written
        have ended : before.world.db.ChecksEnd
            (before.world.db.updateRuns before.world.now (.settleCheck run info outcome)) := by
          intro other
          rw [Db.checkRun_updateRuns]
          cases before.world.db.checkRun other with
          | none => exact Or.inl rfl
          | some row =>
              by_cases hits : RunUpdate.hits before.world.db (.settleCheck run info outcome)
                  other row = true
              · refine Or.inr ⟨row, _, rfl, congrArg some (if_pos hits), ?_, finished row⟩
                exact (RunUpdate.set_identity _ _ row).jobId
              · exact Or.inl (congrArg some (if_neg hits))
        refine .ends ?_ ?_ ?_ executions ⟨readings, verifications⟩
        · exact cursor_patched_same passed (congrArg Db.repositories written)
        · rw [written]
          rfl
        · rw [written]
          exact ended
      · rw [if_neg carried] at written
        exact Checks.Move.of_update written finished executions ⟨readings, verifications⟩
  | true =>
      cases hit : settles before.world.db run info outcome with
      | false =>
          rw [hit, Bool.false_and, if_neg Bool.false_ne_true] at readings verifications written
          exact Checks.Move.of_update written finished executions ⟨readings, verifications⟩
      | true =>
          rw [hit, passed, Bool.and_self, if_pos rfl] at readings verifications
          have verdict : outcome.status ≠ .cancelled := by
            intro cancelled
            simp [CheckOutcome.passed, cancelled] at passed
          rw [hit, Bool.true_and, if_pos (decide_eq_true verdict)] at written
          obtain ⟨found, same, running⟩ := settles_iff.mp hit
          rw [stored] at same
          cases same
          refine .passes executed present running ofRun ?_ ?_ ?_
            (RunUpdate.set_identity _ (.settleCheck run info outcome) row).jobId (finished row)
            executions readings verifications
          · exact cursor_patched passed (congrArg Db.repositories written)
          · rw [written]
            rfl
          · rw [written]
            have hits : RunUpdate.hits before.world.db (.settleCheck run info outcome) run row =
                true := by
              simp [RunUpdate.hits, running]
            have alone : ∀ other row,
                RunUpdate.hits before.world.db (.settleCheck run info outcome) other row = true →
                  other = run := by
              intro other row hit
              simp only [RunUpdate.hits, Bool.and_eq_true, decide_eq_true_eq] at hit
              exact hit.1
            exact Db.checkRun_update_one present hits alone

theorem record_world (run : Uuid) (execution : Execution) (info : CheckInfo)
    (repository : Uuid) (outcome : CheckOutcome) (world : World) :
    (before.record run execution info repository outcome world).world = world := by
  unfold Checks.record
  split <;> rfl

theorem record_executions (run : Uuid) (execution : Execution) (info : CheckInfo)
    (repository : Uuid) (outcome : CheckOutcome) (world : World) :
    (before.record run execution info repository outcome world).executions =
      before.executions := by
  unfold Checks.record
  split <;> rfl

theorem settle_move (editing : Editing) {run : Uuid} {execution : Execution}
    (outcome : CheckOutcome) (executed : before.executions run = some execution) {row : JobRun}
    (present : before.world.db.checkRun run = some row) :
    before.Move action (before.settle editing run execution outcome) := by
  have fewer : before.FewerExecutions (before.settle editing run execution outcome) := by
    intro other execution found
    change Function.update before.executions run none other = some execution at found
    by_cases same : other = run
    · subst same
      rw [Function.update_self] at found
      cases found
    · rwa [Function.update_of_ne same] at found
  refine record_move outcome ?_ ?_ ?_ fewer executed present (Or.inl ⟨rfl, rfl⟩)
  · unfold Checks.settle
    rw [record_world]
    exact settle_db editing.platform before.world run execution.info execution.repository outcome
  · unfold Checks.settle
    rw [record_world]
  · unfold Checks.settle
    rw [record_world]

theorem taskCheck_of_checkRun {db : Db} {agent run : Uuid} {row : JobRun} {info : CheckInfo}
    {repository : Uuid} (present : db.checkRun run = some row)
    (found : taskCheck db agent run = some (info, repository)) :
    info = row.checkInfo.getD { level := .quick } ∧
      ∃ schedule, db.checked row.jobId = some (repository, schedule) := by
  obtain ⟨stored, check⟩ := Db.get?_of_checkRun present
  unfold taskCheck taskRun at found
  obtain ⟨⟨run, job⟩, both, selected⟩ := Option.bind_eq_some_iff.mp found
  obtain ⟨filtered, owner⟩ := of_joined both
  obtain ⟨same, _⟩ := Option.filter_eq_some_iff.mp filtered
  rw [stored] at same
  cases same
  dsimp only at selected
  rw [if_pos check] at selected
  cases selected
  exact ⟨rfl, job.integrityCheck, checked_of_get? owner⟩

theorem submitResult_move (editing : Editing) {agent run : Uuid} {execution : Execution}
    (result : TaskResult) (executed : before.executions run = some execution) {row : JobRun}
    (present : before.world.db.checkRun run = some row) :
    before.Move action (before.submitResult editing agent run execution result) := by
  unfold Checks.submitResult CheckRunner.recordAgentResult
  rw [Procedure.run_bind_read]
  cases found : taskCheck before.world.db agent run with
  | none => exact Checks.Move.quiet (SameChecks.refl _) (.of_eq rfl) ⟨rfl, rfl⟩
  | some task =>
      obtain ⟨info, repository⟩ := task
      by_cases cancelled : result.status = .cancelled
      · dsimp only
        rw [if_pos cancelled, if_pos cancelled]
        exact Checks.Move.of_update rfl (fun _ => rfl) (.of_eq rfl) ⟨rfl, rfl⟩
      · dsimp only
        rw [if_neg cancelled, if_neg cancelled]
        refine record_move (checkOutcome result) ?_ ?_ ?_ (.of_eq (record_executions ..))
          executed present
          (Or.inr (taskCheck_of_checkRun present found))
        · rw [record_world]
          exact settle_db editing.platform before.world run info repository
            (checkOutcome result)
        · rw [record_world]
        · rw [record_world]

theorem checked_writeSchedule (world : World) (job : Uuid) (schedule : IntegrityCheckConfig) :
    ((writeSchedule job schedule).run world).2.db.checked = fun id =>
      if id = job then (world.db.checked id).map fun old => (old.1, schedule)
      else world.db.checked id := by
  funext id
  change ((world.db.backupJobs.update _ _).get? id).map _ = _
  rw [Table.get?_update]
  unfold Db.checked
  cases world.db.backupJobs.get? id with
  | none => simp
  | some row => by_cases same : id = job <;> simp [same, BackupJob.checked]

theorem setIntegrityCheck_move (editing : Editing) (user : RequestUser) {job : Uuid}
    {dto : IntegrityCheckConfigDto} (valid : dto.valid = true) :
    before.Move action { before with
      world := ((setIntegrityCheck editing user job dto).run before.world).2 } := by
  rcases setIntegrityCheck_cases editing user before.world job dto with same | ⟨_, written⟩
  · rw [same]
    exact Checks.Move.quiet (SameChecks.refl _) (.of_eq rfl) ⟨rfl, rfl⟩
  · rw [written]
    have kept : dto.config.subsetParts.all fun parts => 2 ≤ parts && parts ≤ 100 := by
      unfold IntegrityCheckConfigDto.config
      dsimp only
      split
      · exact valid
      · rfl
    refine .schedules kept rfl (checked_writeSchedule before.world job dto.config) rfl rfl
      ⟨rfl, rfl⟩

theorem RepoPatch.apply_cursor (patch : RepoPatch) (now : Nat) (repository : Repository) :
    (patch.apply now repository).cursor =
      { repository.cursor with place := patch.place.getD repository.place } := by
  unfold RepoPatch.apply
  split
  case isTrue empty =>
    subst empty
    rfl
  case isFalse =>
    cases patch.place with
    | none => rfl
    | some place => rfl

theorem cursor_writeJob (world : World) (id repositoryId : Uuid) (patch : RepoPatch)
    (job : JobPatch) :
    ((writeJob id repositoryId patch job).run world).2.db.cursor = fun other =>
      if other = repositoryId then
        (world.db.cursor other).map fun old =>
          { old with place := patch.place.getD old.place }
      else world.db.cursor other := by
  funext other
  change ((world.db.repositories.update _ _).get? other).map _ = _
  rw [Table.get?_update]
  unfold Db.cursor
  cases world.db.repositories.get? other with
  | none => simp
  | some row =>
      by_cases same : other = repositoryId
      · simp [same, RepoPatch.apply_cursor]
        rfl
      · simp [same]

theorem checked_writeJob (world : World) (id repositoryId : Uuid) (patch : RepoPatch)
    (job : JobPatch) :
    ((writeJob id repositoryId patch job).run world).2.db.checked = world.db.checked := by
  funext other
  change ((world.db.backupJobs.update _ _).get? other).map _ = _
  rw [Table.get?_update]
  unfold Db.checked
  cases world.db.backupJobs.get? other with
  | none => rfl
  | some row =>
      by_cases same : other = id
      · simp only [same, decide_true, ↓reduceIte, Option.map_some]
        rfl
      · simp [same]

/-- What an edit that stays where it is writes as the place is the place it was. -/
theorem place_of_not_relocates {world : World} {user : RequestUser} {job : Uuid}
    {dto : UpdateJobDto} {row : BackupJob} {repository : Repository} {place : Option Place}
    (found : joined (world.db.backupJobs.get? job) (fun row =>
      world.db.repositories.get? row.repositoryId) = some (row, repository))
    (moved : ((movedPlace user dto repository).run world).1 = .ok place)
    (stays : ¬ relocates world user job dto = true) :
    place.getD repository.place = repository.place := by
  cases place with
  | none => rfl
  | some place =>
      have same : ¬ decide (place ≠ repository.place) = true := by
        intro moves
        apply stays
        unfold relocates
        rw [found]
        dsimp only
        rw [moved]
        exact moves
      exact not_not.mp fun moves => same (decide_eq_true moves)

theorem place_of_relocates {world : World} {user : RequestUser} {job : Uuid}
    {dto : UpdateJobDto} {row : BackupJob} {repository : Repository} {place : Option Place}
    (found : joined (world.db.backupJobs.get? job) (fun row =>
      world.db.repositories.get? row.repositoryId) = some (row, repository))
    (moved : ((movedPlace user dto repository).run world).1 = .ok place)
    (moves : relocates world user job dto = true) : ∃ elsewhere, place = some elsewhere := by
  unfold relocates at moves
  rw [found] at moves
  dsimp only at moves
  rw [moved] at moves
  cases place with
  | none => cases moves
  | some elsewhere => exact ⟨elsewhere, rfl⟩

theorem updateJob_move (editing : Editing) (user : RequestUser) (job : Uuid)
    (dto : UpdateJobDto) :
    before.Move (.updateJob user job dto) { before with
      world := ((updateJob editing user job dto).run before.world).2 } := by
  rcases updateJob_cases editing user before.world job dto with
    only | ⟨row, repository, place, column, middle, found, moved, first, last⟩
  · exact Checks.Move.quiet only.sameChecks (.of_eq rfl) ⟨rfl, rfl⟩
  · obtain ⟨rowPresent, repositoryPresent⟩ := of_joined found
    have written := first.sameChecks
    have cursor := (last.sameChecks.cursor.trans
      (cursor_writeJob middle job row.repositoryId _ dto.job))
    have checked := (last.sameChecks.checked.trans
      (checked_writeJob middle job row.repositoryId _ dto.job)).trans written.checked
    have runs := last.sameChecks.checkRun.trans (written.checkRun.trans rfl)
    rw [written.cursor] at cursor
    by_cases elsewhere : relocates before.world user job dto = true
    · obtain ⟨target, rfl⟩ := place_of_relocates found moved elsewhere
      exact .relocates elsewhere rowPresent cursor checked runs rfl ⟨rfl, rfl⟩
    · refine Checks.Move.quiet ⟨cursor.trans ?_, checked, runs⟩ (.of_eq rfl) ⟨rfl, rfl⟩
      funext other
      by_cases same : other = row.repositoryId
      · rw [if_pos same, same, cursor_of_get? repositoryPresent]
        have stays : place.getD repository.cursor.place = repository.cursor.place :=
          place_of_not_relocates found moved elsewhere
        rw [Option.map_some, stays]
      · rw [if_neg same]

theorem elsewhere_same {world : World} {statement : Statement}
    (spares : statement.sparesChecks world.db = true) :
    SameChecks world.db (statement.execute world.now world.db) := by
  cases statement with
  | nothing | updateRestores | insertRestore | touchAgent =>
      exact SameChecks.of_tables rfl rfl rfl
  | updateJob | patchRepository => cases spares
  | clearRequests agent =>
      exact SameChecks.of_repositories (statsRequested world.db agent)
        (fun row => { row with statsRequestedAt := none }) rfl rfl rfl fun _ => rfl
  | recordStats repository reading =>
      cases present : world.db.repositories.get? repository with
      | none =>
          simp only [Statement.execute, present]
          exact SameChecks.refl _
      | some row =>
          simp only [Statement.execute, present]
          refine SameChecks.of_repositories (fun other _ => other = repository)
            (reading.apply world.now) rfl rfl rfl ?_
          intro row
          cases reading <;> rfl
  | insertRun row =>
      have other : ¬ row.kind = .check := of_decide_eq_true spares
      exact ⟨rfl, rfl, (world.db.checkRun_insert row).trans (if_neg other)⟩
  | updateRuns update =>
      refine ⟨rfl, rfl, funext fun run => ?_⟩
      change (world.db.updateRuns world.now update).checkRun run = _
      rw [Db.checkRun_updateRuns]
      cases present : world.db.checkRun run with
      | none => rfl
      | some row =>
          obtain ⟨stored, check⟩ := Db.get?_of_checkRun present
          have misses := Table.anyWhere_eq_false.mp ((Bool.not_eq_true' _).mp spares) run row stored
          rw [decide_eq_true check, Bool.and_true] at misses
          rw [Option.map_some, misses, if_neg Bool.false_ne_true]

/-- Every step is a move, where only check runs are executed. -/
theorem step_move (editing : Editing)
    (grounded : ∀ run execution, before.executions run = some execution →
      ∃ row, before.world.db.checkRun run = some row)
    (moved : before.step editing action = some after) : before.Move action after := by
  cases action with
  | start requester job trigger level =>
      cases moved
      exact start_move before requester job trigger level
  | claim agent run =>
      obtain ⟨queued, found, rfl⟩ := Option.map_eq_some_iff.mp moved
      exact claim_move editing (List.mem_of_find?_eq_some found)
  | settle run outcome =>
      simp only [Checks.step] at moved
      split at moved
      case h_1 => cases moved
      case h_2 execution executed =>
        split at moved
        case isFalse => cases moved
        case isTrue =>
          cases moved
          obtain ⟨row, present⟩ := grounded run execution executed
          exact settle_move editing outcome executed present
  | submitResult agent run result =>
      simp only [Checks.step] at moved
      split at moved
      case h_1 => cases moved
      case h_2 execution executed =>
        split at moved
        case isFalse => cases moved
        case isTrue =>
          cases moved
          obtain ⟨row, present⟩ := grounded run execution executed
          exact submitResult_move editing result executed present
  | cancel user run =>
      cases moved
      exact cancel_move before user run
  | failStale staleBefore error =>
      cases moved
      exact Checks.Move.of_update rfl (fun _ => rfl) (.of_eq rfl) ⟨rfl, rfl⟩
  | restart =>
      cases moved
      exact restart_move
  | setIntegrityCheck user job dto =>
      simp only [Checks.step] at moved
      split at moved
      case isFalse => cases moved
      case isTrue valid =>
        cases moved
        exact setIntegrityCheck_move editing user valid
  | updateJob user job dto =>
      cases moved
      exact updateJob_move editing user job dto
  | elsewhere statement =>
      simp only [Checks.step] at moved
      split at moved
      case isFalse => cases moved
      case isTrue spares =>
        cases moved
        exact Checks.Move.quiet (elsewhere_same spares) (.of_eq rfl) ⟨rfl, rfl⟩
  | tick now =>
      cases moved
      exact Checks.Move.quiet (SameChecks.refl _) (.of_eq rfl) ⟨rfl, rfl⟩

end Steps

end AmberBackup
