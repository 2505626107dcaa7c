import AmberBackup.Jobs.CheckMoves

/-! # What rotating checks verify

A rotating check goes on where the last one that passed left off, so that passing the last
part completes a rotation. Two layers of invariants carry this: at most one check of a job
is under way, and it was planned from its repository's cursor (`Checks.Sound`); what the
cursor stands for was read back where the repository is (`Checks.Faithful`). The second
one holds as long as a repository only moves while its rotation is at rest
(`rotations_never_overclaim`).
-/

namespace AmberBackup

open Relational Transition Rotation

/-! ## What carries over a step -/

/-- The repository of a job. -/
def Db.repositoryOf (db : Db) (job : Uuid) : Option Uuid := (db.checked job).map Prod.fst

theorem repositoryOf_of_checked {db : Db} {job repository : Uuid}
    {schedule : IntegrityCheckConfig} (owner : db.checked job = some (repository, schedule)) :
    db.repositoryOf job = some repository := by
  unfold Db.repositoryOf
  rw [owner]
  rfl

section Moves

theorem exists_update {ρ : Type} {rows : Uuid → Option ρ} {key : Uuid} {old : ρ}
    (stored : rows key = some old) (other : Uuid) (value : ρ) :
    ∃ row, Function.update rows other (some value) key = some row := by
  by_cases same : key = other
  · subst same
    exact ⟨value, Function.update_self ..⟩
  · exact ⟨old, (Function.update_of_ne same ..).trans stored⟩

variable {before after : Checks} {action : CheckAction}

/-- No step gives a job another repository. -/
theorem Checks.Move.repositoryOf (move : before.Move action after) :
    after.world.db.repositoryOf = before.world.db.repositoryOf := by
  funext job
  unfold Db.repositoryOf
  cases move with
  | ends _ checked | starts _ _ _ _ _ checked | claims _ _ checked
  | passes _ _ _ _ _ checked | relocates _ _ _ checked => rw [checked]
  | schedules _ _ checked =>
      rw [checked]
      dsimp only
      split
      · rw [Option.map_map]
        rfl
      · rfl

/-- A check that is under way after a step was so before, or the step started it. -/
theorem Checks.Move.run_origin (move : before.Move action after) {run : Uuid} {row : JobRun}
    (present : after.world.db.checkRun run = some row) (active : row.status.active = true) :
    (∃ old, before.world.db.checkRun run = some old ∧ old.status.active = true ∧
        (row.status = .queued → old.status = .queued) ∧
        row.jobId = old.jobId ∧ row.checkInfo = old.checkInfo) ∨
      before.world.db.checkRun run = none ∧
        before.world.db.jobRuns.anyWhere (activeRun row.jobId) = false ∧
        after.world.db.cursor = before.world.db.cursor ∧
        (∀ other, other ≠ run →
          after.world.db.checkRun other = before.world.db.checkRun other) ∧
        ∃ job repository level, before.world.db.backupJobs.get? row.jobId = some job ∧
          before.world.db.repositories.get? job.repositoryId = some repository ∧
          row.checkInfo = some (planCheck job repository level) := by
  have unchanged : before.world.db.checkRun run = some row →
      ∃ old, before.world.db.checkRun run = some old ∧ old.status.active = true ∧
        (row.status = .queued → old.status = .queued) ∧
        row.jobId = old.jobId ∧ row.checkInfo = old.checkInfo :=
    fun same => ⟨row, same, active, id, rfl, rfl⟩
  cases move with
  | ends _ _ runs =>
      rcases runs run with same | ⟨_, ended, _, stored, _, finished⟩
      · exact Or.inl (unchanged (same ▸ present))
      · rw [present] at stored
        cases stored
        rw [active] at finished
        cases finished
  | @starts _ _ new _ _ _ _ _ rowPresent repositoryPresent idle fresh cursor _ runs ofJob
      planned =>
      have others : ∀ other, other ≠ new →
          after.world.db.checkRun other = before.world.db.checkRun other := by
        intro other different
        rw [runs, Function.update_of_ne different]
      rw [runs] at present
      by_cases same : run = new
      · subst same
        rw [Function.update_self] at present
        cases present
        subst ofJob
        exact Or.inr ⟨fresh, idle, cursor, others, _, _, _, rowPresent, repositoryPresent,
          planned⟩
      · rw [Function.update_of_ne same] at present
        exact Or.inl (unchanged present)
  | @claims _ _ _ queued listed _ _ runs =>
      rw [runs] at present
      by_cases same : run = queued.id
      · subst same
        rw [Function.update_self] at present
        cases present
        obtain ⟨stored, check, waiting⟩ := mem_queuedRuns listed
        refine Or.inl ⟨queued.run, ?_, ?_, fun _ => waiting, rfl, rfl⟩
        · exact Db.checkRun_of_get? stored (of_decide_eq_true check)
        · rw [waiting]
          rfl
      · rw [Function.update_of_ne same] at present
        exact Or.inl (unchanged present)
  | @passes _ _ finished _ _ _ _ _ _ _ _ _ _ _ runs _ ended =>
      rw [runs] at present
      by_cases same : run = finished
      · subst same
        rw [Function.update_self] at present
        cases present
        rw [active] at ended
        cases ended
      · rw [Function.update_of_ne same] at present
        exact Or.inl (unchanged present)
  | schedules _ _ _ runs | relocates _ _ _ _ runs =>
      exact Or.inl (unchanged (runs ▸ present))

/-- No step removes a check run; one that is under way afterwards was so before. -/
theorem Checks.Move.run_next (move : before.Move action after) {run : Uuid} {old : JobRun}
    (stored : before.world.db.checkRun run = some old) :
    ∃ row, after.world.db.checkRun run = some row ∧ (row.status.active = true →
      old.status.active = true ∧ (row.status = .queued → old.status = .queued) ∧
        row.jobId = old.jobId ∧ row.checkInfo = old.checkInfo) := by
  have kept : ∃ row, after.world.db.checkRun run = some row := by
    cases move with
    | ends _ _ runs =>
        rcases runs run with same | ⟨_, ended, _, present, _⟩
        · exact ⟨old, same.trans stored⟩
        · exact ⟨ended, present⟩
    | starts _ _ _ _ _ _ runs | claims _ _ _ runs | passes _ _ _ _ _ _ runs =>
        rw [runs]
        exact exists_update stored _ _
    | schedules _ _ _ runs | relocates _ _ _ _ runs => exact ⟨old, runs ▸ stored⟩
  obtain ⟨row, present⟩ := kept
  refine ⟨row, present, fun active => ?_⟩
  rcases move.run_origin present active with
    ⟨same, found, wasActive, waits, ofJob, sameInfo⟩ | ⟨fresh, _⟩
  · rw [stored] at found
    cases found
    exact ⟨wasActive, waits, ofJob, sameInfo⟩
  · rw [stored] at fresh
    cases fresh

/-- A step keeps how far a rotation got, or a check of the repository passed. -/
theorem Checks.Move.cursor_origin (move : before.Move action after) {repository : Uuid}
    {cursor : Cursor} (present : after.world.db.cursor repository = some cursor) :
    ∃ old, before.world.db.cursor repository = some old ∧
      ((cursor.parts = old.parts ∧ cursor.next = old.next) ∨
        ∃ run row execution info, before.world.db.checkRun run = some row ∧
          row.status = .running ∧ before.executions run = some execution ∧
          ((info = execution.info ∧ repository = execution.repository) ∨
            info = row.checkInfo.getD { level := .quick } ∧
              before.world.db.repositoryOf row.jobId = some repository) ∧
          cursor = old.advance info ∧
          ∃ ended, after.world.db.checkRun run = some ended ∧ ended.status.active = false) := by
  cases move with
  | ends same | starts _ _ _ _ same | claims _ same | schedules _ same =>
      rw [same] at present
      exact ⟨cursor, present, Or.inl ⟨rfl, rfl⟩⟩
  | @passes _ _ run other execution row ended info executed stored running ofRun moved _ runs
      _ finished =>
      have isOver : after.world.db.checkRun run = some ended := by
        rw [runs, Function.update_self]
      rw [moved] at present
      dsimp only at present
      split at present
      case isFalse => exact ⟨cursor, present, Or.inl ⟨rfl, rfl⟩⟩
      case isTrue same =>
        subst same
        obtain ⟨old, before, rfl⟩ := Option.map_eq_some_iff.mp present
        refine ⟨old, before, Or.inr ⟨run, row, execution, info, stored, running, executed, ?_,
          rfl, ended, isOver, finished⟩⟩
        rcases ofRun with own | ⟨planned, schedule, owner⟩
        · exact Or.inl own
        · exact Or.inr ⟨planned, repositoryOf_of_checked owner⟩
  | relocates _ _ moved =>
      rw [moved] at present
      dsimp only at present
      split at present
      case isFalse => exact ⟨cursor, present, Or.inl ⟨rfl, rfl⟩⟩
      case isTrue =>
        obtain ⟨old, before, rfl⟩ := Option.map_eq_some_iff.mp present
        exact ⟨old, before, Or.inl ⟨rfl, rfl⟩⟩

/-- No step adds or removes a repository. -/
theorem Checks.Move.cursor_isSome (move : before.Move action after) (repository : Uuid) :
    (after.world.db.cursor repository).isSome = (before.world.db.cursor repository).isSome := by
  cases move with
  | ends same | starts _ _ _ _ same | claims _ same | schedules _ same => rw [same]
  | passes _ _ _ _ moved | relocates _ _ moved =>
      rw [moved]
      dsimp only
      split
      · rw [Option.isSome_map]
      · rfl

end Moves

/-! ## Checks under way -/

/-- A rotating check reads part 1, or the part its repository's cursor stands at. -/
def Db.Planned (db : Db) (job : Uuid) (info : CheckInfo) : Prop :=
  info.level = .rotating → ∃ part parts repository cursor, info.part = some part ∧
    info.parts = some parts ∧ 1 ≤ part ∧ part ≤ parts ∧
    db.repositoryOf job = some repository ∧ db.cursor repository = some cursor ∧
    (part = 1 ∨ cursor.parts = some parts ∧ cursor.next = part)

/-- The info of a check run; one without any counts as quick. -/
def JobRun.info (row : JobRun) : CheckInfo := row.checkInfo.getD { level := .quick }

structure Checks.Sound (checks : Checks) : Prop where
  schedules : ∀ job repository schedule,
    checks.world.db.checked job = some (repository, schedule) →
      schedule.subsetParts.all fun parts => 2 ≤ parts && parts ≤ 100
  owners : ∀ first second repository, checks.world.db.repositoryOf first = some repository →
    checks.world.db.repositoryOf second = some repository → first = second
  inRange : ∀ repository cursor parts, checks.world.db.cursor repository = some cursor →
    cursor.parts = some parts → 1 ≤ cursor.next ∧ cursor.next ≤ parts
  single : ∀ first second row other, checks.world.db.checkRun first = some row →
    checks.world.db.checkRun second = some other → row.status.active = true →
    other.status.active = true → row.jobId = other.jobId → first = second
  planned : ∀ run row, checks.world.db.checkRun run = some row → row.status.active = true →
    checks.world.db.Planned row.jobId row.info
  /-- Only check runs are executed, as they are recorded. -/
  executing : ∀ run execution, checks.executions run = some execution →
    ∃ row, checks.world.db.checkRun run = some row ∧ row.status ≠ .queued ∧
      (row.status.active = true → row.info = execution.info ∧
        checks.world.db.repositoryOf row.jobId = some execution.repository)

theorem parts_pos {schedule : IntegrityCheckConfig}
    (valid : schedule.subsetParts.all fun parts => 2 ≤ parts && parts ≤ 100) :
    1 ≤ schedule.subsetParts.getD defaultSubsetParts := by
  cases chosen : schedule.subsetParts with
  | none => decide
  | some parts =>
      simp only [chosen, Option.all_some, Bool.and_eq_true, decide_eq_true_eq] at valid
      change 1 ≤ parts
      omega

/-- A check that starts is planned from the cursor. -/
theorem planCheck_planned {db : Db} {id : Uuid} {job : BackupJob} {repository : Repository}
    (rowPresent : db.backupJobs.get? id = some job)
    (repositoryPresent : db.repositories.get? job.repositoryId = some repository)
    (valid : job.integrityCheck.subsetParts.all fun parts => 2 ≤ parts && parts ≤ 100)
    (level : Option IntegrityLevel) : db.Planned id (planCheck job repository level) := by
  intro rotating
  have positive := parts_pos valid
  have owner := repositoryOf_of_checked (checked_of_get? rowPresent)
  have stored := cursor_of_get? repositoryPresent
  unfold planCheck at rotating ⊢
  dsimp only at rotating ⊢
  split at rotating
  case isFalse other => exact absurd rotating other
  case isTrue chosen =>
    rw [if_pos chosen]
    dsimp only
    by_cases resumes : repository.checkSubsetParts =
        some (job.integrityCheck.subsetParts.getD defaultSubsetParts) ∧
        1 ≤ repository.checkSubsetNext ∧
        repository.checkSubsetNext ≤ job.integrityCheck.subsetParts.getD defaultSubsetParts
    · rw [if_pos resumes]
      exact ⟨_, _, _, _, rfl, rfl, resumes.2.1, resumes.2.2, owner, stored,
        Or.inr ⟨resumes.1, rfl⟩⟩
    · rw [if_neg resumes]
      exact ⟨1, _, _, _, rfl, rfl, Nat.le_refl 1, positive, owner, stored, Or.inl rfl⟩

/-- The part a passed check moves the cursor to is one of the parts. -/
theorem advance_inRange {cursor : Cursor} {info : CheckInfo} {parts : Nat}
    (inRange : ∀ parts, cursor.parts = some parts → 1 ≤ cursor.next ∧ cursor.next ≤ parts)
    (advanced : (cursor.advance info).parts = some parts) :
    1 ≤ (cursor.advance info).next ∧ (cursor.advance info).next ≤ parts := by
  unfold Cursor.advance at advanced ⊢
  split at advanced
  case h_2 => exact inRange parts advanced
  case h_1 part total _ _ _ =>
    split at advanced
    case isFalse unnumbered =>
      rw [if_neg unnumbered]
      exact inRange parts advanced
    case isTrue numbered =>
      rw [if_pos numbered]
      cases advanced
      have := Nat.mod_lt part (Nat.pos_of_ne_zero numbered.2)
      exact ⟨Nat.succ_pos _, this⟩

section Sound

variable {before after : Checks} {action : CheckAction}

/-- The check that passes was planned for the repository whose cursor it moves. -/
theorem Checks.Sound.passing (sound : before.Sound) {run repository : Uuid} {row : JobRun}
    {execution : Execution} {info : CheckInfo}
    (stored : before.world.db.checkRun run = some row) (running : row.status = .running)
    (executed : before.executions run = some execution)
    (ofRun : (info = execution.info ∧ repository = execution.repository) ∨
      info = row.info ∧ before.world.db.repositoryOf row.jobId = some repository) :
    info = row.info ∧ info = execution.info ∧ repository = execution.repository ∧
      before.world.db.repositoryOf row.jobId = some repository := by
  obtain ⟨other, present, _, agrees⟩ := sound.executing run execution executed
  rw [stored] at present
  cases present
  obtain ⟨same, owner⟩ := agrees (by rw [running]; rfl)
  rcases ofRun with ⟨rfl, rfl⟩ | ⟨rfl, owned⟩
  · exact ⟨same.symm, rfl, rfl, owner⟩
  · rw [owner] at owned
    cases owned
    exact ⟨rfl, same, rfl, owner⟩

/-- A step leaves the plan of a check that goes on as good as it was: only the check itself
moves its repository's cursor. -/
theorem Checks.Sound.planned_step (sound : before.Sound) (move : before.Move action after)
    {run : Uuid} {row old : JobRun} (present : after.world.db.checkRun run = some row)
    (active : row.status.active = true) (stored : before.world.db.checkRun run = some old)
    (wasActive : old.status.active = true) (ofJob : row.jobId = old.jobId)
    (sameInfo : row.checkInfo = old.checkInfo) :
    after.world.db.Planned row.jobId row.info := by
  intro rotating
  have plan := sound.planned run old stored wasActive
  have info : row.info = old.info := by
    unfold JobRun.info
    rw [sameInfo]
  rw [info] at rotating ⊢
  obtain ⟨part, parts, repository, cursor, hasPart, hasParts, low, high, owner, found,
    stands⟩ := plan rotating
  have kept := move.cursor_isSome repository
  rw [found, Option.isSome_some] at kept
  obtain ⟨next, nextFound⟩ := Option.isSome_iff_exists.mp kept
  have ownerAfter : after.world.db.repositoryOf row.jobId = some repository := by
    rw [move.repositoryOf, ofJob]
    exact owner
  refine ⟨part, parts, repository, next, hasPart, hasParts, low, high, ownerAfter, nextFound, ?_⟩
  obtain ⟨was, wasFound, ⟨sameParts, sameNext⟩ | moves⟩ := move.cursor_origin nextFound
  · rw [found] at wasFound
    cases wasFound
    rw [sameParts, sameNext]
    exact stands
  · obtain ⟨passing, passingRow, execution, info, passed, running, executed, ofRun, _, ended,
      isOver, finished⟩ := moves
    have passingActive : passingRow.status.active = true := by rw [running]; rfl
    obtain ⟨_, _, _, passingOwner⟩ := sound.passing passed running executed ofRun
    have sameJob := sound.owners _ _ _ owner passingOwner
    have sameRun := sound.single _ _ _ _ stored passed wasActive passingActive sameJob
    subst sameRun
    rw [present] at isOver
    cases isOver
    rw [active] at finished
    cases finished

/-- An accepted schedule keeps to the bounds; every other step keeps the schedules. -/
theorem Checks.Sound.schedules_step (sound : before.Sound) (move : before.Move action after)
    {job repository : Uuid} {schedule : IntegrityCheckConfig}
    (present : after.world.db.checked job = some (repository, schedule)) :
    schedule.subsetParts.all fun parts => 2 ≤ parts && parts ≤ 100 := by
  cases move with
  | ends _ checked | starts _ _ _ _ _ checked | claims _ _ checked
  | passes _ _ _ _ _ checked | relocates _ _ _ checked =>
      rw [checked] at present
      exact sound.schedules job repository schedule present
  | schedules valid _ checked =>
      rw [checked] at present
      dsimp only at present
      split at present
      case isFalse => exact sound.schedules job repository schedule present
      case isTrue =>
        obtain ⟨old, _, same⟩ := Option.map_eq_some_iff.mp present
        cases same
        exact valid

/-- A check only starts while no other of its job is under way. -/
theorem not_idle {db : Db} {job run : Uuid} {row : JobRun}
    (idle : db.jobRuns.anyWhere (activeRun job) = false)
    (stored : db.checkRun run = some row) (active : row.status.active = true) :
    row.jobId ≠ job := by
  intro same
  have quiet := Table.anyWhere_eq_false.mp idle run row (Db.get?_of_checkRun stored).1
  simp [activeRun, same, active] at quiet

theorem Checks.Sound.single_step (sound : before.Sound) (move : before.Move action after)
    {first second : Uuid} {row other : JobRun}
    (firstFound : after.world.db.checkRun first = some row)
    (secondFound : after.world.db.checkRun second = some other)
    (firstActive : row.status.active = true) (secondActive : other.status.active = true)
    (sameJob : row.jobId = other.jobId) : first = second := by
  rcases move.run_origin firstFound firstActive with
    ⟨old, wasFound, wasActive, _, ofJob, _⟩ | ⟨_, idle, _, others, _⟩
  · rcases move.run_origin secondFound secondActive with
      ⟨older, otherFound, otherActive, _, otherJob, _⟩ | ⟨_, idle, _⟩
    · exact sound.single first second old older wasFound otherFound wasActive otherActive
        (ofJob.symm.trans (sameJob.trans otherJob))
    · exact absurd (ofJob.symm.trans sameJob) (not_idle idle wasFound wasActive)
  · by_contra different
    rw [others second (Ne.symm different)] at secondFound
    exact not_idle idle secondFound secondActive sameJob.symm

theorem planned_congr {db other : Db} {job : Uuid} {info : CheckInfo}
    (owner : other.repositoryOf = db.repositoryOf) (cursor : other.cursor = db.cursor)
    (planned : db.Planned job info) : other.Planned job info := by
  unfold Db.Planned
  rw [owner, cursor]
  exact planned

/-- What a started check is executed as is what its run says. -/
theorem startedExecution_agrees {db : Db} {job : Uuid} {row : BackupJob}
    {repository : Repository} {level : Option IntegrityLevel} {execution : Execution}
    (rowPresent : db.backupJobs.get? job = some row)
    (repositoryPresent : db.repositories.get? row.repositoryId = some repository)
    (started : startedExecution db job level = some execution) :
    execution.info = planCheck row repository level ∧
      execution.repository = row.repositoryId ∧ execution.place = repository.place ∧
      row.location = .«local» := by
  unfold startedExecution at started
  rw [joined_of rowPresent repositoryPresent] at started
  dsimp only at started
  split at started
  case isFalse => cases started
  case isTrue isLocal =>
    cases started
    exact ⟨rfl, rfl, rfl, isLocal⟩

/-- A run that was executed before is still recorded as it is executed. -/
theorem Checks.Sound.executing_kept (sound : before.Sound) (move : before.Move action after)
    {run : Uuid} {execution : Execution} (executed : before.executions run = some execution) :
    ∃ row, after.world.db.checkRun run = some row ∧ row.status ≠ .queued ∧
      (row.status.active = true → row.info = execution.info ∧
        after.world.db.repositoryOf row.jobId = some execution.repository) := by
  obtain ⟨old, stored, started, agrees⟩ := sound.executing run execution executed
  obtain ⟨row, present, origin⟩ := move.run_next stored
  have left : row.status ≠ .queued := by
    intro waits
    obtain ⟨_, waited, _⟩ := origin (by rw [waits]; rfl)
    exact started (waited waits)
  refine ⟨row, present, left, fun active => ?_⟩
  obtain ⟨wasActive, _, ofJob, sameInfo⟩ := origin active
  obtain ⟨info, owner⟩ := agrees wasActive
  rw [move.repositoryOf, ofJob]
  refine ⟨?_, owner⟩
  unfold JobRun.info at info ⊢
  rw [sameInfo]
  exact info

theorem Checks.Sound.executing_step (sound : before.Sound) (move : before.Move action after)
    {run : Uuid} {execution : Execution} (executed : after.executions run = some execution) :
    ∃ row, after.world.db.checkRun run = some row ∧ row.status ≠ .queued ∧
      (row.status.active = true → row.info = execution.info ∧
        after.world.db.repositoryOf row.jobId = some execution.repository) := by
  by_cases known : before.executions run = some execution
  · exact sound.executing_kept move known
  have owners := move.repositoryOf
  cases move with
  | ends _ _ _ fewer | passes _ _ _ _ _ _ _ _ _ fewer =>
      exact absurd (fewer run execution executed) known
  | schedules _ _ _ _ same | relocates _ _ _ _ _ same =>
      rw [same] at executed
      exact absurd executed known
  | @starts _ _ new _ _ _ _ _ rowPresent repositoryPresent _ _ _ _ runs ofJob planned
      executions running =>
      rw [executions] at executed
      by_cases same : run = new
      · subst same
        rw [Function.update_self] at executed
        obtain ⟨info, owner, _, isLocal⟩ :=
          startedExecution_agrees rowPresent repositoryPresent executed
        refine ⟨_, by rw [runs, Function.update_self], ?_, fun _ => ⟨?_, ?_⟩⟩
        · rw [running isLocal]
          exact nofun
        · rw [JobRun.info, planned, info]
          rfl
        · rw [owners, ofJob, owner]
          exact repositoryOf_of_checked (checked_of_get? rowPresent)
      · rw [Function.update_of_ne same] at executed
        exact absurd executed known
  | @claims _ _ agent queued listed _ _ runs executions =>
      rcases executions with same | executions
      · rw [same] at executed
        exact absurd executed known
      · rw [executions] at executed
        by_cases same : run = queued.id
        · subst same
          rw [Function.update_self] at executed
          cases executed
          refine ⟨(RunUpdate.claim queued.id agent).set before.world.now queued.run,
            by rw [runs, Function.update_self], nofun, fun _ => ⟨rfl, ?_⟩⟩
          rw [owners]
          exact repositoryOf_of_checked (checked_of_get? (joined_of_mem_queuedRuns listed).1)
        · rw [Function.update_of_ne same] at executed
          exact absurd executed known

theorem Checks.Sound.step (sound : before.Sound) (move : before.Move action after) :
    after.Sound where
  schedules job repository schedule present := sound.schedules_step move present
  owners first second repository firstOwner secondOwner := by
    rw [move.repositoryOf] at firstOwner secondOwner
    exact sound.owners first second repository firstOwner secondOwner
  inRange repository cursor parts present hasParts := by
    obtain ⟨old, found, ⟨sameParts, sameNext⟩ | moves⟩ := move.cursor_origin present
    · rw [sameParts] at hasParts
      rw [sameNext]
      exact sound.inRange repository old parts found hasParts
    · obtain ⟨_, _, _, _, _, _, _, _, rfl, _⟩ := moves
      exact advance_inRange (fun parts => sound.inRange repository old parts found) hasParts
  single first second row other firstFound secondFound firstActive secondActive sameJob :=
    sound.single_step move firstFound secondFound firstActive secondActive sameJob
  planned run row present active := by
    rcases move.run_origin present active with
      ⟨old, stored, wasActive, _, ofJob, sameInfo⟩ |
        ⟨_, _, cursor, _, job, repository, level, rowPresent, repositoryPresent, planned⟩
    · exact sound.planned_step move present active stored wasActive ofJob sameInfo
    · refine planned_congr move.repositoryOf cursor ?_
      rw [JobRun.info, planned]
      exact planCheck_planned rowPresent repositoryPresent
        (sound.schedules _ _ _ (checked_of_get? rowPresent)) level
  executing run execution executed := sound.executing_step move executed

theorem Checks.Fresh.sound {checks : Checks} (fresh : checks.Fresh) : checks.Sound where
  schedules job repository schedule present := by
    obtain ⟨row, stored, same⟩ := Option.map_eq_some_iff.mp present
    cases same
    exact fresh.schedules job row stored
  owners first second repository firstOwner secondOwner := by
    obtain ⟨checked, found, rfl⟩ := Option.map_eq_some_iff.mp firstOwner
    obtain ⟨other, otherFound, same⟩ := Option.map_eq_some_iff.mp secondOwner
    obtain ⟨row, stored, rfl⟩ := Option.map_eq_some_iff.mp found
    obtain ⟨otherRow, otherStored, rfl⟩ := Option.map_eq_some_iff.mp otherFound
    exact fresh.owners first second row otherRow stored otherStored same.symm
  inRange repository cursor parts present hasParts := by
    obtain ⟨row, stored, rfl⟩ := Option.map_eq_some_iff.mp present
    have none := (fresh.cursors repository row stored).2
    rw [Repository.cursor, none] at hasParts
    cases hasParts
  single first second row other firstFound := by
    obtain ⟨stored, check⟩ := Db.get?_of_checkRun firstFound
    exact absurd check (fresh.runs first row stored)
  planned run row found := by
    obtain ⟨stored, check⟩ := Db.get?_of_checkRun found
    exact absurd check (fresh.runs run row stored)
  executing run execution executed := by
    rw [fresh.executions] at executed
    cases executed

end Sound

/-! ## What the cursor stands for -/

section Faithful

/-- A rotating check of the job that is running. -/
def rotatingRun (job : Uuid) (_ : Uuid) (row : JobRun) : Bool :=
  row.jobId = job && row.kind = .check && row.status = .running && row.info.level = .rotating

/-- The job's rotation stands at part 1, and none of its parts is being read. -/
def atRest (db : Db) (job : Uuid) : Bool :=
  match joined (db.backupJobs.get? job) fun row => db.repositories.get? row.repositoryId with
  | none => true
  | some (_, repository) =>
      (repository.checkSubsetParts.isNone || repository.checkSubsetNext = 1) &&
        !db.jobRuns.anyWhere (rotatingRun job)

/-- A repository is taken to another place only while its rotation is at rest. -/
def movesAtRest (checks : Checks) : CheckAction → Bool
  | .updateJob user job dto =>
      !relocates checks.world user job dto || atRest checks.world.db job
  | _ => true

structure Checks.Faithful (checks : Checks) : Prop where
  /-- The parts before the cursor were read where the repository is. -/
  progress : ∀ repository cursor parts, checks.world.db.cursor repository = some cursor →
    cursor.parts = some parts →
      Covers (checks.readings repository) cursor.place parts (cursor.next - 1)
  /-- A running check reads where the repository is. -/
  sited : ∀ run row execution, checks.executions run = some execution →
    checks.world.db.checkRun run = some row → row.status = .running →
    execution.info.level = .rotating →
      ∃ cursor, checks.world.db.cursor execution.repository = some cursor ∧
        cursor.place = execution.place
  verified : ∀ verification ∈ checks.verifications,
    Covers verification.history verification.place verification.parts verification.parts

variable {before after : Checks} {action : CheckAction}

/-- The reading a rotating check adds continues what the cursor stands for. -/
theorem covers_reading {db : Db} {history : List (Reading Place)} {job repository : Uuid}
    {info : CheckInfo} {cursor : Cursor} {part parts : Nat}
    (planned : db.Planned job info) (rotating : info.level = .rotating)
    (hasPart : info.part = some part) (hasParts : info.parts = some parts)
    (owner : db.repositoryOf job = some repository)
    (found : db.cursor repository = some cursor)
    (progress : ∀ parts, cursor.parts = some parts →
      Covers history cursor.place parts (cursor.next - 1)) :
    1 ≤ part ∧ part ≤ parts ∧
      Covers ({ place := cursor.place, part, parts } :: history) cursor.place parts part := by
  obtain ⟨first, total, other, stored, partIs, partsIs, low, high, owned, present, stands⟩ :=
    planned rotating
  rw [hasPart] at partIs
  rw [hasParts] at partsIs
  rw [owner] at owned
  cases partIs
  cases partsIs
  cases owned
  rw [found] at present
  cases present
  refine ⟨low, high, ?_⟩
  rcases stands with rfl | ⟨split, next⟩
  · exact Covers.restart
  · obtain ⟨last, rfl⟩ := Nat.exists_eq_add_of_le' low
    have read := progress parts split
    rw [next, Nat.add_sub_cancel] at read
    exact read.next

/-- Away from verdicts and moves of repositories, readings and cursors stay as they are. -/
theorem Checks.Faithful.same_book (faithful : before.Faithful)
    (cursor : after.world.db.cursor = before.world.db.cursor) (book : before.SameBook after)
    (sited : ∀ run row execution, after.executions run = some execution →
      after.world.db.checkRun run = some row → row.status = .running →
      execution.info.level = .rotating →
        ∃ cursor, before.world.db.cursor execution.repository = some cursor ∧
          cursor.place = execution.place) : after.Faithful where
  progress repository stored parts present hasParts := by
    rw [cursor] at present
    rw [book.readings]
    exact faithful.progress repository stored parts present hasParts
  sited run row execution executed present running rotating := by
    rw [cursor]
    exact sited run row execution executed present running rotating
  verified verification member := by
    rw [book.verifications] at member
    exact faithful.verified verification member

/-- A check that is running after a step, and was executed before it, was running. -/
theorem Checks.Sound.was_running (sound : before.Sound) (move : before.Move action after)
    {run : Uuid} {row : JobRun} {execution : Execution}
    (executed : before.executions run = some execution)
    (present : after.world.db.checkRun run = some row) (running : row.status = .running) :
    ∃ old, before.world.db.checkRun run = some old ∧ old.status = .running := by
  obtain ⟨old, stored, started, _⟩ := sound.executing run execution executed
  obtain ⟨next, found, origin⟩ := move.run_next stored
  rw [present] at found
  cases found
  obtain ⟨wasActive, _⟩ := origin (by rw [running]; rfl)
  refine ⟨old, stored, ?_⟩
  cases status : old.status with
  | running => rfl
  | queued => exact absurd status started
  | success | failed | cancelled =>
      rw [status] at wasActive
      cases wasActive

/-- Where a repository is configured while its check is running is where that reads. -/
theorem Checks.Faithful.sited_kept (faithful : before.Faithful) (sound : before.Sound)
    (move : before.Move action after) {run : Uuid} {row : JobRun} {execution : Execution}
    (executed : before.executions run = some execution)
    (present : after.world.db.checkRun run = some row) (running : row.status = .running)
    (rotating : execution.info.level = .rotating) :
    ∃ cursor, before.world.db.cursor execution.repository = some cursor ∧
      cursor.place = execution.place := by
  obtain ⟨old, stored, wasRunning⟩ := sound.was_running move executed present running
  exact faithful.sited run old execution executed stored wasRunning rotating

/-- A check that passes where its repository is. -/
theorem Checks.Faithful.passes (faithful : before.Faithful) (sound : before.Sound)
    {run repository : Uuid} {row : JobRun} {execution : Execution} {info : CheckInfo}
    (stored : before.world.db.checkRun run = some row) (running : row.status = .running)
    (executed : before.executions run = some execution)
    (same : info = execution.info) (home : repository = execution.repository)
    (planned : info = row.info)
    (owner : before.world.db.repositoryOf row.jobId = some repository)
    (rotating : info.level = .rotating) :
    ∃ cursor part parts, before.world.db.cursor repository = some cursor ∧
      info.part = some part ∧ info.parts = some parts ∧ 1 ≤ part ∧ part ≤ parts ∧
      before.readingsAfter execution = Function.update before.readings repository
        ({ place := cursor.place, part, parts } :: before.readings repository) ∧
      Covers ({ place := cursor.place, part, parts } :: before.readings repository)
        cursor.place parts part := by
  subst same home
  have active : row.status.active = true := by rw [running]; rfl
  have plan := sound.planned run row stored active
  rw [← planned] at plan
  obtain ⟨part, parts, _, _, hasPart, hasParts, _⟩ := plan rotating
  obtain ⟨cursor, found, place⟩ := faithful.sited run row execution executed stored running
    rotating
  obtain ⟨low, high, covers⟩ := covers_reading plan rotating hasPart hasParts owner found
    fun parts => faithful.progress _ cursor parts found
  refine ⟨cursor, part, parts, found, hasPart, hasParts, low, high, ?_, covers⟩
  unfold Checks.readingsAfter Execution.reading
  rw [rotating, hasPart, hasParts, ← place]

/-- A check that passes without having read a part changes no cursor and no reading. -/
theorem quiet_verdict {checks : Checks} {execution : Execution} {info : CheckInfo}
    (same : info = execution.info) (other : info.level ≠ .rotating) (repository : Uuid) :
    (∀ cursor : Cursor, cursor.advance info = cursor) ∧
      checks.readingsAfter execution = checks.readings ∧
      checks.verification execution info repository = [] := by
  subst same
  refine ⟨fun cursor => ?_, ?_, ?_⟩
  · unfold Cursor.advance
    split
    case h_1 rotating _ _ => exact absurd rotating other
    case h_2 => rfl
  · unfold Checks.readingsAfter Execution.reading
    split
    case h_1 => rfl
    case h_2 none =>
      split at none
      case h_1 rotating _ _ => exact absurd rotating other
      case h_2 => cases none
  · unfold Checks.verification
    rw [decide_eq_false other, Bool.false_and, if_neg Bool.false_ne_true]

theorem advance_rotating {cursor : Cursor} {info : CheckInfo} {part parts : Nat}
    (rotating : info.level = .rotating) (hasPart : info.part = some part)
    (hasParts : info.parts = some parts) (low : 1 ≤ part) (high : part ≤ parts) :
    cursor.advance info = { cursor with parts := some parts, next := part % parts + 1 } := by
  unfold Cursor.advance
  rw [rotating, hasPart, hasParts]
  exact if_pos ⟨by omega, by omega⟩

/-- Once a part is read, the parts before the new position were read. -/
theorem covers_advanced {history : List (Reading Place)} {place : Place} {part parts : Nat}
    (covers : Covers history place parts part) :
    Covers history place parts (part % parts + 1 - 1) := by
  intro number positive bounded
  have least := Nat.mod_le part parts
  exact covers number positive (by omega)

/-- What a completed rotation verifies is covered. -/
theorem verified_covers {execution : Execution} {info : CheckInfo} {repository : Uuid}
    {cursor : Cursor} {part parts : Nat} {history : List (Reading Place)}
    (found : before.world.db.cursor repository = some cursor)
    (hasPart : info.part = some part) (hasParts : info.parts = some parts)
    (readings : before.readingsAfter execution repository = history)
    (covers : Covers history cursor.place parts part) {verification : Verification}
    (member : verification ∈ before.verification execution info repository) :
    Covers verification.history verification.place verification.parts verification.parts := by
  unfold Checks.verification at member
  split at member
  case isFalse => cases member
  case isTrue completes =>
    obtain ⟨rotating, complete⟩ := (Bool.and_eq_true ..).mp completes
    obtain ⟨row, stored, rfl⟩ := Option.map_eq_some_iff.mp found
    rw [stored] at member
    rw [List.mem_singleton.mp member, readings, hasParts]
    unfold CheckInfo.completesVerification at complete
    rw [of_decide_eq_true rotating, hasPart, hasParts] at complete
    have last : part = parts := by
      simp only [Option.isSome_some, Bool.true_and, Bool.and_eq_true, decide_eq_true_eq,
        Option.some.injEq] at complete
      exact complete.1
    subst last
    exact covers

theorem Checks.Faithful.passes_step (faithful : before.Faithful) {repository : Uuid}
    {execution : Execution} {info : CheckInfo} {cursor : Cursor} {part parts : Nat}
    (rotating : info.level = .rotating) (hasPart : info.part = some part)
    (hasParts : info.parts = some parts) (low : 1 ≤ part) (high : part ≤ parts)
    (found : before.world.db.cursor repository = some cursor)
    (read : before.readingsAfter execution = Function.update before.readings repository
      ({ place := cursor.place, part, parts } :: before.readings repository))
    (covers : Covers ({ place := cursor.place, part, parts } :: before.readings repository)
      cursor.place parts part)
    (moved : after.world.db.cursor = fun id =>
      if id = repository then (before.world.db.cursor id).map (·.advance info)
      else before.world.db.cursor id)
    (readings : after.readings = before.readingsAfter execution)
    (verifications : after.verifications =
      before.verification execution info repository ++ before.verifications)
    (kept : ∀ run row execution, after.executions run = some execution →
      after.world.db.checkRun run = some row → row.status = .running →
      execution.info.level = .rotating →
        ∃ cursor, before.world.db.cursor execution.repository = some cursor ∧
          cursor.place = execution.place) : after.Faithful where
  progress other stored total present split := by
    rw [readings, read]
    rw [moved] at present
    dsimp only at present
    by_cases same : other = repository
    · subst same
      rw [if_pos rfl, found, Option.map_some,
        advance_rotating rotating hasPart hasParts low high] at present
      cases present
      cases split
      rw [Function.update_self]
      exact covers_advanced covers
    · rw [if_neg same] at present
      rw [Function.update_of_ne same]
      exact faithful.progress other stored total present split
  sited run row execution executed present running rotates := by
    obtain ⟨stored, here, place⟩ := kept run row execution executed present running rotates
    rw [moved]
    dsimp only
    split
    · exact ⟨_, by rw [here, Option.map_some], (stored.advance_place info).trans place⟩
    · exact ⟨stored, here, place⟩
  verified verification member := by
    rw [verifications] at member
    rcases List.mem_append.mp member with new | old
    · refine verified_covers found hasPart hasParts ?_ covers new
      rw [read, Function.update_self]
    · exact faithful.verified verification old

/-- A repository that moves at rest leaves nothing behind that its cursor stands for. -/
theorem Checks.Faithful.relocates_step (faithful : before.Faithful) (sound : before.Sound)
    {job : Uuid} {row : BackupJob} {repository : Repository} {place : Place}
    (rowPresent : before.world.db.backupJobs.get? job = some row)
    (repositoryPresent : before.world.db.repositories.get? row.repositoryId = some repository)
    (rests : atRest before.world.db job = true)
    (moved : after.world.db.cursor = fun id =>
      if id = row.repositoryId then
        (before.world.db.cursor id).map fun old => { old with place }
      else before.world.db.cursor id)
    (runs : after.world.db.checkRun = before.world.db.checkRun)
    (executions : after.executions = before.executions) (book : before.SameBook after) :
    after.Faithful := by
  unfold atRest at rests
  rw [joined_of rowPresent repositoryPresent] at rests
  obtain ⟨first, idle⟩ := (Bool.and_eq_true ..).mp rests
  refine ⟨?_, ?_, ?_⟩
  · intro other stored parts present split
    rw [book.readings]
    rw [moved] at present
    dsimp only at present
    by_cases same : other = row.repositoryId
    · rw [if_pos same, same, cursor_of_get? repositoryPresent, Option.map_some] at present
      cases present
      have start : repository.checkSubsetNext = 1 := by
        have parted : repository.checkSubsetParts = some parts := split
        rw [parted] at first
        exact of_decide_eq_true ((Bool.false_or _).symm.trans first)
      change Covers _ _ _ (repository.checkSubsetNext - 1)
      rw [start]
      exact Covers.zero
    · rw [if_neg same] at present
      exact faithful.progress other stored parts present split
  · intro run ran execution executed present running rotating
    rw [executions] at executed
    rw [runs] at present
    obtain ⟨stored, found, here⟩ :=
      faithful.sited run ran execution executed present running rotating
    by_cases same : execution.repository = row.repositoryId
    · obtain ⟨recorded, again, _, agrees⟩ := sound.executing run execution executed
      rw [present] at again
      cases again
      obtain ⟨info, owner⟩ := agrees (by rw [running]; rfl)
      have ofJob : ran.jobId = job := by
        refine sound.owners _ _ _ owner ?_
        rw [same]
        exact repositoryOf_of_checked (checked_of_get? rowPresent)
      obtain ⟨listed, check⟩ := Db.get?_of_checkRun present
      have none := Table.anyWhere_eq_false.mp ((Bool.not_eq_true' _).mp idle) run ran listed
      simp [rotatingRun, ofJob, check, running, info, rotating] at none
    · rw [moved]
      dsimp only
      rw [if_neg same]
      exact ⟨stored, found, here⟩
  · intro verification member
    rw [book.verifications] at member
    exact faithful.verified verification member

theorem Checks.Faithful.step (faithful : before.Faithful) (sound : before.Sound)
    (move : before.Move action after) (rests : movesAtRest before action = true) :
    after.Faithful := by
  have kept : ∀ run row execution, before.executions run = some execution →
      after.world.db.checkRun run = some row → row.status = .running →
      execution.info.level = .rotating →
        ∃ cursor, before.world.db.cursor execution.repository = some cursor ∧
          cursor.place = execution.place :=
    fun _ _ _ executed present running rotating =>
      faithful.sited_kept sound move executed present running rotating
  cases move with
  | ends cursor _ _ fewer book =>
      refine faithful.same_book cursor book ?_
      intro run row execution executed
      exact kept run row execution (fewer run execution executed)
  | schedules _ cursor _ _ executions book =>
      refine faithful.same_book cursor book ?_
      intro run row execution executed
      exact kept run row execution (executions ▸ executed)
  | @starts _ _ new _ _ _ _ _ rowPresent repositoryPresent _ _ cursor _ _ _ _ executions _ book =>
      refine faithful.same_book cursor book ?_
      intro run row execution executed present running rotating
      rw [executions] at executed
      by_cases same : run = new
      · subst same
        rw [Function.update_self] at executed
        obtain ⟨_, home, place, _⟩ :=
          startedExecution_agrees rowPresent repositoryPresent executed
        exact ⟨_, home ▸ cursor_of_get? repositoryPresent, place.symm⟩
      · rw [Function.update_of_ne same] at executed
        exact kept run row execution executed present running rotating
  | @claims _ _ agent queued listed cursor _ _ executions book =>
      refine faithful.same_book cursor book ?_
      intro run row execution executed present running rotating
      rcases executions with same | executions
      · exact kept run row execution (same ▸ executed) present running rotating
      rw [executions] at executed
      by_cases same : run = queued.id
      · subst same
        rw [Function.update_self] at executed
        cases executed
        exact ⟨_, cursor_of_get? (joined_of_mem_queuedRuns listed).2, rfl⟩
      · rw [Function.update_of_ne same] at executed
        exact kept run row execution executed present running rotating
  | @passes _ _ run repository execution row _ info executed stored running ofRun moved _ _ _ _
      fewer readings verifications =>
      have owned : (info = execution.info ∧ repository = execution.repository) ∨
          info = row.info ∧ before.world.db.repositoryOf row.jobId = some repository := by
        rcases ofRun with own | ⟨planned, schedule, owner⟩
        · exact Or.inl own
        · exact Or.inr ⟨planned, repositoryOf_of_checked owner⟩
      obtain ⟨planned, same, home, owner⟩ := sound.passing stored running executed owned
      have sited := fun run row execution executed =>
        kept run row execution (fewer run execution executed)
      by_cases rotating : info.level = .rotating
      · obtain ⟨cursor, part, parts, found, hasPart, hasParts, low, high, read, covers⟩ :=
          faithful.passes sound stored running executed same home planned owner rotating
        exact faithful.passes_step rotating hasPart hasParts low high found read covers moved
          readings verifications sited
      · obtain ⟨stays, unread, unverified⟩ := quiet_verdict same rotating repository
        refine faithful.same_book ?_ ⟨readings.trans unread, ?_⟩ sited
        · funext id
          rw [moved]
          dsimp only
          split
          · simp [stays]
          · rfl
        · rw [verifications, unverified, List.nil_append]
  | @relocates _ user job dto row place elsewhere rowPresent moved _ runs executions book =>
      have rest : atRest before.world.db job = true := by
        change (!relocates before.world user job dto || atRest before.world.db job) = true
          at rests
        rwa [elsewhere, Bool.not_true, Bool.false_or] at rests
      unfold relocates at elsewhere
      split at elsewhere
      case h_1 => cases elsewhere
      case h_2 other repository found =>
        obtain ⟨present, repositoryPresent⟩ := of_joined found
        rw [rowPresent] at present
        cases present
        exact faithful.relocates_step sound rowPresent repositoryPresent rest moved runs
          executions book

/-- A check that was planned from part 1 of its rotation is one of its parts: the cursor
stays within the split it belongs to, whatever is edited meanwhile. -/
theorem reachable_sound {editing : Editing} {allowed : Checks → CheckAction → Prop}
    {checks : Checks} (reached : (rotatingChecks editing).Reachable allowed checks) :
    checks.Sound := by
  refine System.Invariant.holds ⟨?_, ?_⟩ reached
  · intro state fresh
    exact Checks.Fresh.sound fresh
  · intro state action next sound _ moved
    refine sound.step (step_move editing ?_ moved)
    intro run execution executed
    obtain ⟨row, present, _⟩ := sound.executing run execution executed
    exact ⟨row, present⟩

theorem Checks.Fresh.faithful {checks : Checks} (fresh : checks.Fresh) : checks.Faithful where
  progress repository cursor parts present split := by
    obtain ⟨row, stored, rfl⟩ := Option.map_eq_some_iff.mp present
    have none := (fresh.cursors repository row stored).2
    rw [Repository.cursor, none] at split
    cases split
  sited run row execution executed := by
    rw [fresh.executions] at executed
    cases executed
  verified verification member := by
    rw [fresh.verifications] at member
    cases member

/-- **Rotating checks verify what they say, as long as repositories move at rest.** The
cursor of a rotation is one of its parts, and when a rotating check sets
`data_verified_at`, every part was read back under the same split, at the place the
repository is configured with, since the rotation last restarted at part 1. -/
theorem rotations_never_overclaim (editing : Editing) (checks : Checks)
    (reached : (rotatingChecks editing).Reachable
      (fun checks action => movesAtRest checks action = true) checks) :
    (∀ id repository parts, checks.world.db.repositories.get? id = some repository →
      repository.checkSubsetParts = some parts →
        1 ≤ repository.checkSubsetNext ∧ repository.checkSubsetNext ≤ parts) ∧
      ∀ verification ∈ checks.verifications,
        Covers verification.history verification.place verification.parts
          verification.parts := by
  constructor
  · intro id repository parts present split
    exact (reachable_sound reached).inRange id repository.cursor parts (cursor_of_get? present)
      split
  · have faithful : checks.Faithful := by
      refine System.Invariant.onTopOf Checks.Sound Checks.Faithful
        (fun state reached => reachable_sound reached) (fun state fresh => fresh.faithful) ?_
        reached
      intro state action next sound _ faithful rests moved
      refine faithful.step sound (step_move editing ?_ moved) rests
      intro run execution executed
      obtain ⟨row, present, _⟩ := sound.executing run execution executed
      exact ⟨row, present⟩
    exact faithful.verified

end Faithful

/-! ## A repository that moves in the middle of a rotation -/

def plainEditing : Editing where
  platform := {
    decrypt := fun ciphertext _ _ => some ciphertext
    parseCredentials := fun _ => some []
    readFigures := fun _ => .ok (some 0, 0)
    publicBaseUrl := "https://amber.example" }
  encrypt plaintext _ := (plaintext, "")
  renderCredentials _ := "{}"
  validCron _ := true

/-- A job of the server that checks its repository in two parts. -/
def rotatingJob : Checks where
  world := {
    db := {
      secrets := .ofList [(0, { type := .repoPassword, ciphertext := "secret", nonce := "" })]
      repositories := .ofList [(0, {
        name := "files", targetId := none, repoConfig := [("path", .text "/old")]
        repoPasswordSecretId := 0 })]
      backupJobs := .ofList [(0, {
        name := "files", location := .«local», repositoryId := 0
        integrityCheck := { level := some .rotating, subsetParts := some 2 } })] }
    now := 0 }

theorem fresh_rotatingJob : rotatingJob.Fresh where
  executions _ := rfl
  readings _ := rfl
  verifications := rfl
  cursors id row present := by
    have member := Table.mem_rows.mpr present
    have listed := List.mem_singleton.mp member
    cases listed
    exact ⟨rfl, rfl⟩
  runs id row present := nomatch present
  schedules id row present := by
    have listed := List.mem_singleton.mp (Table.mem_rows.mpr present)
    cases listed
    rfl
  owners first second row other present otherPresent _ := by
    have listed := List.mem_singleton.mp (Table.mem_rows.mpr present)
    have otherListed := List.mem_singleton.mp (Table.mem_rows.mpr otherPresent)
    cases listed
    cases otherListed
    rfl

def administrator : RequestUser := { id := 0, isAdmin := true }

def passed : CheckOutcome := { status := .success, damaged := false }

/-- Part 1 is read at the old place, part 2 at the new one. -/
def movedMidway : List CheckAction :=
  [.start none 0 .schedule none, .settle 0 passed,
    .updateJob administrator 0 { repoConfig := some [("path", .text "/new")] },
    .start none 0 .schedule none, .settle 1 passed]

/-- The last part of the rotation verifies the new place, where part 1 was never read. -/
theorem moved_midway_overclaims : ∃ checks verification,
    (rotatingChecks plainEditing).Reachable (fun _ _ => True) checks ∧
      verification ∈ checks.verifications ∧
      ¬ Covers verification.history verification.place verification.parts
        verification.parts := by
  let claimed : Verification := {
    repository := 0
    place := (none, [("path", .text "/new")])
    parts := 2
    history := [
      { place := (none, [("path", .text "/new")]), part := 2, parts := 2 },
      { place := (none, [("path", .text "/old")]), part := 1, parts := 2 }] }
  have ends : (System.runWithin (rotatingChecks plainEditing) (fun _ _ => True) rotatingJob
      movedMidway).any (fun checks => claimed ∈ checks.verifications) = true := by
    decide +kernel
  obtain ⟨checks, reached, listed⟩ := System.exists_reachable fresh_rotatingJob ends
  refine ⟨checks, claimed, reached, of_decide_eq_true listed, ?_⟩
  intro covers
  have read := covers 1 (Nat.le_refl 1) (by decide)
  exact absurd read (by decide)

/-- A rotation that ends before its repository moves verifies what it says. -/
theorem moved_at_rest_verifies : ∃ checks : Checks, checks.verifications ≠ [] ∧
    ∀ verification ∈ checks.verifications,
      Covers verification.history verification.place verification.parts
        verification.parts := by
  have ends : (System.runWithin (rotatingChecks plainEditing)
      (fun checks action => movesAtRest checks action = true) rotatingJob
      [.start none 0 .schedule none, .settle 0 passed, .start none 0 .schedule none,
        .settle 1 passed,
        .updateJob administrator 0 { repoConfig := some [("path", .text "/new")] }]).any
      (fun checks => checks.verifications ≠ []) = true := by
    decide +kernel
  obtain ⟨checks, reached, some⟩ := System.exists_reachable fresh_rotatingJob ends
  exact ⟨checks, of_decide_eq_true some,
    (rotations_never_overclaim plainEditing checks reached).2⟩


end AmberBackup
