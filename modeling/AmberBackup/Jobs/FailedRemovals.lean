import AmberBackup.Jobs.CronEntries
import AmberBackup.Jobs.EditCases
import AmberBackup.Lib.Rollback

/-! # Removals that throw

The job, its repository and its secrets are deleted by statements of their own, and the
registry is told after the last of them. A restore refers to the password of the repository
it was created from, so that a removal whose job has such a restore stops after the job and
the repository are gone. It is all or nothing exactly if nothing but the job refers to the
repository and nothing but the repository to its secrets, and no statement fails after the
first deletion (`removals_all_or_nothing`).
-/

namespace AmberBackup

open Relational Procedure

/-- The statements of `JobsService.remove`, in the order of the code. -/
inductive RemoveStatement where
  | access
  | job
  | deleteJob
  | deleteRepository
  | password
  | override
  deriving DecidableEq, Repr

section Statements

variable (user : RequestUser) (faults : RemoveStatement → Option Failure)

def checkRemove (id : Uuid) : Service (BackupJob × Repository) := do
  failing faults .access
  assertAcl user .job id .manage
  failing faults .job
  getRow id

/-- A job with the repository restricts its deletion. -/
def restrictRepository (id : Uuid) (world : World) : Except Failure Unit :=
  if world.db.backupJobs.anyWhere fun _ job => job.repositoryId = id then
    .error (.error "update or delete on table \"repositories\" violates foreign key constraint")
  else .ok ()

def deleteRepositoryUnder (id : Uuid) : Service Unit := do
  failing faults .deleteRepository
  .lift (restrictRepository id)
  deleteRepository id

def removeSecret (statement : RemoveStatement) (secret : Uuid) : Service Unit := do
  failing faults statement
  Secrets.remove secret

def removeOverride : Option Uuid → Service Unit
  | none => pure ()
  | some secret => removeSecret faults .override secret

def removeRows (id : Uuid) (job : BackupJob) (repository : Repository) : Service Unit := do
  failing faults .deleteJob
  deleteJob id
  deleteRepositoryUnder faults job.repositoryId
  removeSecret faults .password repository.repoPasswordSecretId
  removeOverride faults repository.credentialSecretId

/-- `JobsService.remove`, where the statements with a fault fail. -/
def removeJobUnder (id : Uuid) : Service Unit := do
  let (job, repository) ← checkRemove user faults id
  removeRows faults id job repository

end Statements

/-- The database and the cron registry. -/
structure JobsState where
  world : World
  registry : CronRegistry

/-- `JobsController.remove`. -/
def removeRequest (user : RequestUser) (faults : RemoveStatement → Option Failure) (id : Uuid) :
    Procedure JobsState Failure Unit := ⟨fun state =>
  match (removeJobUnder user faults id).run state.world with
  | (.ok _, world) => (.ok (), { world, registry := unregister state.registry id })
  | (.error failure, world) => (.error failure, { state with world })⟩

/-! ## What a removal promises -/

/-- The job, its runs, its repository, its secrets and its cron entries are gone. -/
structure Gone (id : Uuid) (row : BackupJob) (stored : Repository) (state : JobsState) :
    Prop where
  job : state.world.db.backupJobs.get? id = none
  runs : ∀ run row, state.world.db.jobRuns.get? run = some row → row.jobId ≠ id
  repository : state.world.db.repositories.get? row.repositoryId = none
  password : state.world.db.secrets.get? stored.repoPasswordSecretId = none
  override : ∀ secret, stored.credentialSecretId = some secret →
    state.world.db.secrets.get? secret = none
  entries : ∀ name : CronName, name.job = id → state.registry name = none

/-- What a removal may take away. -/
def JobsState.held (state : JobsState) :
    Table Uuid BackupJob × Table Uuid JobRun × Table Uuid Repository × Table Uuid Secret ×
      CronRegistry :=
  (state.world.db.backupJobs, state.world.db.jobRuns, state.world.db.repositories,
    state.world.db.secrets, state.registry)

/-- The server without its restore history. -/
def JobsState.withoutRestores (state : JobsState) : JobsState :=
  { state with world := { state.world with
      db := { state.world.db with restoreRuns := .empty } } }

/-- The whole of the job is removed, or nothing is, and the restores do not make a removal
fail that its user may make. -/
structure RemovesWhole (user : RequestUser) (faults : RemoveStatement → Option Failure)
    (state : JobsState) (id : Uuid) : Prop where
  gone : ∀ next, (removeRequest user faults id).run state = (.ok (), next) →
    ∃ row repository, joined (state.world.db.backupJobs.get? id) (fun row =>
      state.world.db.repositories.get? row.repositoryId) = some (row, repository) ∧
        Gone id row repository next
  kept : ∀ failure next, (removeRequest user faults id).run state = (.error failure, next) →
    next.held = state.held
  history : can state.world.db user .job id .manage = true →
    ((removeRequest user faults id).run state.withoutRestores).1 = .ok () →
      ((removeRequest user faults id).run state).1 = .ok ()

/-- Something other than the repository refers to the secret. -/
def Secrets.shared (db : Db) (repository secret : Uuid) : Bool :=
  Secrets.referenced
    { db with repositories := db.repositories.delete fun other _ => other = repository } secret

/-- The removal gets past its checks and its first deletion. -/
structure Begins (user : RequestUser) (faults : RemoveStatement → Option Failure) (db : Db)
    (id : Uuid) (row : BackupJob) (repository : Repository) : Prop where
  access : faults .access = none
  manages : can db user .job id .manage = true
  lookup : faults .job = none
  found : joined (db.backupJobs.get? id) (fun row => db.repositories.get? row.repositoryId) =
    some (row, repository)
  deletes : faults .deleteJob = none

/-- After the job, nothing is in the way of its repository and its secrets. -/
structure Separable (faults : RemoveStatement → Option Failure) (db : Db) (id : Uuid)
    (row : BackupJob) (repository : Repository) : Prop where
  owned : ∀ other second, db.backupJobs.get? other = some second →
    second.repositoryId = row.repositoryId → other = id
  deletes : faults .deleteRepository = none
  password : faults .password = none ∧
    Secrets.shared db row.repositoryId repository.repoPasswordSecretId = false
  override : ∀ secret, repository.credentialSecretId = some secret →
    faults .override = none ∧ Secrets.shared db row.repositoryId secret = false

section Call

variable {user : RequestUser} {faults : RemoveStatement → Option Failure} {world : World}
  {id : Uuid} {row : BackupJob} {repository : Repository}

theorem checkRemove_within {relation : World → World → Prop} [Std.Refl relation]
    [IsTrans World relation] : (checkRemove user faults id).Within relation := by
  unfold checkRemove
  refine Within.bind (failing_within _ _) fun _ => ?_
  refine Within.bind (assertAcl_within user _ _ _) fun _ => ?_
  refine Within.bind (failing_within _ _) fun _ => ?_
  exact Within.lift _

/-- The job and the repository are gone. -/
def withoutRows (id repository : Uuid) (world : World) : World :=
  ((deleteRepository repository).run ((deleteJob id).run world).2).2

theorem referenced_withoutRows (secret : Uuid) :
    Secrets.referenced (withoutRows id row.repositoryId world).db secret =
      Secrets.shared world.db row.repositoryId secret := by
  unfold Secrets.shared Secrets.referenced
  congr 1
  change (world.db.restoreRuns.update (fun _ run => run.jobId = some id) fun run =>
    { run with jobId := none }).anyWhere _ = _
  exact Table.anyWhere_update fun _ _ => rfl

theorem withoutRows_backupJobs (repositoryId : Uuid) :
    (withoutRows id repositoryId world).db.backupJobs.get? id = none := Table.get?_delete_self

/-- The repository is deleted, unless its statement fails or another job has it. -/
theorem deleteRepositoryUnder_cases (faults : RemoveStatement → Option Failure) (world : World)
    (id : Uuid) (row : BackupJob) :
    (faults .deleteRepository = none ∧
        (∀ other second, world.db.backupJobs.get? other = some second →
          second.repositoryId = row.repositoryId → other = id) ∧
        (deleteRepositoryUnder faults row.repositoryId).run ((deleteJob id).run world).2 =
          (.ok (), withoutRows id row.repositoryId world)) ∨
      (¬ (faults .deleteRepository = none ∧
        ∀ other second, world.db.backupJobs.get? other = some second →
          second.repositoryId = row.repositoryId → other = id)) ∧
        ∃ failure, (deleteRepositoryUnder faults row.repositoryId).run
          ((deleteJob id).run world).2 = (.error failure, ((deleteJob id).run world).2) := by
  have others : ((world.db.backupJobs.delete fun other _ => other = id).anyWhere fun _ job =>
      job.repositoryId = row.repositoryId) = true ↔
        ¬ ∀ other second, world.db.backupJobs.get? other = some second →
          second.repositoryId = row.repositoryId → other = id := by
    rw [Table.anyWhere_iff]
    constructor
    · rintro ⟨other, second, found, same⟩ owned
      rw [Table.get?_delete, Option.filter_eq_some_iff] at found
      have other_ne : other ≠ id := by simpa using found.2
      exact other_ne (owned other second found.1 (of_decide_eq_true same))
    · intro shared
      simp only [not_forall] at shared
      obtain ⟨other, second, found, same, different⟩ := shared
      exact ⟨other, second, by rw [Table.get?_delete_of_ne different, found],
        decide_eq_true same⟩
  have stands : ((deleteJob id).run world).2.db.backupJobs =
      world.db.backupJobs.delete fun other _ => other = id := rfl
  unfold deleteRepositoryUnder
  rcases failing_cases faults .deleteRepository ((deleteJob id).run world).2 with
    ⟨passes, ran⟩ | ⟨fails, failure, threw⟩
  swap
  · exact .inr ⟨fun both => fails both.1, failure, run_bind_of_error threw⟩
  rw [run_bind_of_ok ran]
  rcases run_bind_lift (restrictRepository row.repositoryId)
      (fun _ => deleteRepository row.repositoryId) ((deleteJob id).run world).2 with
    ⟨failure, shared, ran⟩ | ⟨_, free, ran⟩
  · rw [restrictRepository, stands] at shared
    split at shared
    case isTrue hit => exact .inr ⟨fun both => others.mp hit both.2, failure, ran⟩
    case isFalse => cases shared
  · rw [restrictRepository, stands] at free
    split at free
    case isTrue => cases free
    case isFalse unhit =>
      exact .inl ⟨passes, not_not.mp fun shared => unhit (others.mpr shared), ran⟩

/-- The secret is gone. -/
def withoutSecret (secret : Uuid) (world : World) : World :=
  { world with
    db := { world.db with
      secrets := world.db.secrets.delete fun other _ => other = secret
      restoreRuns := world.db.restoreRuns.update (fun _ run => run.credentialSecretId = some secret)
        fun run => { run with credentialSecretId := none } } }

theorem referenced_withoutSecret (secret other : Uuid) :
    Secrets.referenced (withoutSecret secret world).db other =
      Secrets.referenced world.db other := by
  unfold Secrets.referenced
  congr 1
  change (world.db.restoreRuns.update (fun _ run => run.credentialSecretId = some secret) fun run =>
    { run with credentialSecretId := none }).anyWhere _ = _
  exact Table.anyWhere_update fun _ _ => rfl

theorem removeSecret_cases (faults : RemoveStatement → Option Failure) (world : World)
    (statement : RemoveStatement) (secret : Uuid) :
    (faults statement = none ∧ Secrets.referenced world.db secret = false) ∧
        (removeSecret faults statement secret).run world = (.ok (), withoutSecret secret world) ∨
      ¬ (faults statement = none ∧ Secrets.referenced world.db secret = false) ∧
        ∃ failure, (removeSecret faults statement secret).run world = (.error failure, world) := by
  unfold removeSecret
  rcases failing_cases faults statement world with ⟨passes, ran⟩ | ⟨fails, failure, threw⟩
  · rw [run_bind_of_ok ran]
    rcases Secrets.remove_cases world secret with ⟨kept, failure, threw⟩ | ⟨free, ran⟩
    · exact .inr ⟨fun both => absurd (both.2.symm.trans kept) Bool.false_ne_true, failure, threw⟩
    · exact .inl ⟨⟨passes, free⟩, ran⟩
  · exact .inr ⟨fun both => fails both.1, failure, run_bind_of_error threw⟩

/-- Everything of the job is gone. -/
def withoutJob (id : Uuid) (row : BackupJob) (repository : Repository) (world : World) : World :=
  let bare := withoutSecret repository.repoPasswordSecretId (withoutRows id row.repositoryId world)
  match repository.credentialSecretId with
  | none => bare
  | some secret => withoutSecret secret bare

/-- A removal past its first deletion deletes everything, if nothing is in the way, or throws
without the job. -/
theorem removeRows_cases (passes : faults .deleteJob = none) :
    (Separable faults world.db id row repository ∧
        (removeRows faults id row repository).run world =
          (.ok (), withoutJob id row repository world)) ∨
      ¬ Separable faults world.db id row repository ∧
        ∃ failure next, (removeRows faults id row repository).run world = (.error failure, next) ∧
          next.db.backupJobs.get? id = none := by
  have passed : (failing faults .deleteJob).run world = (.ok (), world) := by
    rw [failing, run_lift, passes]
  have deleted : (deleteJob id).run world = (.ok (), ((deleteJob id).run world).2) := rfl
  rw [removeRows, run_bind_of_ok passed, run_bind_of_ok deleted]
  rcases deleteRepositoryUnder_cases faults world id row with
    ⟨deletes, owned, ran⟩ | ⟨blocked, failure, threw⟩
  swap
  · exact .inr ⟨fun separable => blocked ⟨separable.deletes, separable.owned⟩, failure, _,
      run_bind_of_error threw, Table.get?_delete_self⟩
  rw [run_bind_of_ok ran]
  have password := removeSecret_cases faults (withoutRows id row.repositoryId world) .password
    repository.repoPasswordSecretId
  rw [referenced_withoutRows] at password
  rcases password with ⟨password, ran⟩ | ⟨blocked, failure, threw⟩
  swap
  · exact .inr ⟨fun separable => blocked separable.password, failure, _,
      run_bind_of_error threw, withoutRows_backupJobs row.repositoryId⟩
  rw [run_bind_of_ok ran, withoutJob]
  cases stored : repository.credentialSecretId with
  | none =>
      refine .inl ⟨⟨owned, deletes, password, ?_⟩, rfl⟩
      intro secret named
      cases stored.symm.trans named
  | some secret =>
      have override := removeSecret_cases faults (withoutSecret repository.repoPasswordSecretId
        (withoutRows id row.repositoryId world)) .override secret
      rw [referenced_withoutSecret, referenced_withoutRows] at override
      rcases override with ⟨override, ran⟩ | ⟨blocked, failure, threw⟩
      · refine .inl ⟨⟨owned, deletes, password, ?_⟩, ran⟩
        intro other named
        obtain rfl := Option.some.inj (stored.symm.trans named)
        exact override
      · exact .inr ⟨fun separable => blocked (separable.override secret stored), failure, _,
          threw, withoutRows_backupJobs row.repositoryId⟩

theorem get?_withoutSecret_of_none {secret : Uuid} (absent : world.db.secrets.get? secret = none)
    (other : Uuid) : (withoutSecret other world).db.secrets.get? secret = none := by
  change (world.db.secrets.delete _).get? secret = none
  rw [Table.get?_delete, absent]
  rfl

theorem runs_withoutRows (repositoryId : Uuid) {run : Uuid} {execution : JobRun}
    (found : (withoutRows id repositoryId world).db.jobRuns.get? run = some execution) :
    execution.jobId ≠ id := by
  change (world.db.jobRuns.delete _).get? run = _ at found
  rw [Table.get?_delete, Option.filter_eq_some_iff] at found
  simpa using found.2

/-- What is gone after a removal that went through. -/
theorem withoutJob_gone (registry : CronRegistry) :
    Gone id row repository ⟨withoutJob id row repository world, unregister registry id⟩ := by
  have password : (withoutSecret repository.repoPasswordSecretId
      (withoutRows id row.repositoryId world)).db.secrets.get? repository.repoPasswordSecretId =
        none := Table.get?_delete_self
  have entries : ∀ name : CronName, name.job = id → unregister registry id name = none := by
    intro name own
    rw [unregister_apply, if_pos own]
  unfold withoutJob
  cases stored : repository.credentialSecretId with
  | none =>
      refine ⟨Table.get?_delete_self, fun _ _ found => runs_withoutRows row.repositoryId found,
        Table.get?_delete_self, password, ?_, entries⟩
      intro secret named
      cases stored.symm.trans named
  | some secret =>
      refine ⟨Table.get?_delete_self, fun _ _ found => runs_withoutRows row.repositoryId found,
        Table.get?_delete_self, get?_withoutSecret_of_none password secret, ?_, entries⟩
      intro other named
      obtain rfl := Option.some.inj (stored.symm.trans named)
      exact Table.get?_delete_self

theorem assertAcl_outcome (world : World) (user : RequestUser) (type : ResourceType) (id : Uuid)
    (level : AccessLevel) :
    can world.db user type id level = true ∧
        (assertAcl user type id level).run world = (.ok (), world) ∨
      can world.db user type id level ≠ true ∧
        ∃ failure, (assertAcl user type id level).run world = (.error failure, world) := by
  rw [assertAcl, run_lift, assertAccess]
  split
  case isTrue granted => exact .inl ⟨granted, rfl⟩
  case isFalse denied => exact .inr ⟨denied, _, rfl⟩

theorem getRow_outcome (world : World) (id : Uuid) :
    (∃ row repository, joined (world.db.backupJobs.get? id) (fun row =>
        world.db.repositories.get? row.repositoryId) = some (row, repository) ∧
          (getRow id).run world = (.ok (row, repository), world)) ∨
      joined (world.db.backupJobs.get? id) (fun row =>
          world.db.repositories.get? row.repositoryId) = none ∧
        ∃ failure, (getRow id).run world = (.error failure, world) := by
  rw [getRow, run_lift]
  cases joined (world.db.backupJobs.get? id) (fun row =>
      world.db.repositories.get? row.repositoryId) with
  | none => exact .inr ⟨rfl, _, rfl⟩
  | some found => exact .inl ⟨found.1, found.2, rfl, rfl⟩

/-- A removal that does not begin writes nothing. -/
theorem removeJobUnder_cases (user : RequestUser) (faults : RemoveStatement → Option Failure)
    (world : World) (id : Uuid) :
    (∃ row repository, Begins user faults world.db id row repository ∧
        (removeJobUnder user faults id).run world =
          (removeRows faults id row repository).run world) ∨
      (∀ row repository, ¬ Begins user faults world.db id row repository) ∧
        ∃ failure, (removeJobUnder user faults id).run world = (.error failure, world) := by
  unfold removeJobUnder checkRemove
  simp only [bind_bind]
  rcases failing_cases faults .access world with ⟨access, ran⟩ | ⟨blocked, failure, threw⟩
  swap
  · exact .inr ⟨fun _ _ begins => blocked begins.access, failure, run_bind_of_error threw⟩
  rw [run_bind_of_ok ran]
  rcases assertAcl_outcome world user .job id .manage with
    ⟨manages, ran⟩ | ⟨blocked, failure, threw⟩
  swap
  · exact .inr ⟨fun _ _ begins => blocked begins.manages, failure, run_bind_of_error threw⟩
  rw [run_bind_of_ok ran]
  rcases failing_cases faults .job world with ⟨lookup, ran⟩ | ⟨blocked, failure, threw⟩
  swap
  · exact .inr ⟨fun _ _ begins => blocked begins.lookup, failure, run_bind_of_error threw⟩
  rw [run_bind_of_ok ran]
  rcases getRow_outcome world id with ⟨row, repository, found, ran⟩ | ⟨absent, failure, threw⟩
  swap
  · exact .inr ⟨fun _ _ begins => Option.some_ne_none _ (begins.found.symm.trans absent),
      failure, run_bind_of_error threw⟩
  rw [run_bind_of_ok ran]
  rcases failing_cases faults .deleteJob world with ⟨deletes, _⟩ | ⟨blocked, failure, threw⟩
  · exact .inl ⟨row, repository, ⟨access, manages, lookup, found, deletes⟩, rfl⟩
  · exact .inr ⟨fun _ _ begins => blocked begins.deletes, failure, run_bind_of_error threw⟩

/-- If no statement fails and the job has a repository of its own, the removal is the one of
the jobs service. -/
theorem removeJobUnder_none (user : RequestUser) (world : World) (id : Uuid)
    (owned : ∀ row repository, joined (world.db.backupJobs.get? id) (fun row =>
        world.db.repositories.get? row.repositoryId) = some (row, repository) →
      ∀ other second, world.db.backupJobs.get? other = some second →
        second.repositoryId = row.repositoryId → other = id) :
    (removeJobUnder user (fun _ => none) id).run world = (removeJob user id).run world := by
  have passes : ∀ {α : Type} (statement : RemoveStatement) (next : Unit → Service α),
      failing (fun _ => none) statement >>= next = next () := fun _ _ => rfl
  unfold removeJobUnder checkRemove removeJob removeRows
  simp only [bind_bind, passes]
  rcases assertAcl_outcome world user .job id .manage with ⟨-, ran⟩ | ⟨-, failure, threw⟩
  swap
  · rw [run_bind_of_error threw, run_bind_of_error threw]
  rw [run_bind_of_ok ran, run_bind_of_ok ran]
  rcases getRow_outcome world id with ⟨row, repository, found, ran⟩ | ⟨-, failure, threw⟩
  swap
  · rw [run_bind_of_error threw, run_bind_of_error threw]
  rw [run_bind_of_ok ran, run_bind_of_ok ran]
  have deleted : (deleteJob id).run world = (.ok (), ((deleteJob id).run world).2) := rfl
  dsimp only
  rw [run_bind_of_ok deleted, run_bind_of_ok deleted]
  rcases deleteRepositoryUnder_cases (fun _ => none) world id row with
    ⟨-, -, ran⟩ | ⟨blocked, -⟩
  · rw [run_bind_of_ok ran]
    cases repository.credentialSecretId <;> rfl
  · exact absurd ⟨rfl, owned row repository found⟩ blocked

end Call

/-- A request throws or tells the registry, as the removal throws or returns. -/
theorem removeRequest_cases (user : RequestUser) (faults : RemoveStatement → Option Failure)
    (state : JobsState) (id : Uuid)
    (separable : ∀ row repository, Begins user faults state.world.db id row repository →
      Separable faults state.world.db id row repository) :
    (∃ row repository, Begins user faults state.world.db id row repository ∧
        (removeRequest user faults id).run state = (.ok (),
          ⟨withoutJob id row repository state.world, unregister state.registry id⟩)) ∨
      (∀ row repository, ¬ Begins user faults state.world.db id row repository) ∧
        ∃ failure, (removeRequest user faults id).run state = (.error failure, state) := by
  unfold removeRequest
  dsimp only
  rcases removeJobUnder_cases user faults state.world id with
    ⟨row, repository, begins, same⟩ | ⟨blocked, failure, threw⟩
  · rcases removeRows_cases begins.deletes with ⟨-, ran⟩ | ⟨inseparable, -⟩
    · exact .inl ⟨row, repository, begins, by rw [same, ran]⟩
    · exact absurd (separable row repository begins) inseparable
  · exact .inr ⟨blocked, failure, by rw [threw]⟩

/-- A job that a restore has been created from. -/
def restoredJob : JobsState where
  world := {
    now := 0
    db := {
      secrets := .ofList [(0, ⟨.repoPassword, "old", aadFor 0⟩)]
      repositories := .ofList [(0, {
        name := "nightly", targetId := none, repoConfig := [], repoPasswordSecretId := 0 })]
      backupJobs := .ofList [(0, { name := "nightly", location := .«local», repositoryId := 0 })]
      restoreRuns := .ofList [(0, {
        targetId := none, jobId := some 0, repoConfig := [], repoPasswordSecretId := 0
        credentialSecretId := none, snapshotId := "latest", mode := .original
        status := .success, initiatedBy := 1, createdAt := 0 })] } }
  registry _ := none

end AmberBackup
