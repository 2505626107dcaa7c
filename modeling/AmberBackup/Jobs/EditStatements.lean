import AmberBackup.Jobs.EditCases
import AmberBackup.Lib.Rollback

/-! # The statements of an edit

The edit of a job, with every statement the database may fail. The edit of the credential
override reads first and then makes at most one write, so that it comes to a plan and its
performance (`editOverride_eq`); if no statement fails the edit is the one of the jobs
service (`updateJobUnder_none`).
-/

namespace AmberBackup

open Relational Procedure

/-- The statements of `JobsService.update`, in the order of the code. -/
inductive EditStatement where
  | access
  | job
  | uniqueSlug
  | backend
  | password
  | overrideBackend
  | reveal
  | override
  /-- The transaction that writes the repository and the job. -/
  | rows
  | orphaned
  | response
  deriving DecidableEq, Repr

/-- What an edit makes of the credential override. -/
inductive OverridePlan where
  | keep
  /-- The column is cleared. -/
  | drop
  /-- The fields, merged into the stored ones, are written in place. -/
  | merge (secret : Uuid) (fields : Fields)
  /-- The fields are stored as a new override. -/
  | replace (fields : Fields)
  deriving DecidableEq, Repr

def OverridePlan.writes : OverridePlan → Bool
  | .keep | .drop => false
  | .merge .. | .replace _ => true

section Statements

variable (editing : Editing) (user : RequestUser) (faults : EditStatement → Option Failure)

/-- A repository without a connection needs no statement. -/
def resolveBackendTypeUnder (statement : EditStatement) : Option Uuid → Service String
  | none => pure "local"
  | some targetId => do
      failing faults statement
      resolveBackendType user (some targetId)

/-- The checks an override passes, and what becomes of it. -/
def planOverride (dto : UpdateJobDto) (repository : Repository) : Service OverridePlan :=
  let dropped :=
    if dto.movesConnection repository && repository.credentialSecretId.isSome then
      OverridePlan.drop
    else .keep
  match dto.repoCredentials with
  | none => return dropped
  | some none => return .drop
  | some (some values) => do
      let backendType ← resolveBackendTypeUnder user faults .overrideBackend
        (dto.targetId.getD repository.targetId)
      let overrides ← .lift fun _ => buildCredentialOverride backendType values
      match repository.credentialSecretId, dto.movesConnection repository with
      | some secret, false => do
          failing faults .reveal
          let current ← .lift fun world =>
            revealCredentials editing.platform world.db (some secret)
          return .merge secret (current ++ overrides)
      | _, _ => return if overrides ≠ [] then .replace overrides else dropped

def OverridePlan.perform (repository : Repository) : OverridePlan → Service OverrideEdit
  | .keep => return {}
  | .drop => return { column := some none, orphaned := repository.credentialSecretId }
  | .merge secret fields => do
      failing faults .override
      Secrets.update editing secret (editing.renderCredentials fields)
      return {}
  | .replace fields => do
      failing faults .override
      let secret ← Secrets.create editing .backendCredential (editing.renderCredentials fields)
      return { column := some (some secret), orphaned := repository.credentialSecretId }

/-- The slugs of the job and of its repository follow the name. -/
def uniqueSlugs (name : Option String) : Service Unit :=
  match name with
  | none => pure ()
  | some _ => failing faults .uniqueSlug

def movedPlaceUnder (dto : UpdateJobDto) (repository : Repository) :
    Service (Option (Option Uuid × Config)) :=
  if dto.targetId.isSome || dto.repoConfig.isSome then do
    let targetId := dto.targetId.getD repository.targetId
    let backendType ← resolveBackendTypeUnder user faults .backend targetId
    let config ← .lift fun _ =>
      buildRepoConfig backendType (dto.repoConfig.getD repository.repoConfig)
    return some (targetId, config)
  else return none

/-- Up to the first write. -/
def checkEdit (id : Uuid) (dto : UpdateJobDto) :
    Service (BackupJob × Repository × Option (Option Uuid × Config)) := do
  failing faults .access
  assertAcl user .job id .manage
  require (!dto.job.touchesHost || user.isAdmin)
    (.forbidden "Editing a job's execution host, paths or scripts requires administrator access")
  validateEditedCron editing dto.job.cronExpr
  failing faults .job
  let (job, repository) ← getRow id
  assertRepoAllowed (dto.job.location.getD job.location)
    (dto.targetId.getD repository.targetId)
  uniqueSlugs faults dto.job.name
  let place ← movedPlaceUnder user faults dto repository
  return (job, repository, place)

def updatePasswordUnder (secret : Uuid) : Option String → Service Unit
  | none => pure ()
  | some password => do
      failing faults .password
      Secrets.update editing secret password

def removeOrphaned : Option Uuid → Service Unit
  | none => pure ()
  | some id => do
      failing faults .orphaned
      Secrets.remove id

/-- From the first write on. -/
def writeEdit (id : Uuid) (dto : UpdateJobDto) (job : BackupJob) (repository : Repository)
    (place : Option (Option Uuid × Config)) : Service Unit := do
  updatePasswordUnder editing faults repository.repoPasswordSecretId dto.repoPassword
  let plan ← planOverride editing user faults dto repository
  let edit ← plan.perform editing faults repository
  referencesAgent dto.job
  failing faults .rows
  writeJob id job.repositoryId
    { name := dto.job.name, place, credentialSecretId := edit.column } dto.job
  removeOrphaned faults edit.orphaned
  failing faults .response
  let _ ← getRow id

/-- `JobsService.update`, where the statements with a fault fail. -/
def updateJobUnder (id : Uuid) (dto : UpdateJobDto) : Service Unit := do
  let (job, repository, place) ← checkEdit editing user faults id dto
  writeEdit editing user faults id dto job repository place

end Statements

/-! ## Without faults -/

section Faultless

variable {editing : Editing} {user : RequestUser}

theorem resolveBackendTypeUnder_none (statement : EditStatement) (target : Option Uuid) :
    resolveBackendTypeUnder user (fun _ => none) statement target =
      resolveBackendType user target := by
  cases target <;> rfl

/-- The edit of the override is its plan, and the performance of that. -/
theorem editOverride_eq (dto : UpdateJobDto) (repository : Repository) :
    editOverride editing user dto repository =
      planOverride editing user (fun _ => none) dto repository >>=
        OverridePlan.perform editing (fun _ => none) repository := by
  unfold editOverride planOverride
  cases dto.repoCredentials with
  | none =>
      dsimp only
      change (if dto.movesConnection repository && _ then _ else _) = _
      split <;> rfl
  | some values =>
      cases values with
      | none => rfl
      | some values =>
          dsimp only
          rw [resolveBackendTypeUnder_none, bind_bind]
          congr 1
          funext backendType
          rw [bind_bind]
          congr 1
          funext overrides
          change (match repository.credentialSecretId, dto.movesConnection repository with
            | some secret, false => _
            | stored, _ => _) = _
          cases stored : repository.credentialSecretId with
          | none =>
              by_cases entered : overrides = []
              · cases moves : dto.movesConnection repository <;> simp [entered] <;> rfl
              · simp only [if_pos entered]
                change _ = OverridePlan.perform editing (fun _ => none) repository
                  (.replace overrides)
                rw [OverridePlan.perform, stored, ite_self]
                rfl
          | some secret =>
              cases moves : dto.movesConnection repository with
              | false =>
                  change (lift fun world : World =>
                      revealCredentials editing.platform world.db (some secret)) >>= _ =
                    ((lift fun world : World =>
                      revealCredentials editing.platform world.db (some secret)) >>= fun current =>
                        pure (OverridePlan.merge secret (current ++ overrides))) >>= _
                  rw [bind_bind]
                  rfl
              | true =>
                  have moved : dto.targetId.any (· ≠ repository.targetId) = true := moves
                  by_cases entered : overrides = []
                  · simp only [entered, moved]
                    change _ = OverridePlan.perform editing (fun _ => none) repository .drop
                    rw [OverridePlan.perform, stored]
                    rfl
                  · simp only [if_pos entered, moved]
                    change _ = OverridePlan.perform editing (fun _ => none) repository
                      (.replace overrides)
                    rw [OverridePlan.perform, stored]
                    rfl

theorem movedPlaceUnder_none (dto : UpdateJobDto) (repository : Repository) :
    movedPlaceUnder user (fun _ => none) dto repository = movedPlace user dto repository := by
  unfold movedPlaceUnder movedPlace
  simp only [resolveBackendTypeUnder_none]

theorem updatePasswordUnder_none (secret : Uuid) (password : Option String) :
    updatePasswordUnder editing (fun _ => none) secret password =
      updatePassword editing secret password := by
  cases password <;> rfl

theorem removeOrphaned_none (secret : Option Uuid) :
    removeOrphaned (fun _ => none) secret = Secrets.removeOptional secret := by
  cases secret <;> rfl

theorem uniqueSlugs_none (name : Option String) : uniqueSlugs (fun _ => none) name = pure () := by
  cases name <;> rfl

/-- Without faults, the edit is followed by the look at the row for the response. -/
theorem updateJobUnder_eq (id : Uuid) (dto : UpdateJobDto) :
    updateJobUnder editing user (fun _ => none) id dto =
      updateJob editing user id dto >>= fun _ => getRow id >>= fun _ => pure () := by
  have passes : ∀ (statement : EditStatement) {α : Type} (next : Unit → Service α),
      failing (fun _ => none) statement >>= next = next () := fun _ _ _ => rfl
  unfold updateJobUnder checkEdit writeEdit updateJob
  simp only [passes, bind_bind, movedPlaceUnder_none, updatePasswordUnder_none,
    removeOrphaned_none, uniqueSlugs_none, editOverride_eq]
  rfl

theorem getRow_returns {world : World} {id : Uuid} {row : BackupJob} {repository : Repository}
    (stored : world.db.backupJobs.get? id = some row)
    (kept : world.db.repositories.get? row.repositoryId = some repository) :
    (getRow id).run world = (.ok (row, repository), world) := by
  simp [getRow, joined, stored, kept]

/-- The job and its repository are there after they are written. -/
theorem getRow_written {world middle next : World} {id : Uuid} {row : BackupJob}
    {repository : Repository}
    (found : joined (world.db.backupJobs.get? id) (fun row =>
      world.db.repositories.get? row.repositoryId) = some (row, repository))
    (patch : RepoPatch) (job : JobPatch) (before : OnlySecrets world middle)
    (after : OnlySecrets ((writeJob id row.repositoryId patch job).run middle).2 next) :
    (getRow id).run next =
      (.ok (job.apply world.now row, patch.apply world.now repository), next) := by
  obtain ⟨secrets, restores, rfl, -⟩ := before
  obtain ⟨others, changed, rfl, -⟩ := after
  obtain ⟨stored, kept⟩ := of_joined found
  apply getRow_returns
  · change (world.db.backupJobs.update _ _).get? id = _
    rw [Table.get?_update_self, stored]
    rfl
  · change (world.db.repositories.update _ _).get? row.repositoryId = _
    rw [Table.get?_update_self, kept]
    rfl

/-- If no statement fails, the edit is the one of the jobs service. -/
theorem updateJobUnder_none (world : World) (id : Uuid) (dto : UpdateJobDto) :
    (updateJobUnder editing user (fun _ => none) id dto).run world =
      (updateJob editing user id dto).run world := by
  rw [updateJobUnder_eq, run_bind]
  rcases ran : (updateJob editing user id dto).run world with ⟨result, next⟩
  cases result with
  | error failure => rfl
  | ok value =>
      obtain ⟨row, repository, place, edit, middle, edited⟩ := updateJob_returns ran
      exact run_bind_of_ok (getRow_written edited.found _ _ edited.before edited.after)

end Faultless

end AmberBackup
