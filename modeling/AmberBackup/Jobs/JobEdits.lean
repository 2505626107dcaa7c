import AmberBackup.Jobs.JobsService
import AmberBackup.Targets.TargetsService

/-! # Creating, editing and deleting jobs

The calls of the jobs service that write a job, its repository and its secrets, with their
checks in the order of the code. A call that throws keeps what it had written to the
secrets by then; the job and its repository are written together, at the end.
-/

namespace AmberBackup

open Relational

/-- What the edits take from the runtime beyond the platform. -/
structure Editing where
  platform : Platform
  /-- AES-GCM encryption of a text under associated data, to a ciphertext and a nonce. -/
  encrypt : String → String → String × String
  /-- `JSON.stringify` of a credential map. -/
  renderCredentials : Fields → String
  /-- Whether an expression parses as a cron expression. -/
  validCron : String → Bool

/-! ## Secrets -/

namespace Secrets

variable (editing : Editing)

def encrypted (type : SecretType) (id : Uuid) (plaintext : String) : Secret where
  type
  ciphertext := (editing.encrypt plaintext (aadFor id)).1
  nonce := (editing.encrypt plaintext (aadFor id)).2

def create (type : SecretType) (plaintext : String) : Service Uuid := ⟨fun world =>
  let id := freshId world.db.secrets
  (.ok id,
    { world with
      db := { world.db with
        secrets := world.db.secrets.insert id (encrypted editing type id plaintext) } })⟩

def update (id : Uuid) (plaintext : String) : Service Unit :=
  .write fun world =>
    { world with
      db := { world.db with
        secrets := world.db.secrets.update (fun other _ => other = id) fun row =>
          encrypted editing row.type id plaintext } }

/-- A repository, a connection, a channel or the password of a restore refers to the
secret. -/
def referenced (db : Db) (id : Uuid) : Bool :=
  (db.repositories.anyWhere fun _ row =>
    row.repoPasswordSecretId = id || row.credentialSecretId = some id) ||
  (db.targets.anyWhere fun _ row => row.credentialSecretId = some id) ||
  (db.notificationChannels.anyWhere fun _ row => row.secretId = some id) ||
  db.restoreRuns.anyWhere fun _ run => run.repoPasswordSecretId = id

/-- A secret that is referred to cannot be deleted; a restore loses its override. -/
def remove (id : Uuid) : Service Unit := ⟨fun world =>
  if referenced world.db id then
    (.error (.error "update or delete on table \"secrets\" violates foreign key constraint"), world)
  else
    (.ok (),
      { world with
        db := { world.db with
          secrets := world.db.secrets.delete fun other _ => other = id
          restoreRuns := world.db.restoreRuns.update (fun _ run => run.credentialSecretId = some id)
            fun run => { run with credentialSecretId := none } } })⟩

def removeOptional : Option Uuid → Service Unit
  | none => pure ()
  | some id => remove id

end Secrets

/-! ## Checks -/

/-- `this.acl.assert`. -/
def assertAcl (user : RequestUser) (type : ResourceType) (id : Uuid) (level : AccessLevel) :
    Service Unit :=
  .lift fun world => assertAccess world.db user type id level

/-- A job with its repository. -/
def getRow (id : Uuid) : Service (BackupJob × Repository) :=
  .lift fun world =>
    match joined (world.db.backupJobs.get? id) fun job =>
        world.db.repositories.get? job.repositoryId with
    | none => .error (.notFound "Job not found")
    | some row => .ok row

def require (holds : Bool) (failure : Failure) : Service Unit :=
  if holds then pure () else .raise failure

def validateCron (editing : Editing) (expr : String) : Service Unit :=
  require (editing.validCron expr) (.badRequest ("Invalid cron expression: " ++ expr))

/-- An edit validates the cron expression it names, unless that is empty. -/
def validateEditedCron (editing : Editing) : Option String → Service Unit
  | none => pure ()
  | some expr => if expr = "" then pure () else validateCron editing expr

def assertRepoAllowed (location : SourceLocation) (targetId : Option Uuid) : Service Unit :=
  require (repoAllowed location targetId)
    (.badRequest "A local filesystem repository is only supported when the job runs on the server")

/-- The backend of a job's repository; using a connection takes operate access on it. -/
def resolveBackendType (user : RequestUser) : Option Uuid → Service String
  | none => pure "local"
  | some targetId => do
      assertAcl user .target targetId .operate
      .lift fun world =>
        match world.db.targets.get? targetId with
        | none => .error (.badRequest "Unknown target")
        | some target => .ok target.backendType

/-- Refuses the first of the required fields that is missing. -/
def requireFields (config : Config) : List String → Except Failure Unit
  | [] => .ok ()
  | name :: rest =>
      if (lookupLast name config).all (· = .text "") then
        .error (.badRequest ("Missing required repository field: " ++ name))
      else requireFields config rest

/-- Filters the repository form to its own fields and validates the required ones. -/
def buildRepoConfig (backendType : String) (values : Config) : Except Failure Config := do
  let (config, _) ← splitConfig backendType values .job
  let required ← requiredJobFields backendType
  requireFields config required
  return config

/-- The entries of a credential override; empty values are dropped. -/
def overrideEntries (backendType : String) (allowed : List String) :
    Config → Except Failure Fields
  | [] => .ok []
  | (name, value) :: rest =>
      if !allowed.contains name then
        .error (.badRequest ("Field '" ++ name ++ "' cannot be overridden per job on a " ++
          backendType ++ " connection"))
      else do
        let others ← overrideEntries backendType allowed rest
        return (if value = .null || value = .text "" then [] else [(name, value.toText)]) ++ others

def buildCredentialOverride (backendType : String) (values : Config) : Except Failure Fields := do
  let allowed ← overridableFields backendType
  overrideEntries backendType allowed values

/-! ## Requests -/

structure CreateJobDto where
  name : String
  location : SourceLocation
  agentId : Option Uuid := none
  paths : List String
  targetId : Option Uuid := none
  repoConfig : Option Config := none
  repoCredentials : Option Config := none
  repoPassword : String
  cronExpr : String
  resticOptions : Option ResticOptions := none
  notify : Option JobNotifyConfig := none
  retryMax : Option Nat := none
  retryDelaySeconds : Option Nat := none
  enabled : Option Bool := none
  deriving DecidableEq, Repr

structure UpdateJobDto where
  /-- The columns of the job itself. -/
  job : JobPatch := {}
  /-- `some none` is an explicit null, a repository on the local filesystem. -/
  targetId : Option (Option Uuid) := none
  repoConfig : Option Config := none
  /-- `some none` is an explicit null, which removes the override. -/
  repoCredentials : Option (Option Config) := none
  repoPassword : Option String := none
  deriving DecidableEq, Repr

structure IntegrityCheckConfigDto where
  enabled : Bool
  cronExpr : Option String := none
  level : IntegrityLevel
  subsetParts : Option Nat := none
  deriving DecidableEq, Repr

/-- What `@Min(2)` and `@Max(100)` let through. -/
def IntegrityCheckConfigDto.valid (dto : IntegrityCheckConfigDto) : Bool :=
  dto.subsetParts.all fun parts => 2 ≤ parts && parts ≤ 100

section Calls

variable (editing : Editing) (user : RequestUser)

/-- The agent a job is handed to has to exist. -/
def assertAgent (location : SourceLocation) (agentId : Option Uuid) : Service Unit :=
  if location = .agent then
    match agentId with
    | none => .raise (.badRequest "agentId is required for agent jobs")
    | some agent =>
        .lift fun world =>
          if (world.db.agents.get? agent).isSome then .ok ()
          else .error (.badRequest "Unknown agent")
  else pure ()

def createOverride (overrides : Fields) : Service (Option Uuid) :=
  if overrides = [] then return none
  else return some (← Secrets.create editing .backendCredential (editing.renderCredentials overrides))

/-- Inserts the repository and the job that uses it. -/
def insertJob (dto : CreateJobDto) (repoConfig : Config) (passwordSecret : Uuid)
    (credentialSecret : Option Uuid) : Service Uuid := ⟨fun world =>
  let repository := freshId world.db.repositories
  let job := freshId world.db.backupJobs
  (.ok job,
    { world with
      db := { world.db with
        repositories := world.db.repositories.insert repository {
          name := dto.name
          targetId := dto.targetId
          repoConfig
          repoPasswordSecretId := passwordSecret
          credentialSecretId := credentialSecret
          updatedAt := world.now }
        backupJobs := world.db.backupJobs.insert job {
          name := dto.name
          location := dto.location
          agentId := if dto.location = .agent then dto.agentId else none
          paths := dto.paths
          repositoryId := repository
          cronExpr := dto.cronExpr
          resticOptions := dto.resticOptions.getD {}
          notify := dto.notify.getD {}
          retryMax := dto.retryMax.getD 0
          retryDelaySeconds := dto.retryDelaySeconds.getD 300
          enabled := dto.enabled.getD true
          updatedAt := world.now } } })⟩

/-- `JobsService.create`: defining what is backed up from a host is an admin action. -/
def createJob (dto : CreateJobDto) : Service Uuid := do
  require user.isAdmin (.forbidden "Creating a backup job requires administrator access")
  validateCron editing dto.cronExpr
  assertRepoAllowed dto.location dto.targetId
  let backendType ← resolveBackendType user dto.targetId
  let repoConfig ← .lift fun _ => buildRepoConfig backendType (dto.repoConfig.getD [])
  let overrides ← .lift fun _ =>
    buildCredentialOverride backendType (dto.repoCredentials.getD [])
  assertAgent dto.location dto.agentId
  let passwordSecret ← Secrets.create editing .repoPassword dto.repoPassword
  let credentialSecret ← createOverride editing overrides
  insertJob dto repoConfig passwordSecret credentialSecret

/-- The columns of a repository an edit writes. -/
structure RepoPatch where
  name : Option String := none
  /-- The connection and the config, written together. -/
  place : Option (Option Uuid × Config) := none
  credentialSecretId : Option (Option Uuid) := none
  deriving DecidableEq, Repr

def RepoPatch.apply (patch : RepoPatch) (now : Nat) (repository : Repository) : Repository :=
  if patch = {} then repository
  else
    { repository with
      name := patch.name.getD repository.name
      targetId := (patch.place.map Prod.fst).getD repository.targetId
      repoConfig := (patch.place.map Prod.snd).getD repository.repoConfig
      credentialSecretId := patch.credentialSecretId.getD repository.credentialSecretId
      updatedAt := now }

/-- The connection and config an edit moves the repository to, validated against the
backend, if it names either. -/
def movedPlace (dto : UpdateJobDto) (repository : Repository) :
    Service (Option (Option Uuid × Config)) :=
  if dto.targetId.isSome || dto.repoConfig.isSome then do
    let targetId := dto.targetId.getD repository.targetId
    let backendType ← resolveBackendType user targetId
    let config ← .lift fun _ =>
      buildRepoConfig backendType (dto.repoConfig.getD repository.repoConfig)
    return some (targetId, config)
  else return none

/-- What an edit makes of the credential override: the column, where it is written, and
the secret nothing points at afterwards. -/
structure OverrideEdit where
  column : Option (Option Uuid) := none
  orphaned : Option Uuid := none
  deriving DecidableEq, Repr

/-- An override belongs to the connection it was entered for: moving the repository to
another connection drops it, unless the edit brings a new one. -/
def editOverride (dto : UpdateJobDto) (repository : Repository) : Service OverrideEdit :=
  let movesConnection := dto.targetId.any (· ≠ repository.targetId)
  match dto.repoCredentials with
  | none =>
      if movesConnection && repository.credentialSecretId.isSome then
        return { column := some none, orphaned := repository.credentialSecretId }
      else return {}
  | some none => return { column := some none, orphaned := repository.credentialSecretId }
  | some (some values) => do
      let backendType ← resolveBackendType user (dto.targetId.getD repository.targetId)
      let overrides ← .lift fun _ => buildCredentialOverride backendType values
      match repository.credentialSecretId, movesConnection with
      | some secret, false =>
          let current ← .lift fun world =>
            revealCredentials editing.platform world.db (some secret)
          Secrets.update editing secret (editing.renderCredentials (current ++ overrides))
          return {}
      | stored, _ =>
          if overrides ≠ [] then
            let secret ← Secrets.create editing .backendCredential
              (editing.renderCredentials overrides)
            return { column := some (some secret)
                     orphaned := if movesConnection then stored else none }
          else if movesConnection && stored.isSome then
            return { column := some none, orphaned := stored }
          else return {}

/-- Writes the repository and the job. -/
def writeJob (id : Uuid) (repositoryId : Uuid) (patch : RepoPatch) (job : JobPatch) :
    Service Unit :=
  .write fun world =>
    { world with
      db := { world.db with
        repositories := world.db.repositories.update (fun other _ => other = repositoryId)
          (patch.apply world.now)
        backupJobs := world.db.backupJobs.update (fun other _ => other = id)
          (job.apply world.now) } }

/-- The foreign key of `agent_id`, which the statement that writes the job checks. -/
def referencesAgent (job : JobPatch) : Service Unit :=
  .lift fun world =>
    match job.agentColumn with
    | some (some agent) =>
        if (world.db.agents.get? agent).isSome then .ok ()
        else .error (.error
          "insert or update on table \"backup_jobs\" violates foreign key constraint")
    | some none | none => .ok ()

def updatePassword (secret : Uuid) : Option String → Service Unit
  | none => pure ()
  | some password => Secrets.update editing secret password

/-- `JobsService.update`. -/
def updateJob (id : Uuid) (dto : UpdateJobDto) : Service Unit := do
  assertAcl user .job id .manage
  require (!dto.job.touchesHost || user.isAdmin)
    (.forbidden "Editing a job's execution host, paths or scripts requires administrator access")
  validateEditedCron editing dto.job.cronExpr
  let (job, repository) ← getRow id
  assertRepoAllowed (dto.job.location.getD job.location)
    (dto.targetId.getD repository.targetId)
  let place ← movedPlace user dto repository
  updatePassword editing repository.repoPasswordSecretId dto.repoPassword
  let override ← editOverride editing user dto repository
  referencesAgent dto.job
  writeJob id job.repositoryId
    { name := dto.job.name, place, credentialSecretId := override.column } dto.job
  Secrets.removeOptional override.orphaned

/-- Deletes a job with its runs; a restore of it stays without its job. -/
def deleteJob (id : Uuid) : Service Unit :=
  .write fun world =>
    { world with
      db := { world.db with
        backupJobs := world.db.backupJobs.delete fun other _ => other = id
        jobRuns := world.db.jobRuns.delete fun _ run => run.jobId = id
        restoreRuns := world.db.restoreRuns.update (fun _ run => run.jobId = some id)
          fun run => { run with jobId := none } } }

def deleteRepository (id : Uuid) : Service Unit :=
  .write fun world =>
    { world with
      db := { world.db with
        repositories := world.db.repositories.delete fun other _ => other = id
        repositoryStatsHistory := world.db.repositoryStatsHistory.filter fun reading =>
          reading.repositoryId ≠ id } }

/-- `JobsService.remove`. -/
def removeJob (id : Uuid) : Service Unit := do
  assertAcl user .job id .manage
  let (job, repository) ← getRow id
  deleteJob id
  deleteRepository job.repositoryId
  Secrets.remove repository.repoPasswordSecretId
  Secrets.removeOptional repository.credentialSecretId

/-- The schedule a request asks for; only a rotating check keeps a number of parts. -/
def IntegrityCheckConfigDto.config (dto : IntegrityCheckConfigDto) : IntegrityCheckConfig where
  enabled := some dto.enabled
  cronExpr := dto.cronExpr
  level := some dto.level
  subsetParts := if dto.level = .rotating then dto.subsetParts else none

def writeSchedule (id : Uuid) (config : IntegrityCheckConfig) : Service Unit :=
  .write fun world =>
    { world with
      db := { world.db with
        backupJobs := world.db.backupJobs.update (fun other _ => other = id) fun job =>
          { job with integrityCheck := config, updatedAt := world.now } } }

/-- The cron expression is only required while the schedule is on. -/
def validateSchedule (dto : IntegrityCheckConfigDto) : Service Unit :=
  if dto.enabled then
    match dto.cronExpr with
    | none | some "" => .raise (.badRequest "A schedule needs a cron expression")
    | some expr => validateCron editing expr
  else pure ()

/-- `JobsService.setIntegrityCheck`. -/
def setIntegrityCheck (id : Uuid) (dto : IntegrityCheckConfigDto) : Service Unit := do
  assertAcl user .job id .manage
  let _ ← getRow id
  validateSchedule editing dto
  writeSchedule id dto.config

end Calls

end AmberBackup
