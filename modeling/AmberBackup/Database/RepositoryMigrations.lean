import AmberBackup.Lib.LinkedRows
import AmberBackup.Targets.TargetsService

/-! # The migrations that introduced repositories

A target used to be a connection and a repository in one. Migration 009 splits it: the fields of
the repository and a copy of its password move to every job and every restore on the target, and
`local` targets are dissolved. Migration 010 gives each job a repository row of its own. What
becomes of the jobs and restores in the first step is `splitJobs_spec` and `splitRestores_spec`.
-/

namespace AmberBackup

open Relational Table

/-- A target before the split: its config names a repository, too. -/
structure FlatTarget extends Target where
  passwordSecretId : Option Uuid
  deriving DecidableEq, Repr

/-- The columns of a job that the migrations read or write. -/
structure MigratingJob where
  name : String
  targetId : Option Uuid
  repoConfig : Config := []
  repoPasswordSecretId : Option Uuid := none
  repositoryId : Option Uuid := none
  updatedAt : Nat := 0
  deriving DecidableEq, Repr

structure MigratingRestore where
  targetId : Option Uuid
  jobId : Option Uuid := none
  repoConfig : Config := []
  repoPasswordSecretId : Option Uuid := none
  deriving DecidableEq, Repr

/-- The tables the migrations touch. A column that one of them adds or drops has its default
before or after. -/
structure MigratingDb where
  secrets : Table Uuid Secret
  targets : Table Uuid FlatTarget
  backupJobs : Table Uuid MigratingJob
  restoreRuns : Table Uuid MigratingRestore
  resourceGrants : List ResourceGrant := []
  repositories : Table Uuid Repository := .empty

/-- The tables repositories are resolved from. -/
def MigratingDb.db (db : MigratingDb) : Db where
  secrets := db.secrets
  targets := db.targets.mapRows FlatTarget.toTarget
  repositories := db.repositories
  resourceGrants := db.resourceGrants

/-! ## Migration 009 -/

def repoKeys : List String := ["bucket", "prefix", "container", "path"]

/-- The subset of a flat config that is of the repository, without nulls. -/
def repoConfigExpr (config : Config) : Config :=
  repoKeys.filterMap fun key => ((lookupLast key config).filter (· ≠ .null)).map (key, ·)

/-- `config - 'bucket' - 'prefix' - 'container' - 'path'`. -/
def connectionConfig (config : Config) : Config :=
  config.filter fun entry => !repoKeys.contains entry.1

namespace MigratingDb

variable (db : MigratingDb)

def target? (targetId : Option Uuid) : Option FlatTarget := targetId.bind db.targets.get?

def onLocal (targetId : Option Uuid) : Bool :=
  (db.target? targetId).any fun target => target.backendType = "local"

/-- `COALESCE((SELECT … FROM targets t WHERE t.id = target_id), '{}')`. -/
def repoConfigOf (targetId : Option Uuid) : Config :=
  ((db.target? targetId).map fun target => repoConfigExpr target.config).getD []

/-- The rows that have a target, with its password. -/
def passwordsOf (rows : List (Uuid × Option Uuid)) : List (Uuid × Option Uuid) :=
  rows.filterMap fun entry =>
    (db.target? entry.2).map fun target => (entry.1, target.passwordSecretId)

end MigratingDb

/-- The copy of a password secret, under the same ciphertext and nonce. -/
def copyPassword (secrets : Table Uuid Secret) (password : Option Uuid) : Option Secret :=
  (password.bind secrets.get?).map fun secret => { secret with type := .repoPassword }

def MigratingJob.setPassword (password : Option Uuid) (job : MigratingJob) : MigratingJob :=
  { job with repoPasswordSecretId := password }

def MigratingRestore.setPassword (password : Option Uuid) (run : MigratingRestore) :
    MigratingRestore :=
  { run with repoPasswordSecretId := password }

/-- The jobs with the repository's half of the config, and copies of the passwords for them. -/
def copyJobPasswords (db : MigratingDb) : Table Uuid Secret × Table Uuid MigratingJob :=
  copyEach freshId copyPassword MigratingJob.setPassword
    (db.passwordsOf (db.backupJobs.rows.map fun entry => (entry.1, entry.2.targetId)))
    (db.secrets, db.backupJobs.update (fun _ _ => true) fun job =>
      { job with repoConfig := db.repoConfigOf job.targetId })

/-- The jobs leave local targets. Fails if one is left without a password. -/
def splitJobs (db : MigratingDb) : Option MigratingDb :=
  let (secrets, copied) := copyJobPasswords db
  let backupJobs := copied.update (fun _ job => db.onLocal job.targetId) fun job =>
    { job with targetId := none }
  if backupJobs.anyWhere fun _ job => job.repoPasswordSecretId.isNone then none
  else some { db with secrets, backupJobs }

/-- `(SELECT bj.id FROM backup_jobs bj WHERE bj.target_id = rr.target_id LIMIT 1)`. -/
def MigratingDb.jobOn (db : MigratingDb) (targetId : Option Uuid) : Option Uuid :=
  (db.backupJobs.rows.find? fun entry =>
    entry.2.targetId.isSome && entry.2.targetId = targetId).map Prod.fst

def copyRestorePasswords (db : MigratingDb) : Table Uuid Secret × Table Uuid MigratingRestore :=
  copyEach freshId copyPassword MigratingRestore.setPassword
    (db.passwordsOf (db.restoreRuns.rows.map fun entry => (entry.1, entry.2.targetId)))
    (db.secrets, db.restoreRuns.update (fun _ _ => true) fun run =>
      { run with repoConfig := db.repoConfigOf run.targetId, jobId := db.jobOn run.targetId })

/-- The same for the restores, which are given to a job on their target. -/
def splitRestores (db : MigratingDb) : Option MigratingDb :=
  let (secrets, restoreRuns) := copyRestorePasswords db
  if restoreRuns.anyWhere fun _ run => run.repoPasswordSecretId.isNone then none
  else some { db with secrets, restoreRuns }

/-- The targets keep the connection's half, and the local ones go with their grants. A restore
keeps its history without its target. -/
def stripTargets (db : MigratingDb) : MigratingDb :=
  { db with
    targets := (db.targets.delete fun _ target => target.backendType = "local").mapRows fun target =>
      { target with config := connectionConfig target.config, passwordSecretId := none }
    resourceGrants := db.resourceGrants.filter fun grant =>
      !(grant.resourceType = .target && db.onLocal (some grant.resourceId))
    restoreRuns := db.restoreRuns.update (fun _ run => db.onLocal run.targetId) fun run =>
      { run with targetId := none } }

/-- A password that no job and no restore refers to. -/
def MigratingDb.unused (db : MigratingDb) (id : Uuid) : Bool :=
  !(db.backupJobs.anyWhere fun _ job => job.repoPasswordSecretId = some id) &&
    !(db.restoreRuns.anyWhere fun _ run => run.repoPasswordSecretId = some id)

def dropPasswords (db : MigratingDb) : MigratingDb :=
  { db with
    secrets := db.secrets.delete fun id secret => secret.type = .repoPassword && db.unused id }

/-- `up` of migration 009. -/
def splitTargets (db : MigratingDb) : Option MigratingDb :=
  ((splitJobs db).bind splitRestores).map fun split => dropPasswords (stripTargets split)

/-! ## Migration 010 -/

/-- The repository of a job, as far as its columns are there. -/
def repositoryOf (job : MigratingJob) : Option Repository :=
  job.repoPasswordSecretId.map fun password =>
    { name := job.name
      targetId := job.targetId
      repoConfig := job.repoConfig
      repoPasswordSecretId := password
      updatedAt := job.updatedAt }

def MigratingJob.setRepository (repository : Option Uuid) (job : MigratingJob) : MigratingJob :=
  { job with repositoryId := repository }

/-- The job without the columns that moved to its repository. -/
def MigratingJob.slim (job : MigratingJob) : MigratingJob :=
  { job with targetId := none, repoConfig := [], repoPasswordSecretId := none }

/-- `up` of migration 010. -/
def extractRepositories (db : MigratingDb) : Option MigratingDb :=
  let copied := copyEach freshId (fun _ job => repositoryOf job) MigratingJob.setRepository
    db.backupJobs.rows (.empty, db.backupJobs)
  if copied.2.anyWhere fun _ job => job.repositoryId.isNone then none
  else some
    { db with repositories := copied.1, backupJobs := copied.2.mapRows MigratingJob.slim }

/-- A job with the columns of its repository. -/
def foldBack (repositories : Table Uuid Repository) (job : MigratingJob) : MigratingJob :=
  match job.repositoryId.bind repositories.get? with
  | none => job
  | some repository =>
      { job with
        targetId := repository.targetId
        repoConfig := repository.repoConfig
        repoPasswordSecretId := some repository.repoPasswordSecretId }

/-- `down` of migration 010. -/
def embedRepositories (db : MigratingDb) : Option MigratingDb :=
  let folded := db.backupJobs.update (fun _ _ => true) (foldBack db.repositories)
  if folded.anyWhere fun _ job => job.repoPasswordSecretId.isNone then none
  else some
    { db with
      backupJobs := folded.update (fun _ _ => true) fun job => { job with repositoryId := none }
      repositories := .empty }

/-! ## The halves of a flat config -/

section Halves

variable {config : Config} {name : String}

theorem lookup_connectionConfig (other : name ∉ repoKeys) :
    lookupLast name (connectionConfig config) = lookupLast name config := by
  unfold connectionConfig
  rw [lookupLast_filter fun name => !repoKeys.contains name]
  exact if_pos (by simpa using other)

/-- Nothing reads a field that is null in another way than one that is absent. -/
theorem str_repoConfigExpr (own : name ∈ repoKeys) :
    str (lookupLast name (repoConfigExpr config)) = str (lookupLast name config) := by
  have found : lookupLast name (repoConfigExpr config) =
      (lookupLast name config).filter fun value => value ≠ .null :=
    lookupLast_filterMap id
      (fun key => (lookupLast key config).filter fun value => decide (value ≠ Value.null))
      (by decide) own
  rw [found]
  cases lookupLast name config with
  | none => rfl
  | some value => cases value <;> rfl

/-- A backend builds from the two halves what it builds from the whole. -/
theorem build_halves {definition : BackendDefinition} (listed : definition ∈ backends)
    (credentials : Fields) :
    definition.build (connectionConfig config) credentials (repoConfigExpr config) =
      definition.build config credentials config := by
  have connection : ∀ name, name ∉ repoKeys →
      lookupLast name (connectionConfig config) = lookupLast name config :=
    fun name => lookup_connectionConfig
  have repository : ∀ name, name ∈ repoKeys →
      str (lookupLast name (repoConfigExpr config)) = str (lookupLast name config) :=
    fun name => str_repoConfigExpr
  have bucket := repository "bucket" (by decide)
  have pathPrefix := repository "prefix" (by decide)
  have container := repository "container" (by decide)
  have path := repository "path" (by decide)
  simp only [backends, List.mem_cons, List.not_mem_nil, or_false] at listed
  rcases listed with rfl | rfl | rfl | rfl | rfl | rfl | rfl | rfl | rfl
  · simp only [localBackend, path]
  · simp only [sftpBackend, assertSafeSftpConfig, path, connection "host" (by decide),
      connection "user" (by decide), connection "port" (by decide)]
  · simp only [restBackend, joinPath, path, connection "url" (by decide)]
  · simp only [s3Backend, joinPath, bucket, pathPrefix, connection "endpoint" (by decide),
      connection "region" (by decide)]
  · simp only [b2Backend, bucket, pathPrefix]
  · simp only [azureBackend, container, pathPrefix, connection "accountName" (by decide)]
  · simp only [gsBackend, rootedPrefix, bucket, pathPrefix, connection "projectId" (by decide)]
  · simp only [swiftBackend, rootedPrefix, container, pathPrefix]
  · simp only [rcloneBackend, path, connection "remote" (by decide)]

end Halves

/-! ## Copies of passwords -/

section Passwords

variable {db : MigratingDb} {σ : Type} {table : Table Uuid σ} {targetOf : σ → Option Uuid}

theorem mem_passwordsOf {rows : List (Uuid × Option Uuid)} {id : Uuid} {password : Option Uuid} :
    (id, password) ∈ db.passwordsOf rows ↔ ∃ targetId target, (id, targetId) ∈ rows ∧
      db.target? targetId = some target ∧ target.passwordSecretId = password := by
  simp only [MigratingDb.passwordsOf, List.mem_filterMap, Option.map_eq_some_iff, Prod.mk.injEq,
    Prod.exists]
  constructor
  · rintro ⟨_, targetId, member, target, found, rfl, rfl⟩
    exact ⟨targetId, target, member, found, rfl⟩
  · rintro ⟨targetId, target, member, found, rfl⟩
    exact ⟨id, targetId, member, target, found, rfl, rfl⟩

theorem passwordsOf_sublist (rows : List (Uuid × Option Uuid)) :
    ((db.passwordsOf rows).map Prod.fst).Sublist (rows.map Prod.fst) := by
  induction rows with
  | nil => exact .slnil
  | cons entry rest ih =>
      unfold MigratingDb.passwordsOf
      rw [List.filterMap_cons]
      cases db.target? entry.2 with
      | none => exact ih.cons _
      | some target => exact ih.cons_cons _

/-- Every target has a password that is stored. -/
def MigratingDb.HasPasswords (db : MigratingDb) : Prop :=
  ∀ targetId target, db.targets.get? targetId = some target →
    (copyPassword db.secrets target.passwordSecretId).isSome = true

theorem copyPassword_extends {store later : Table Uuid Secret} (extended : store.Extends later)
    {password : Option Uuid} {copy : Secret} (copied : copyPassword store password = some copy) :
    copyPassword later password = some copy := by
  obtain ⟨secret, found, rfl⟩ := Option.map_eq_some_iff.mp copied
  obtain ⟨id, rfl, present⟩ := Option.bind_eq_some_iff.mp found
  exact Option.map_eq_some_iff.mpr ⟨secret, extended id secret present, rfl⟩

/-- Each row of a table has a copy of its target's password to itself. -/
structure OwnPasswords (db : MigratingDb) (targetOf : Uuid → Option (Option Uuid))
    (secrets : Table Uuid Secret) (secretOf : Uuid → Uuid) : Prop where
  kept : db.secrets.Extends secrets
  copy : ∀ id targetId target, targetOf id = some targetId → db.target? targetId = some target →
    secrets.get? (secretOf id) = copyPassword db.secrets target.passwordSecretId
  fresh : ∀ id targetId, targetOf id = some targetId → db.secrets.get? (secretOf id) = none
  own : ∀ id other targetId targetId', targetOf id = some targetId →
    targetOf other = some targetId' → secretOf id = secretOf other → id = other
  new : ∀ id secret, secrets.get? id = some secret → db.secrets.get? id = some secret ∨
    ∃ user targetId, targetOf user = some targetId ∧ id = secretOf user

theorem exists_ownPasswords (hasPasswords : db.HasPasswords)
    (onTarget : ∀ id row, table.get? id = some row → (db.target? (targetOf row)).isSome = true)
    (setPassword : Option Uuid → σ → σ) (backfill : σ → σ) {copied : Table Uuid Secret × Table Uuid σ}
    (copies : copyEach freshId copyPassword setPassword
      (db.passwordsOf (table.rows.map fun entry => (entry.1, targetOf entry.2)))
      (db.secrets, table.update (fun _ _ => true) backfill) = copied) :
    ∃ secretOf, OwnPasswords db (fun id => (table.get? id).map targetOf) copied.1 secretOf ∧
      ∀ id, copied.2.get? id =
        (table.get? id).map fun row => setPassword (some (secretOf id)) (backfill row) := by
  have listed : ∀ id targetId, (id, targetId) ∈ table.rows.map (fun e => (e.1, targetOf e.2)) ↔
      (table.get? id).map targetOf = some targetId := by
    intro id targetId
    simp only [List.mem_map, Prod.mk.injEq, Prod.exists, Option.map_eq_some_iff]
    constructor
    · rintro ⟨_, row, member, rfl, rfl⟩
      exact ⟨row, mem_rows.mp member, rfl⟩
    · rintro ⟨row, present, rfl⟩
      exact ⟨id, row, mem_rows.mpr present, rfl, rfl⟩
  have distinct : ((db.passwordsOf
      (table.rows.map fun entry => (entry.1, targetOf entry.2))).map Prod.fst).Nodup := by
    refine (passwordsOf_sublist _).nodup ?_
    rw [List.map_map]
    exact table.distinct
  have yields : ∀ id password, (id, password) ∈ db.passwordsOf
      (table.rows.map fun entry => (entry.1, targetOf entry.2)) → ∀ later, db.secrets.Extends later →
        copyPassword later password =
          some ((copyPassword db.secrets password).getD ⟨.repoPassword, "", ""⟩) := by
    intro id password member later extended
    obtain ⟨targetId, target, -, found, rfl⟩ := mem_passwordsOf.mp member
    obtain ⟨key, rfl, present⟩ := Option.bind_eq_some_iff.mp found
    obtain ⟨copy, copied⟩ := Option.isSome_iff_exists.mp (hasPasswords key target present)
    rw [copyPassword_extends extended copied, copied, Option.getD_some]
  obtain ⟨secretOf, linked⟩ := @copyEach_linked Uuid Uuid Secret σ (Option Uuid) _ _
    freshId copyPassword setPassword
    (fun password => (copyPassword db.secrets password).getD ⟨.repoPassword, "", ""⟩)
    _ db.secrets (table.update (fun _ _ => true) backfill) get?_freshId distinct yields
  rw [copies] at linked
  have item : ∀ id targetId, (table.get? id).map targetOf = some targetId → ∃ target,
      db.target? targetId = some target ∧ (id, target.passwordSecretId) ∈ db.passwordsOf
        (table.rows.map fun entry => (entry.1, targetOf entry.2)) := by
    intro id targetId present
    obtain ⟨row, here, rfl⟩ := Option.map_eq_some_iff.mp present
    obtain ⟨target, found⟩ := Option.isSome_iff_exists.mp (onTarget id row here)
    exact ⟨target, found, mem_passwordsOf.mpr ⟨_, target, (listed id _).mpr present, found, rfl⟩⟩
  refine ⟨secretOf, ⟨linked.kept, ?_, ?_, ?_, ?_⟩, ?_⟩
  · intro id targetId target present found
    obtain ⟨target', found', member⟩ := item id targetId present
    obtain rfl := Option.some.inj (found.symm.trans found')
    exact (linked.copy id _ member).trans
      (yields id _ member db.secrets fun _ _ here => here).symm
  · intro id targetId present
    obtain ⟨target, -, member⟩ := item id targetId present
    exact linked.fresh id _ member
  · intro id other targetId targetId' present present' same
    obtain ⟨target, -, member⟩ := item id targetId present
    obtain ⟨target', -, member'⟩ := item other targetId' present'
    exact linked.own id _ other _ member member' same
  · intro id secret present
    rcases linked.new id secret present with before | ⟨user, password, member, rfl⟩
    · exact .inl before
    · obtain ⟨targetId, target, inRows, -, -⟩ := mem_passwordsOf.mp member
      exact .inr ⟨user, targetId, (listed user targetId).mp inRows, rfl⟩
  · intro id
    cases present : table.get? id with
    | none =>
        rw [linked.others id, get?_update, present]
        · rfl
        · intro member
          obtain ⟨⟨user, password⟩, copied, rfl⟩ := List.mem_map.mp member
          obtain ⟨targetId, target, inRows, -, -⟩ := mem_passwordsOf.mp copied
          have here := (listed user targetId).mp inRows
          rw [present] at here
          cases here
    | some row =>
        obtain ⟨target, -, member⟩ := item id (targetOf row) (by rw [present]; rfl)
        rw [linked.link id _ member, get?_update, present]
        rfl

end Passwords

/-! ## What becomes of jobs and restores -/

/-- A job after the split, with the copy of the password. -/
def MigratingDb.splitJob (db : MigratingDb) (secretId : Uuid) (job : MigratingJob) :
    MigratingJob :=
  { job with
    targetId := if db.onLocal job.targetId then none else job.targetId
    repoConfig := db.repoConfigOf job.targetId
    repoPasswordSecretId := some secretId }

section Splits

variable {db split : MigratingDb}

/-- Every job gets the config and the password of its target. -/
theorem splitJobs_spec (hasPasswords : db.HasPasswords)
    (onTarget : ∀ id job, db.backupJobs.get? id = some job →
      (db.target? job.targetId).isSome = true) :
    ∃ secrets backupJobs secretOf, splitJobs db = some { db with secrets, backupJobs } ∧
      OwnPasswords db (fun id => (db.backupJobs.get? id).map MigratingJob.targetId)
        secrets secretOf ∧
      ∀ id, backupJobs.get? id = (db.backupJobs.get? id).map (db.splitJob (secretOf id)) := by
  obtain ⟨⟨secrets, copied⟩, copies⟩ : ∃ copied, copyJobPasswords db = copied := ⟨_, rfl⟩
  obtain ⟨secretOf, own, jobs⟩ := exists_ownPasswords hasPasswords onTarget
    MigratingJob.setPassword _ copies
  have final : ∀ id, (copied.update (fun _ job => db.onLocal job.targetId) fun job =>
        { job with targetId := none }).get? id =
      (db.backupJobs.get? id).map (db.splitJob (secretOf id)) := by
    intro id
    rw [get?_update, jobs, Option.map_map]
    refine congrArg (Option.map · _) (funext fun job => ?_)
    unfold MigratingDb.splitJob MigratingJob.setPassword
    dsimp only [Function.comp_apply]
    split <;> rfl
  refine ⟨secrets, _, secretOf, ?_, own, final⟩
  unfold splitJobs
  rw [copies]
  refine if_neg ?_
  rw [Bool.not_eq_true, anyWhere_eq_false]
  intro id job present
  rw [final] at present
  obtain ⟨before, -, rfl⟩ := Option.map_eq_some_iff.mp present
  rfl

/-- Every restore gets the config and the password of its target. -/
theorem splitRestores_spec (hasPasswords : db.HasPasswords)
    (onTarget : ∀ id run, db.restoreRuns.get? id = some run →
      (db.target? run.targetId).isSome = true) :
    ∃ secrets restoreRuns secretOf, splitRestores db = some { db with secrets, restoreRuns } ∧
      OwnPasswords db (fun id => (db.restoreRuns.get? id).map MigratingRestore.targetId)
        secrets secretOf ∧
      ∀ id, restoreRuns.get? id = (db.restoreRuns.get? id).map fun run =>
        { run with
          repoConfig := db.repoConfigOf run.targetId
          jobId := db.jobOn run.targetId
          repoPasswordSecretId := some (secretOf id) } := by
  obtain ⟨⟨secrets, restoreRuns⟩, copies⟩ : ∃ copied, copyRestorePasswords db = copied := ⟨_, rfl⟩
  obtain ⟨secretOf, own, restores⟩ := exists_ownPasswords hasPasswords onTarget
    MigratingRestore.setPassword _ copies
  refine ⟨secrets, restoreRuns, secretOf, ?_, own, restores⟩
  unfold splitRestores
  rw [copies]
  refine if_neg ?_
  rw [Bool.not_eq_true, anyWhere_eq_false]
  intro id run present
  rw [restores] at present
  obtain ⟨before, -, rfl⟩ := Option.map_eq_some_iff.mp present
  rfl

end Splits

end AmberBackup
