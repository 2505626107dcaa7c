import AmberBackup.Database.RepositoryMigrations

/-! # What is resolved after the migrations

Migrations 009 and 010 change what a repository is resolved from. Every job and every restore is
resolved to what its target named before (`repositories_migrated`), and 010 is undone without a loss
(`down_up_repositories`).
-/

namespace AmberBackup

open Relational Table

/-! ## What is resolved -/

/-- A secret from before ciphertexts were bound to their rows. -/
def Unbound (platform : Platform) (secret : Secret) : Prop :=
  ∀ id, platform.decrypt secret.ciphertext secret.nonce (some (aadFor id)) = none

/-- What a target named as one: the repository of its whole config. -/
def flatResolve (platform : Platform) (db : MigratingDb) (targetId : Uuid) :
    Except Failure ResolvedTarget :=
  match db.targets.get? targetId with
  | none => .error (.notFound "Target not found")
  | some target => do
      let password ← match target.passwordSecretId with
        | none => .error (.notFound "Secret not found")
        | some secretId => reveal platform db.db secretId
      let credentials ← revealCredentials platform db.db target.credentialSecretId
      assemble target.backendType target.config credentials target.config password
        (if target.backendType = "local" then none else some targetId)

/-- The references between the rows, and secrets that are not bound to theirs. -/
structure MigratingDb.Sound (platform : Platform) (db : MigratingDb) : Prop where
  jobs : ∀ id job, db.backupJobs.get? id = some job → (db.target? job.targetId).isSome = true
  restores : ∀ id run, db.restoreRuns.get? id = some run → (db.target? run.targetId).isSome = true
  passwords : db.HasPasswords
  unbound : ∀ targetId target secretId secret, db.targets.get? targetId = some target →
    target.passwordSecretId = some secretId → db.secrets.get? secretId = some secret →
      Unbound platform secret
  credentials : ∀ targetId target secretId, db.targets.get? targetId = some target →
    target.credentialSecretId = some secretId →
      ∃ secret, db.secrets.get? secretId = some secret ∧ secret.type ≠ .repoPassword
  locals : ∀ targetId target, db.targets.get? targetId = some target →
    target.backendType = "local" → target.credentialSecretId = none

section Resolved

variable {platform : Platform} {db : MigratingDb} {targetId secretId : Uuid} {target : FlatTarget}

/-- The copy of a password is revealed like the password. -/
theorem reveal_copy (sound : db.Sound platform) (here : db.targets.get? targetId = some target)
    {after : Db}
    (copy : after.secrets.get? secretId = copyPassword db.secrets target.passwordSecretId) :
    ∃ passwordId, target.passwordSecretId = some passwordId ∧
      reveal platform after secretId = reveal platform db.db passwordId := by
  obtain ⟨copied, copies⟩ := Option.isSome_iff_exists.mp (sound.passwords targetId target here)
  obtain ⟨secret, found, rfl⟩ := Option.map_eq_some_iff.mp copies
  obtain ⟨passwordId, password, present⟩ := Option.bind_eq_some_iff.mp found
  refine ⟨passwordId, password, ?_⟩
  have plain := sound.unbound targetId target passwordId secret here password present
  have original : db.db.secrets.get? passwordId = some secret := present
  unfold reveal
  rw [copy, copies, original]
  dsimp only
  rw [plain secretId, plain passwordId]

theorem revealCredentials_kept (sound : db.Sound platform)
    (here : db.targets.get? targetId = some target) {after : Db}
    (kept : ∀ id secret, db.secrets.get? id = some secret → secret.type ≠ .repoPassword →
      after.secrets.get? id = some secret) :
    revealCredentials platform after target.credentialSecretId =
      revealCredentials platform db.db target.credentialSecretId := by
  cases stored : target.credentialSecretId with
  | none => rfl
  | some id =>
      obtain ⟨secret, present, other⟩ := sound.credentials targetId target id here stored
      have original : db.db.secrets.get? id = some secret := present
      unfold revealCredentials reveal
      dsimp only
      rw [kept id secret present other, original]

/-- The two halves of a config make up the repository of the whole. -/
theorem assemble_halves {type : String} {config : Config} {credentials : Fields}
    {password : String} {connection : Option Uuid} :
    assemble type (connectionConfig config) credentials (repoConfigExpr config) password connection =
      assemble type config credentials config password connection := by
  unfold assemble
  cases found : getBackend type with
  | error failure => rfl
  | ok definition =>
      change (definition.build _ (credentials ++ []) _ >>= _) =
        (definition.build _ (credentials ++ []) _ >>= _)
      rw [build_halves (mem_of_getBackend found)]

/-- A row with the halves of a target's config and a copy of its password is resolved to what the
target named. -/
theorem resolveRepo_split (sound : db.Sound platform)
    (here : db.targets.get? targetId = some target) {after : Db}
    (copy : after.secrets.get? secretId = copyPassword db.secrets target.passwordSecretId)
    (kept : ∀ id secret, db.secrets.get? id = some secret → secret.type ≠ .repoPassword →
      after.secrets.get? id = some secret)
    (connection : target.backendType ≠ "local" → after.targets.get? targetId =
      some { target.toTarget with config := connectionConfig target.config }) :
    resolveRepo platform after
        { targetId := if db.onLocal (some targetId) then none else some targetId
          repoConfig := db.repoConfigOf (some targetId)
          repoPasswordSecretId := secretId
          credentialSecretId := none } = flatResolve platform db targetId := by
  obtain ⟨passwordId, password, same⟩ := reveal_copy sound here copy
  have config : db.repoConfigOf (some targetId) = repoConfigExpr target.config := by
    unfold MigratingDb.repoConfigOf MigratingDb.target?
    rw [Option.bind_some, here]
    rfl
  have onLocal : db.onLocal (some targetId) = decide (target.backendType = "local") := by
    unfold MigratingDb.onLocal MigratingDb.target?
    rw [Option.bind_some, here]
    rfl
  unfold resolveRepo flatResolve
  rw [here]
  dsimp only
  rw [same, password, config, onLocal]
  dsimp only
  cases reveal platform db.db passwordId with
  | error failure => rfl
  | ok plaintext =>
      by_cases standalone : target.backendType = "local"
      · rw [standalone, sound.locals targetId target here standalone]
        change assemble "local" (connectionConfig target.config) [] (repoConfigExpr target.config)
            plaintext none = assemble "local" target.config [] target.config plaintext none
        exact assemble_halves
      · rw [decide_eq_false standalone, if_neg Bool.false_ne_true, if_neg standalone]
        have stored : getTargetRow after targetId =
            .ok { target.toTarget with config := connectionConfig target.config } := by
          unfold getTargetRow
          rw [connection standalone]
        change (getTargetRow after targetId >>= _) = (revealCredentials _ _ _ >>= _)
        rw [stored]
        change (revealCredentials platform after target.credentialSecretId >>= _) = _
        rw [revealCredentials_kept sound here kept]
        cases revealCredentials platform db.db target.credentialSecretId with
        | error failure => rfl
        | ok credentials => exact assemble_halves

end Resolved

/-! ## The split as a whole -/

/-- A restore after the split, with the copy of the password and the job it is given to. -/
def MigratingDb.splitRestore (db after : MigratingDb) (secretId : Uuid) (run : MigratingRestore) :
    MigratingRestore where
  targetId := if db.onLocal run.targetId then none else run.targetId
  jobId := after.jobOn run.targetId
  repoConfig := db.repoConfigOf run.targetId
  repoPasswordSecretId := some secretId

/-- The tables after migration 009, with the secrets of the jobs and of the restores. -/
structure SplitTables (db after : MigratingDb) (jobSecret restoreSecret : Uuid → Uuid) : Prop where
  job : ∀ id, after.backupJobs.get? id =
    (db.backupJobs.get? id).map (db.splitJob (jobSecret id))
  restore : ∀ id, after.restoreRuns.get? id =
    (db.restoreRuns.get? id).map (db.splitRestore after (restoreSecret id))
  target : ∀ id, after.targets.get? id =
    ((db.targets.get? id).filter fun target => target.backendType ≠ "local").map fun target =>
      { target with config := connectionConfig target.config, passwordSecretId := none }
  jobPassword : ∀ id job target, db.backupJobs.get? id = some job →
    db.target? job.targetId = some target →
      after.secrets.get? (jobSecret id) = copyPassword db.secrets target.passwordSecretId
  restorePassword : ∀ id run target, db.restoreRuns.get? id = some run →
    db.target? run.targetId = some target →
      after.secrets.get? (restoreSecret id) = copyPassword db.secrets target.passwordSecretId
  others : ∀ id secret, db.secrets.get? id = some secret → secret.type ≠ .repoPassword →
    after.secrets.get? id = some secret
  jobOwn : ∀ id other job job', db.backupJobs.get? id = some job →
    db.backupJobs.get? other = some job' → jobSecret id = jobSecret other → id = other
  restoreOwn : ∀ id other run run', db.restoreRuns.get? id = some run →
    db.restoreRuns.get? other = some run' → restoreSecret id = restoreSecret other → id = other
  apart : ∀ id other job run, db.backupJobs.get? id = some job →
    db.restoreRuns.get? other = some run → jobSecret id ≠ restoreSecret other
  leftover : ∀ id secret, after.secrets.get? id = some secret → secret.type = .repoPassword →
    (∃ user job, db.backupJobs.get? user = some job ∧ id = jobSecret user) ∨
      ∃ user run, db.restoreRuns.get? user = some run ∧ id = restoreSecret user

section Split

variable {platform : Platform} {db : MigratingDb}

/-- A password that is referred to is not dropped. -/
theorem get?_dropPasswords_of_used {id : Uuid} (used : db.unused id = false) :
    (dropPasswords db).secrets.get? id = db.secrets.get? id := by
  unfold dropPasswords
  rw [get?_delete, used]
  cases db.secrets.get? id with
  | none => rfl
  | some secret => simp

theorem unused_eq_true {id : Uuid} :
    db.unused id = true ↔
      (∀ user job, db.backupJobs.get? user = some job → job.repoPasswordSecretId ≠ some id) ∧
        ∀ user run, db.restoreRuns.get? user = some run → run.repoPasswordSecretId ≠ some id := by
  simp only [MigratingDb.unused, Bool.and_eq_true, Bool.not_eq_true', anyWhere_eq_false,
    decide_eq_false_iff_not, ne_eq]

theorem target?_eq_some {targetId : Option Uuid} {target : FlatTarget}
    (found : db.target? targetId = some target) :
    ∃ id, targetId = some id ∧ db.targets.get? id = some target :=
  Option.bind_eq_some_iff.mp found

theorem splitTargets_spec (sound : db.Sound platform) :
    ∃ after jobSecret restoreSecret, splitTargets db = some after ∧
      SplitTables db after jobSecret restoreSecret := by
  obtain ⟨secrets, backupJobs, jobSecret, jobsSplit, jobOwn, jobs⟩ :=
    splitJobs_spec sound.passwords sound.jobs
  have passwords : { db with secrets, backupJobs : MigratingDb }.HasPasswords := by
    intro targetId target here
    obtain ⟨copy, copied⟩ := Option.isSome_iff_exists.mp (sound.passwords targetId target here)
    exact Option.isSome_iff_exists.mpr ⟨copy, copyPassword_extends jobOwn.kept copied⟩
  obtain ⟨secrets', restoreRuns, restoreSecret, restoresSplit, restoreOwn, restores⟩ :=
    splitRestores_spec passwords sound.restores
  obtain ⟨split, splits⟩ : ∃ split : MigratingDb, split =
    { db with secrets := secrets', backupJobs, restoreRuns } := ⟨_, rfl⟩
  have ran : splitTargets db = some (dropPasswords (stripTargets split)) := by
    unfold splitTargets
    rw [jobsSplit, Option.bind_some, restoresSplit, splits]
    rfl
  have restored : ∀ id, (stripTargets split).restoreRuns.get? id =
      (db.restoreRuns.get? id).map
        (db.splitRestore (dropPasswords (stripTargets split)) (restoreSecret id)) := by
    intro id
    subst splits
    unfold stripTargets
    rw [get?_update, restores, Option.map_map]
    refine congrArg (Option.map · _) (funext fun run => ?_)
    unfold MigratingDb.splitRestore
    dsimp only [Function.comp_apply]
    change (if db.onLocal run.targetId = true then _ else _) = _
    split <;> rfl
  have stripped : (stripTargets split).secrets = secrets' ∧
      (stripTargets split).backupJobs = backupJobs := by
    subst splits
    exact ⟨rfl, rfl⟩
  have present : ∀ targetId target, db.target? targetId = some target →
      ∃ copy, copyPassword db.secrets target.passwordSecretId = some copy := by
    intro targetId target found
    obtain ⟨id, -, here⟩ := target?_eq_some found
    exact Option.isSome_iff_exists.mp (sound.passwords id target here)
  have jobUsed : ∀ id job, db.backupJobs.get? id = some job →
      (stripTargets split).unused (jobSecret id) = false := by
    intro id job here
    rw [← Bool.not_eq_true, unused_eq_true]
    rintro ⟨free, -⟩
    refine free id (db.splitJob (jobSecret id) job) ?_ rfl
    rw [stripped.2, jobs, here]
    rfl
  have restoreUsed : ∀ id run, db.restoreRuns.get? id = some run →
      (stripTargets split).unused (restoreSecret id) = false := by
    intro id run here
    rw [← Bool.not_eq_true, unused_eq_true]
    rintro ⟨-, free⟩
    refine free id (db.splitRestore (dropPasswords (stripTargets split)) (restoreSecret id) run)
      ?_ rfl
    rw [restored, here]
    rfl
  refine ⟨_, jobSecret, restoreSecret, ran, ?_, restored, ?_, ?_, ?_, ?_, ?_, ?_, ?_, ?_⟩
  · intro id
    exact (congrArg (Table.get? · id) stripped.2).trans (jobs id)
  · intro id
    subst splits
    unfold dropPasswords stripTargets
    rw [get?_mapRows, get?_delete]
    refine congrArg (Option.map _) ?_
    cases db.targets.get? id with
    | none => rfl
    | some target => simp
  · intro id job target here found
    obtain ⟨copy, copied⟩ := present _ _ found
    rw [get?_dropPasswords_of_used (jobUsed id job here), stripped.1, copied]
    refine restoreOwn.kept _ _ ?_
    have first := jobOwn.copy id job.targetId target (by rw [here]; rfl) found
    exact first.trans copied
  · intro id run target here found
    obtain ⟨copy, copied⟩ := present _ _ found
    rw [get?_dropPasswords_of_used (restoreUsed id run here), stripped.1, copied]
    have first := restoreOwn.copy id run.targetId target (by rw [here]; rfl) found
    exact first.trans (copyPassword_extends jobOwn.kept copied)
  · intro id secret here other
    unfold dropPasswords
    rw [get?_delete, stripped.1, restoreOwn.kept _ _ (jobOwn.kept _ _ here)]
    simp [other]
  · intro id other job job' here there same
    exact jobOwn.own id other job.targetId job'.targetId (by rw [here]; rfl) (by rw [there]; rfl) same
  · intro id other run run' here there same
    exact restoreOwn.own id other run.targetId run'.targetId (by rw [here]; rfl)
      (by rw [there]; rfl) same
  · intro id other job run here there same
    have fresh := restoreOwn.fresh other run.targetId (by rw [there]; rfl)
    obtain ⟨target, found⟩ := Option.isSome_iff_exists.mp (sound.jobs id job here)
    obtain ⟨copy, copied⟩ := present _ _ found
    have first := jobOwn.copy id job.targetId target (by rw [here]; rfl) found
    rw [← same] at fresh
    change secrets.get? (jobSecret id) = none at fresh
    rw [first, copied] at fresh
    cases fresh
  · intro id secret here password
    have unfreed : (stripTargets split).unused id = false ∧ secrets'.get? id = some secret := by
      unfold dropPasswords at here
      rw [get?_delete, stripped.1, Option.filter_eq_some_iff] at here
      simpa [password] using here.symm
    have used := unfreed.1
    rw [← Bool.not_eq_true, unused_eq_true, not_and_or] at used
    push Not at used
    rcases used with ⟨user, job, here, refers⟩ | ⟨user, run, here, refers⟩
    · rw [stripped.2, jobs] at here
      obtain ⟨before, found, rfl⟩ := Option.map_eq_some_iff.mp here
      exact .inl ⟨user, before, found, (Option.some.inj refers).symm⟩
    · rw [restored] at here
      obtain ⟨before, found, rfl⟩ := Option.map_eq_some_iff.mp here
      exact .inr ⟨user, before, found, (Option.some.inj refers).symm⟩

end Split

/-! ## Repositories of their own -/

/-- The repository that a job with a password gets. -/
def ownRepository (job : MigratingJob) : Repository where
  name := job.name
  targetId := job.targetId
  repoConfig := job.repoConfig
  repoPasswordSecretId := job.repoPasswordSecretId.getD 0
  updatedAt := job.updatedAt

/-- The tables after migration 010, with the repositories of the jobs. -/
structure Extracted (db after : MigratingDb) (repositoryId : Uuid → Uuid) : Prop where
  rest : after.secrets = db.secrets ∧ after.targets = db.targets ∧
    after.restoreRuns = db.restoreRuns ∧ after.resourceGrants = db.resourceGrants
  job : ∀ id, after.backupJobs.get? id = (db.backupJobs.get? id).map fun job =>
    (job.setRepository (some (repositoryId id))).slim
  repository : ∀ id job, db.backupJobs.get? id = some job →
    after.repositories.get? (repositoryId id) = some (ownRepository job)
  own : ∀ id other job job', db.backupJobs.get? id = some job →
    db.backupJobs.get? other = some job' → repositoryId id = repositoryId other → id = other
  new : ∀ id repository, after.repositories.get? id = some repository →
    ∃ user job, db.backupJobs.get? user = some job ∧ id = repositoryId user

section Extraction

variable {db : MigratingDb}

theorem extractRepositories_spec
    (passwords : ∀ id job, db.backupJobs.get? id = some job →
      job.repoPasswordSecretId.isSome = true) :
    ∃ after repositoryId, extractRepositories db = some after ∧
      Extracted db after repositoryId := by
  have present : ∀ id job, (id, job) ∈ db.backupJobs.rows ↔ db.backupJobs.get? id = some job :=
    fun id job => mem_rows
  obtain ⟨⟨repositories, jobs⟩, copies⟩ : ∃ copied, copyEach freshId (fun _ job => repositoryOf job)
    MigratingJob.setRepository db.backupJobs.rows (.empty, db.backupJobs) = copied := ⟨_, rfl⟩
  obtain ⟨repositoryId, linked⟩ := @copyEach_linked Uuid Uuid Repository MigratingJob MigratingJob _ _
    freshId (fun _ job => repositoryOf job) MigratingJob.setRepository ownRepository
    db.backupJobs.rows .empty db.backupJobs get?_freshId db.backupJobs.distinct (by
      intro id job member later _
      obtain ⟨password, stored⟩ := Option.isSome_iff_exists.mp
        (passwords id job ((present id job).mp member))
      unfold repositoryOf ownRepository
      rw [stored]
      rfl)
  rw [copies] at linked
  have jobRows : ∀ id, jobs.get? id =
      (db.backupJobs.get? id).map (MigratingJob.setRepository (some (repositoryId id))) := by
    intro id
    cases here : db.backupJobs.get? id with
    | none =>
        rw [linked.others id, here]
        · rfl
        · intro member
          obtain ⟨⟨user, job⟩, listed, rfl⟩ := List.mem_map.mp member
          rw [(present user job).mp listed] at here
          cases here
    | some job =>
        rw [linked.link id job ((present id job).mpr here), here]
  refine ⟨{ db with repositories, backupJobs := jobs.mapRows MigratingJob.slim }, repositoryId, ?_,
    ⟨rfl, rfl, rfl, rfl⟩, ?_, ?_, ?_, ?_⟩
  · unfold extractRepositories
    rw [copies]
    refine if_neg ?_
    rw [Bool.not_eq_true, anyWhere_eq_false]
    intro id job here
    rw [jobRows] at here
    obtain ⟨before, -, rfl⟩ := Option.map_eq_some_iff.mp here
    rfl
  · intro id
    dsimp only
    rw [get?_mapRows, jobRows, Option.map_map]
    rfl
  · intro id job here
    exact linked.copy id job ((present id job).mpr here)
  · intro id other job job' here there same
    exact linked.own id job other job' ((present id job).mpr here) ((present other job').mpr there)
      same
  · intro id repository here
    rcases linked.new id repository here with before | ⟨user, job, member, rfl⟩
    · cases before
    · exact ⟨user, job, (present user job).mp member, rfl⟩

end Extraction

/-! ## Both migrations -/

def MigratingRestore.ref (run : MigratingRestore) : Option RepositoryRef :=
  run.repoPasswordSecretId.map fun password =>
    { targetId := run.targetId
      repoConfig := run.repoConfig
      repoPasswordSecretId := password
      credentialSecretId := none }

/-- The repository of a job. -/
def MigratingDb.repositoryFor (db : MigratingDb) (id : Uuid) : Option (Uuid × Repository) := do
  let job ← db.backupJobs.get? id
  let repositoryId ← job.repositoryId
  let repository ← db.repositories.get? repositoryId
  return (repositoryId, repository)

/-- The ref of a restore. -/
def MigratingDb.restoreRef (db : MigratingDb) (id : Uuid) : Option RepositoryRef :=
  (db.restoreRuns.get? id).bind MigratingRestore.ref

/-- Jobs and restores name what they named before, each with a password of its own. -/
structure Migrated (platform : Platform) (db after : MigratingDb) : Prop where
  jobs : ∀ id job, db.backupJobs.get? id = some job →
    ∃ targetId repositoryId repository, job.targetId = some targetId ∧
      after.repositoryFor id = some (repositoryId, repository) ∧ repository.name = job.name ∧
      resolveRepo platform after.db repository.ref = flatResolve platform db targetId
  restores : ∀ id run, db.restoreRuns.get? id = some run →
    ∃ targetId ref, run.targetId = some targetId ∧ after.restoreRef id = some ref ∧
      resolveRepo platform after.db ref = flatResolve platform db targetId
  noJobs : ∀ id, db.backupJobs.get? id = none → after.backupJobs.get? id = none
  noRestores : ∀ id, db.restoreRuns.get? id = none → after.restoreRuns.get? id = none
  ownRepository : ∀ id other repositoryId repository repository',
    after.repositoryFor id = some (repositoryId, repository) →
      after.repositoryFor other = some (repositoryId, repository') → id = other
  noRepository : ∀ repositoryId repository, after.repositories.get? repositoryId = some repository →
    ∃ id, after.repositoryFor id = some (repositoryId, repository)
  jobPassword : ∀ id other repository repository', after.repositories.get? id = some repository →
    after.repositories.get? other = some repository' →
      repository.repoPasswordSecretId = repository'.repoPasswordSecretId → id = other
  restorePassword : ∀ id other ref ref', after.restoreRef id = some ref →
    after.restoreRef other = some ref' →
      ref.repoPasswordSecretId = ref'.repoPasswordSecretId → id = other
  apart : ∀ id other repository ref, after.repositories.get? id = some repository →
    after.restoreRef other = some ref → repository.repoPasswordSecretId ≠ ref.repoPasswordSecretId
  used : ∀ secretId secret, after.secrets.get? secretId = some secret →
    secret.type = .repoPassword →
      (∃ id repository, after.repositories.get? id = some repository ∧
        repository.repoPasswordSecretId = secretId) ∨
      ∃ id ref, after.restoreRef id = some ref ∧ ref.repoPasswordSecretId = secretId
  secrets : ∀ secretId secret, db.secrets.get? secretId = some secret →
    secret.type ≠ .repoPassword → after.secrets.get? secretId = some secret
  targets : ∀ targetId target, after.targets.get? targetId = some target →
    target.backendType ≠ "local" ∧ ∀ name ∈ repoKeys, lookupLast name target.config = none

section Both

variable {platform : Platform} {db split after : MigratingDb} {jobSecret restoreSecret : Uuid → Uuid}
  {repositoryId : Uuid → Uuid}

theorem repositoryFor_extracted (tables : SplitTables db split jobSecret restoreSecret)
    (extracted : Extracted split after repositoryId) (id : Uuid) :
    after.repositoryFor id = (db.backupJobs.get? id).map fun job =>
      (repositoryId id, ownRepository (db.splitJob (jobSecret id) job)) := by
  unfold MigratingDb.repositoryFor
  rw [extracted.job, tables.job]
  cases here : db.backupJobs.get? id with
  | none => rfl
  | some job =>
      have own := extracted.repository id (db.splitJob (jobSecret id) job)
        (by rw [tables.job, here]; rfl)
      change ((after.repositories.get? (repositoryId id)).bind fun repository =>
        some (repositoryId id, repository)) = _
      rw [own]
      rfl

theorem restoreRef_extracted (tables : SplitTables db split jobSecret restoreSecret)
    (extracted : Extracted split after repositoryId) (id : Uuid) :
    after.restoreRef id = (db.restoreRuns.get? id).map fun run =>
      { targetId := if db.onLocal run.targetId then none else run.targetId
        repoConfig := db.repoConfigOf run.targetId
        repoPasswordSecretId := restoreSecret id
        credentialSecretId := none } := by
  unfold MigratingDb.restoreRef
  rw [extracted.rest.2.2.1, tables.restore]
  cases db.restoreRuns.get? id <;> rfl

/-- Repositories are those of the jobs. -/
theorem repository_extracted (tables : SplitTables db split jobSecret restoreSecret)
    (extracted : Extracted split after repositoryId) {id : Uuid} {repository : Repository}
    (present : after.repositories.get? id = some repository) :
    ∃ user job, db.backupJobs.get? user = some job ∧ id = repositoryId user ∧
      repository = ownRepository (db.splitJob (jobSecret user) job) := by
  obtain ⟨user, job, here, rfl⟩ := extracted.new id repository present
  rw [tables.job] at here
  obtain ⟨before, found, rfl⟩ := Option.map_eq_some_iff.mp here
  refine ⟨user, before, found, rfl, ?_⟩
  have own := extracted.repository user (db.splitJob (jobSecret user) before)
    (by rw [tables.job, found]; rfl)
  exact Option.some.inj (present.symm.trans own)

/-- The connections that resolving finds. -/
theorem connection_extracted (tables : SplitTables db split jobSecret restoreSecret)
    (extracted : Extracted split after repositoryId) {targetId : Uuid} {target : FlatTarget}
    (here : db.targets.get? targetId = some target) (remote : target.backendType ≠ "local") :
    after.db.targets.get? targetId =
      some { target.toTarget with config := connectionConfig target.config } := by
  change (after.targets.mapRows FlatTarget.toTarget).get? targetId = _
  rw [get?_mapRows, extracted.rest.2.1, tables.target, here]
  simp [remote]

/-- **Repositories migrated.** Migrations 009 and 010 run through, and every job and every restore
resolves to what its target named. Each job has a repository of its own, each password has one
user, and no other password is left. -/
theorem repositories_migrated (sound : db.Sound platform) :
    ∃ after, (splitTargets db).bind extractRepositories = some after ∧
      Migrated platform db after := by
  obtain ⟨split, jobSecret, restoreSecret, ran, tables⟩ := splitTargets_spec sound
  have passwords : ∀ id job, split.backupJobs.get? id = some job →
      job.repoPasswordSecretId.isSome = true := by
    intro id job here
    rw [tables.job] at here
    obtain ⟨before, -, rfl⟩ := Option.map_eq_some_iff.mp here
    rfl
  obtain ⟨after, repositoryId, extraction, extracted⟩ := extractRepositories_spec passwords
  have secrets : after.db.secrets = split.secrets := extracted.rest.1
  refine ⟨after, by rw [ran, Option.bind_some, extraction], ?_⟩
  have repositoryFor := repositoryFor_extracted tables extracted
  have restoreRef := restoreRef_extracted tables extracted
  have resolved : ∀ targetId target secretId, db.targets.get? targetId = some target →
      split.secrets.get? secretId = copyPassword db.secrets target.passwordSecretId →
        resolveRepo platform after.db
          { targetId := if db.onLocal (some targetId) then none else some targetId
            repoConfig := db.repoConfigOf (some targetId)
            repoPasswordSecretId := secretId
            credentialSecretId := none } = flatResolve platform db targetId := by
    intro targetId target secretId here copy
    refine resolveRepo_split sound here ?_ ?_ (connection_extracted tables extracted here)
    · rw [secrets]
      exact copy
    · intro id secret present other
      rw [secrets]
      exact tables.others id secret present other
  constructor
  case jobs =>
    intro id job here
    obtain ⟨target, found⟩ := Option.isSome_iff_exists.mp (sound.jobs id job here)
    obtain ⟨targetId, onTarget, target?⟩ := target?_eq_some found
    have copy := tables.jobPassword id job target here found
    refine ⟨targetId, repositoryId id, _, onTarget, by rw [repositoryFor, here]; rfl, rfl, ?_⟩
    have same := resolved targetId target (jobSecret id) target? copy
    rw [← onTarget] at same
    exact same
  case restores =>
    intro id run here
    obtain ⟨target, found⟩ := Option.isSome_iff_exists.mp (sound.restores id run here)
    obtain ⟨targetId, onTarget, target?⟩ := target?_eq_some found
    have copy := tables.restorePassword id run target here found
    refine ⟨targetId, _, onTarget, by rw [restoreRef, here]; rfl, ?_⟩
    have same := resolved targetId target (restoreSecret id) target? copy
    rw [← onTarget] at same
    exact same
  case noJobs =>
    intro id absent
    rw [extracted.job, tables.job, absent]
    rfl
  case noRestores =>
    intro id absent
    rw [extracted.rest.2.2.1, tables.restore, absent]
    rfl
  case ownRepository =>
    intro id other row repository repository' first second
    rw [repositoryFor] at first second
    obtain ⟨job, here, named⟩ := Option.map_eq_some_iff.mp first
    obtain ⟨job', there, named'⟩ := Option.map_eq_some_iff.mp second
    refine extracted.own id other (db.splitJob (jobSecret id) job)
      (db.splitJob (jobSecret other) job') (by rw [tables.job, here]; rfl)
      (by rw [tables.job, there]; rfl) ?_
    exact (Prod.mk.inj named).1.trans (Prod.mk.inj named').1.symm
  case noRepository =>
    intro row repository present
    obtain ⟨user, job, here, rfl, rfl⟩ := repository_extracted tables extracted present
    exact ⟨user, by rw [repositoryFor, here]; rfl⟩
  case jobPassword =>
    intro id other repository repository' present present' same
    obtain ⟨user, job, here, rfl, rfl⟩ := repository_extracted tables extracted present
    obtain ⟨user', job', there, rfl, rfl⟩ := repository_extracted tables extracted present'
    rw [tables.jobOwn user user' job job' here there same]
  case restorePassword =>
    intro id other ref ref' first second same
    rw [restoreRef] at first second
    obtain ⟨run, here, rfl⟩ := Option.map_eq_some_iff.mp first
    obtain ⟨run', there, rfl⟩ := Option.map_eq_some_iff.mp second
    exact tables.restoreOwn id other run run' here there same
  case apart =>
    intro id other repository ref present named same
    obtain ⟨user, job, here, rfl, rfl⟩ := repository_extracted tables extracted present
    rw [restoreRef] at named
    obtain ⟨run, there, rfl⟩ := Option.map_eq_some_iff.mp named
    exact tables.apart user other job run here there same
  case used =>
    intro secretId secret present password
    rw [extracted.rest.1] at present
    rcases tables.leftover secretId secret present password with
      ⟨user, job, here, rfl⟩ | ⟨user, run, here, rfl⟩
    · exact .inl ⟨repositoryId user, _, extracted.repository user (db.splitJob (jobSecret user) job)
        (by rw [tables.job, here]; rfl), rfl⟩
    · exact .inr ⟨user, _, by rw [restoreRef, here]; rfl, rfl⟩
  case secrets =>
    intro secretId secret present other
    rw [extracted.rest.1]
    exact tables.others secretId secret present other
  case targets =>
    intro targetId target present
    rw [extracted.rest.2.1, tables.target] at present
    obtain ⟨before, kept, rfl⟩ := Option.map_eq_some_iff.mp present
    obtain ⟨-, remote⟩ := Option.filter_eq_some_iff.mp kept
    refine ⟨of_decide_eq_true remote, ?_⟩
    intro name own
    change lookupLast name (connectionConfig before.config) = none
    unfold connectionConfig
    rw [lookupLast_filter fun name => !repoKeys.contains name]
    exact if_neg (by simpa using own)

end Both

/-- An SFTP target with one job and one restore. -/
def flatDb : MigratingDb where
  secrets := Table.empty.insert 0 ⟨.repoPassword, "ciphertext", "nonce"⟩
  targets := Table.empty.insert 1
    { name := "NAS"
      backendType := "sftp"
      config := [("host", .text "nas"), ("user", .text "backup"), ("path", .text "/photos")]
      credentialSecretId := none
      passwordSecretId := some 0 }
  backupJobs := Table.empty.insert 2 { name := "Photos", targetId := some 1 }
  restoreRuns := Table.empty.insert 3 { targetId := some 1 }

/-- Ciphertexts that carry no associated data. -/
def unboundPlatform : Platform where
  decrypt ciphertext _ aad := if aad = none then some ciphertext else none
  parseCredentials _ := none
  readFigures _ := .error "unreachable"
  publicBaseUrl := ""

theorem flatDb_sound : flatDb.Sound unboundPlatform := by
  have first : ∀ {σ : Type} {key id : Uuid} {row value : σ},
      ((Table.empty : Table Uuid σ).insert key value).get? id = some row → id = key ∧ row = value := by
    intro σ key id row value present
    rcases insert_cases get?_empty present with found | ⟨-, absent⟩
    · exact found
    · cases absent
  constructor
  case jobs =>
    intro id job present
    obtain ⟨rfl, rfl⟩ := first present
    rfl
  case restores =>
    intro id run present
    obtain ⟨rfl, rfl⟩ := first present
    rfl
  case passwords =>
    intro targetId target present
    obtain ⟨rfl, rfl⟩ := first present
    rfl
  case unbound =>
    intro targetId target secretId secret _ _ _ id
    change (if some (aadFor id) = none then some secret.ciphertext else none) = none
    exact if_neg (Option.some_ne_none _)
  case credentials =>
    intro targetId target secretId present stored
    obtain ⟨rfl, rfl⟩ := first present
    cases stored
  case locals =>
    intro targetId target present _
    obtain ⟨rfl, rfl⟩ := first present
    rfl

theorem repositories_migrated_flatDb :
    ∃ after, (splitTargets flatDb).bind extractRepositories = some after ∧
      Migrated unboundPlatform flatDb after :=
  repositories_migrated flatDb_sound

section Down

variable {db : MigratingDb}

/-- **Down up repositories.** Undoing migration 010 right after it gives back every job. -/
theorem down_up_repositories
    (passwords : ∀ id job, db.backupJobs.get? id = some job → job.repoPasswordSecretId.isSome = true)
    (unassigned : ∀ id job, db.backupJobs.get? id = some job → job.repositoryId = none)
    (noRepositories : db.repositories = .empty) :
    ∃ backupJobs, (extractRepositories db).bind embedRepositories = some { db with backupJobs } ∧
      ∀ id, backupJobs.get? id = db.backupJobs.get? id := by
  obtain ⟨after, repositoryId, extraction, extracted⟩ := extractRepositories_spec passwords
  have folded : ∀ id, (after.backupJobs.update (fun _ _ => true) (foldBack after.repositories)).get? id =
      (db.backupJobs.get? id).map (MigratingJob.setRepository (some (repositoryId id))) := by
    intro id
    rw [get?_update, extracted.job, Option.map_map]
    cases here : db.backupJobs.get? id with
    | none => rfl
    | some job =>
        have own := extracted.repository id job here
        obtain ⟨password, stored⟩ := Option.isSome_iff_exists.mp (passwords id job here)
        have found : (some (repositoryId id)).bind after.repositories.get? =
            some (ownRepository job) := own
        change some (foldBack after.repositories (job.setRepository (some (repositoryId id))).slim) =
          some (job.setRepository (some (repositoryId id)))
        unfold foldBack MigratingJob.slim MigratingJob.setRepository
        dsimp only
        rw [found]
        unfold ownRepository
        dsimp only
        rw [stored]
        rfl
  have unassignedAgain : ∀ id, ((after.backupJobs.update (fun _ _ => true)
      (foldBack after.repositories)).update (fun _ _ => true) fun job =>
        { job with repositoryId := none }).get? id = db.backupJobs.get? id := by
    intro id
    rw [get?_update, folded, Option.map_map]
    cases here : db.backupJobs.get? id with
    | none => rfl
    | some job =>
        have free := unassigned id job here
        change some { job with repositoryId := none } = some job
        rw [← free]
  refine ⟨_, ?_, unassignedAgain⟩
  rw [extraction, Option.bind_some]
  unfold embedRepositories
  rw [if_neg]
  · rw [noRepositories, extracted.rest.1, extracted.rest.2.1, extracted.rest.2.2.1,
      extracted.rest.2.2.2]
  · rw [Bool.not_eq_true, anyWhere_eq_false]
    intro id job present
    rw [folded] at present
    obtain ⟨before, here, rfl⟩ := Option.map_eq_some_iff.mp present
    obtain ⟨password, stored⟩ := Option.isSome_iff_exists.mp (passwords id before here)
    change before.repoPasswordSecretId.isNone = false
    rw [stored]
    rfl

end Down

/-- A job as migration 009 leaves it. -/
def splitDb : MigratingDb where
  secrets := Table.empty.insert 0 ⟨.repoPassword, "ciphertext", "nonce"⟩
  targets := .empty
  backupJobs := Table.empty.insert 2
    { name := "Photos"
      targetId := none
      repoConfig := [("path", .text "/photos")]
      repoPasswordSecretId := some 0 }
  restoreRuns := .empty

theorem down_up_repositories_splitDb :
    ∃ backupJobs, (extractRepositories splitDb).bind embedRepositories =
        some { splitDb with backupJobs } ∧
      ∀ id, backupJobs.get? id = splitDb.backupJobs.get? id := by
  refine down_up_repositories ?_ ?_ rfl <;>
    · intro id job present
      rcases insert_cases get?_empty present with ⟨-, rfl⟩ | ⟨-, absent⟩
      · rfl
      · cases absent

end AmberBackup
