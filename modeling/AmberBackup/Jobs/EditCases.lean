import AmberBackup.Jobs.CheckCalls

/-! # What the calls on jobs come to

Each call is taken apart once: it is refused and leaves the world as it was, or the access
it asserts was there and it writes what is said here. An edit that fails late keeps the
secrets it had written by then (`updateJob_run`).
-/

namespace AmberBackup

open Relational

section Prefixes

variable {α : Type}

theorem getRow_cases (world : World) (job : Uuid)
    (next : BackupJob × Repository → Service α) :
    (∃ failure, (getRow job >>= next).run world = (.error failure, world)) ∨
      ∃ row repository, joined (world.db.backupJobs.get? job) (fun row =>
          world.db.repositories.get? row.repositoryId) = some (row, repository) ∧
        (getRow job >>= next).run world = (next (row, repository)).run world := by
  rcases Procedure.run_bind_lift _ next world with ⟨failure, _, ran⟩ | ⟨found, here, ran⟩
  · exact Or.inl ⟨failure, ran⟩
  · refine Or.inr ⟨found.1, found.2, ?_, ran⟩
    split at here
    case h_1 => cases here
    case h_2 row present =>
      cases here
      exact present

theorem require_cases (world : World) (holds : Bool) (failure : Failure)
    (next : Unit → Service α) :
    (require holds failure >>= next).run world = (.error failure, world) ∨
      holds = true ∧ (require holds failure >>= next).run world = (next ()).run world := by
  cases holds with
  | false => exact Or.inl rfl
  | true => exact Or.inr ⟨rfl, rfl⟩

/-- What follows an access check runs in the world as it was, with the access at hand. -/
theorem assertAcl_cases (world : World) (user : RequestUser) (type : ResourceType) (id : Uuid)
    (level : AccessLevel) (next : Unit → Service α) :
    (∃ failure, (assertAcl user type id level >>= next).run world = (.error failure, world)) ∨
      can world.db user type id level = true ∧
        (assertAcl user type id level >>= next).run world = (next ()).run world := by
  rcases Procedure.run_bind_lift _ next world with ⟨failure, _, ran⟩ | ⟨_, granted, ran⟩
  · exact Or.inl ⟨failure, ran⟩
  · refine Or.inr ⟨?_, ran⟩
    unfold assertAccess at granted
    split at granted
    case isTrue allowed => exact allowed
    case isFalse denied => cases granted

end Prefixes

/-- A start inserts the planned check of an idle job, for a requester that operates it, or
it is refused. -/
theorem start_cases (world : World) (requester : Option RequestUser) (job : Uuid)
    (trigger : RunTrigger) (level : Option IntegrityLevel) :
    (∃ failure, (CheckRunner.start requester job trigger level).run world =
        (.error failure, world)) ∨
      ∃ row repository, (∀ user ∈ requester, can world.db user .job job .operate = true) ∧
        joined (world.db.backupJobs.get? job) (fun row =>
          world.db.repositories.get? row.repositoryId) = some (row, repository) ∧
        world.db.jobRuns.anyWhere (activeRun job) = false ∧
        (CheckRunner.start requester job trigger level).run world =
          (insertRun (checkRow job trigger (row.location = .«local»)
            (planCheck row repository level) world.now)).run world := by
  have afterAccess : (∃ failure, (CheckRunner.start requester job trigger level).run world =
        (.error failure, world)) ∨
      (∀ user ∈ requester, can world.db user .job job .operate = true) ∧
        (CheckRunner.start requester job trigger level).run world =
          (getRow job >>= fun found => do
            CheckRunner.assertAgentCanCheck found.1
            CheckRunner.assertIdle job
            CheckRunner.insertCheck job trigger found.1
              (planCheck found.1 found.2 level)).run world := by
    cases requester with
    | none => exact Or.inr ⟨fun _ listed => (Option.not_mem_none _ listed).elim, rfl⟩
    | some user =>
        rcases Procedure.run_bind_lift _ (fun _ => getRow job >>= fun found => do
            CheckRunner.assertAgentCanCheck found.1
            CheckRunner.assertIdle job
            CheckRunner.insertCheck job trigger found.1
              (planCheck found.1 found.2 level)) world with
          ⟨failure, _, ran⟩ | ⟨_, granted, ran⟩
        · exact Or.inl ⟨failure, ran⟩
        · refine Or.inr ⟨?_, ran⟩
          rintro _ ⟨⟩
          split at granted
          case isTrue allowed => exact allowed
          case isFalse => cases granted
  rcases afterAccess with refused | ⟨operates, ran⟩
  · exact Or.inl refused
  rw [ran]
  rcases getRow_cases world job _ with ⟨failure, refused⟩ | ⟨row, repository, found, ran⟩
  · exact Or.inl ⟨failure, refused⟩
  rw [ran]
  rcases Procedure.run_bind_lift _ (fun _ => do
      CheckRunner.assertIdle job
      CheckRunner.insertCheck job trigger row (planCheck row repository level)) world with
    ⟨failure, _, refused⟩ | ⟨_, _, ran⟩
  · exact Or.inl ⟨failure, refused⟩
  rcases Procedure.run_bind_lift _ (fun _ =>
      CheckRunner.insertCheck job trigger row (planCheck row repository level)) world with
    ⟨failure, _, refused⟩ | ⟨_, idle, after⟩
  · exact Or.inl ⟨failure, ran.trans refused⟩
  · refine Or.inr ⟨row, repository, operates, found, ?_, ran.trans after⟩
    cases busy : world.db.jobRuns.anyWhere (activeRun job) with
    | false => rfl
    | true =>
        rw [busy, if_pos rfl] at idle
        cases idle

/-- A cancel force-cancels a run that has not finished, of a job the user operates, or it
writes nothing. -/
theorem cancelRun_cases (world : World) (user : RequestUser) (run : Uuid) :
    ((cancelRun user run).run world).2 = world ∨
      ∃ row error, world.db.jobRuns.get? run = some row ∧
        can world.db user .job row.jobId .operate = true ∧
        ((cancelRun user run).run world).2 = { world with
          db := world.db.updateRuns world.now (.forceCancel run error) } := by
  unfold cancelRun
  rw [Procedure.run_bind_read]
  cases present : world.db.jobRuns.get? run with
  | none => exact Or.inl rfl
  | some row =>
      dsimp only
      rcases assertAcl_cases world user .job row.jobId .view _ with
        ⟨failure, refused⟩ | ⟨_, ran⟩
      · exact Or.inl (congrArg Prod.snd refused)
      rw [ran]
      rcases assertAcl_cases world user .job row.jobId .operate _ with
        ⟨failure, refused⟩ | ⟨operates, ran⟩
      · exact Or.inl (congrArg Prod.snd refused)
      rw [ran]
      rcases require_cases world row.status.active _ _ with refused | ⟨_, ran⟩
      · exact Or.inl (congrArg Prod.snd refused)
      · rw [ran]
        exact Or.inr ⟨row, _, rfl, operates, rfl⟩

/-! ## Edits -/

/-- The edit moves the repository to another connection. -/
def UpdateJobDto.movesConnection (dto : UpdateJobDto) (repository : Repository) : Bool :=
  dto.targetId.any fun target => target ≠ repository.targetId

/-- At most the secrets, and what restores refer to of them, differ. -/
def OnlySecrets (before after : World) : Prop :=
  ∃ secrets restoreRuns, after = { before with db := { before.db with secrets, restoreRuns } } ∧
    ∀ id, (restoreRuns.get? id).map RestoreRun.targetId =
      (before.db.restoreRuns.get? id).map RestoreRun.targetId

instance : Std.Refl OnlySecrets :=
  ⟨fun world => ⟨world.db.secrets, world.db.restoreRuns, rfl, fun _ => rfl⟩⟩

instance : IsTrans World OnlySecrets := ⟨by
  rintro first _ _ ⟨secrets, restoreRuns, rfl, kept⟩ ⟨others, changed, rfl, keeps⟩
  exact ⟨others, changed, rfl, fun id => (keeps id).trans (kept id)⟩⟩

section Edits

variable (editing : Editing) (user : RequestUser)

theorem assertAcl_within {relation : World → World → Prop} [Std.Refl relation]
    (type : ResourceType) (id : Uuid) (level : AccessLevel) :
    (assertAcl user type id level).Within relation :=
  Procedure.Within.lift _

theorem require_within {relation : World → World → Prop} [Std.Refl relation]
    (holds : Bool) (failure : Failure) : (require holds failure).Within relation := by
  unfold require
  split
  · exact Procedure.Within.pure ()
  · exact Procedure.Within.raise failure

theorem assertRepoAllowed_within {relation : World → World → Prop} [Std.Refl relation]
    (location : SourceLocation) (targetId : Option Uuid) :
    (assertRepoAllowed location targetId).Within relation :=
  require_within _ _

theorem validateEditedCron_within {relation : World → World → Prop} [Std.Refl relation]
    (expr : Option String) : (validateEditedCron editing expr).Within relation := by
  cases expr with
  | none => exact Procedure.Within.pure ()
  | some expr =>
      change Procedure.Within relation (if expr = "" then _ else _)
      split
      · exact Procedure.Within.pure ()
      · exact require_within _ _

theorem resolveBackendType_within {relation : World → World → Prop} [Std.Refl relation]
    [IsTrans World relation] (targetId : Option Uuid) :
    (resolveBackendType user targetId).Within relation := by
  cases targetId with
  | none => exact Procedure.Within.pure "local"
  | some target =>
      unfold resolveBackendType
      refine Procedure.Within.bind (assertAcl_within user _ _ _) fun _ => ?_
      exact Procedure.Within.lift _

theorem movedPlace_within {relation : World → World → Prop} [Std.Refl relation]
    [IsTrans World relation] (dto : UpdateJobDto) (repository : Repository) :
    (movedPlace user dto repository).Within relation := by
  unfold movedPlace
  split
  · refine Procedure.Within.bind (resolveBackendType_within user _) fun backendType => ?_
    refine Procedure.Within.bind (Procedure.Within.lift _) fun config => ?_
    exact Procedure.Within.pure _
  · exact Procedure.Within.pure none

theorem referencesAgent_within {relation : World → World → Prop} [Std.Refl relation]
    (job : JobPatch) : (referencesAgent job).Within relation :=
  Procedure.Within.lift _

theorem Secrets.create_within (type : SecretType) (plaintext : String) :
    (Secrets.create editing type plaintext).Within OnlySecrets := fun world =>
  ⟨world.db.secrets.insert (freshId world.db.secrets)
    (Secrets.encrypted editing type (freshId world.db.secrets) plaintext),
    world.db.restoreRuns, rfl, fun _ => rfl⟩

theorem Secrets.update_within (id : Uuid) (plaintext : String) :
    (Secrets.update editing id plaintext).Within OnlySecrets :=
  fun _ => ⟨_, _, rfl, fun _ => rfl⟩

/-- A secret that nothing refers to is deleted. -/
theorem Secrets.remove_cases (world : World) (secret : Uuid) :
    Secrets.referenced world.db secret = true ∧
        (∃ failure, (Secrets.remove secret).run world = (.error failure, world)) ∨
      Secrets.referenced world.db secret = false ∧
        (Secrets.remove secret).run world = (.ok (), { world with
          db := { world.db with
            secrets := world.db.secrets.delete fun other _ => other = secret
            restoreRuns := world.db.restoreRuns.update
              (fun _ run => run.credentialSecretId = some secret)
              fun run => { run with credentialSecretId := none } } }) := by
  unfold Secrets.remove
  dsimp only
  cases Secrets.referenced world.db secret with
  | true => exact .inl ⟨rfl, _, rfl⟩
  | false => exact .inr ⟨rfl, rfl⟩

theorem Secrets.removeOptional_within (id : Option Uuid) :
    (Secrets.removeOptional id).Within OnlySecrets := by
  cases id with
  | none => exact Procedure.Within.pure ()
  | some secret =>
      intro world
      unfold Secrets.removeOptional Secrets.remove
      dsimp only
      split
      · exact Std.Refl.refl world
      · refine ⟨_, _, rfl, fun restore => ?_⟩
        rw [Table.get?_update, Option.map_map]
        congr 1
        funext run
        dsimp only [Function.comp_apply]
        split <;> rfl

theorem updatePassword_within (secret : Uuid) (password : Option String) :
    (updatePassword editing secret password).Within OnlySecrets := by
  cases password with
  | none => exact Procedure.Within.pure ()
  | some password => exact Secrets.update_within editing secret password

theorem editOverride_within (dto : UpdateJobDto) (repository : Repository) :
    (editOverride editing user dto repository).Within OnlySecrets := by
  unfold editOverride
  cases dto.repoCredentials with
  | none =>
      change Procedure.Within _ (if _ then _ else _)
      split <;> exact Procedure.Within.pure _
  | some values =>
      cases values with
      | none => exact Procedure.Within.pure _
      | some values =>
          refine Procedure.Within.bind (resolveBackendType_within user _) fun backendType => ?_
          refine Procedure.Within.bind (Procedure.Within.lift _) fun overrides => ?_
          split
          · refine Procedure.Within.bind (Procedure.Within.lift _) fun current => ?_
            refine Procedure.Within.bind (Secrets.update_within editing _ _) fun _ => ?_
            exact Procedure.Within.pure _
          · split
            · refine Procedure.Within.bind (Secrets.create_within editing _ _) fun _ => ?_
              exact Procedure.Within.pure _
            · split <;> exact Procedure.Within.pure _

/-- An accepted edit of a job its user manages writes the password, then the credentials,
then the job and its repository; it may fail before each of these. -/
theorem updateJob_run (world : World) (id : Uuid) (dto : UpdateJobDto) :
    ((updateJob editing user id dto).run world).2 = world ∨
      ∃ row repository, can world.db user .job id .manage = true ∧
        joined (world.db.backupJobs.get? id) (fun row =>
          world.db.repositories.get? row.repositoryId) = some (row, repository) ∧
        (((updateJob editing user id dto).run world).2 =
            ((updatePassword editing repository.repoPasswordSecretId dto.repoPassword).run
              world).2 ∨
          ((updateJob editing user id dto).run world).2 =
            ((editOverride editing user dto repository).run
              ((updatePassword editing repository.repoPasswordSecretId dto.repoPassword).run
                world).2).2 ∨
          ∃ place edit,
            ((movedPlace user dto repository).run world).1 = .ok place ∧
            ((editOverride editing user dto repository).run
              ((updatePassword editing repository.repoPasswordSecretId dto.repoPassword).run
                world).2).1 = .ok edit ∧
            ((updateJob editing user id dto).run world).2 =
              ((Secrets.removeOptional edit.orphaned).run
                ((writeJob id row.repositoryId
                  { name := dto.job.name, place, credentialSecretId := edit.column }
                  dto.job).run
                  ((editOverride editing user dto repository).run
                    ((updatePassword editing repository.repoPasswordSecretId
                      dto.repoPassword).run world).2).2).2).2) := by
  unfold updateJob
  rcases assertAcl_cases world user .job id .manage _ with ⟨failure, refused⟩ | ⟨manages, ran⟩
  · exact Or.inl (congrArg Prod.snd refused)
  rw [ran]
  rcases Procedure.run_bind_quiet (require_within _ _) _ world with same | ⟨_, _, ran⟩
  · exact Or.inl same
  rw [ran]
  rcases Procedure.run_bind_quiet (validateEditedCron_within editing _) _ world with
    same | ⟨_, _, ran⟩
  · exact Or.inl same
  rw [ran]
  rcases getRow_cases world id _ with ⟨failure, refused⟩ | ⟨row, repository, found, ran⟩
  · exact Or.inl (congrArg Prod.snd refused)
  rw [ran]
  dsimp only
  rcases Procedure.run_bind_quiet (assertRepoAllowed_within _ _) _ world with
    same | ⟨_, _, ran⟩
  · exact Or.inl same
  rw [ran]
  rcases Procedure.run_bind_quiet (movedPlace_within user dto repository) _ world with
    same | ⟨place, moved, ran⟩
  · exact Or.inl same
  rw [ran]
  refine Or.inr ⟨row, repository, manages, found, ?_⟩
  rcases Procedure.run_bind_state (updatePassword editing repository.repoPasswordSecretId
    dto.repoPassword) _ world with same | ⟨_, _, ran⟩
  · exact Or.inl same
  rw [ran]
  rcases Procedure.run_bind_state (editOverride editing user dto repository) _ _ with
    same | ⟨edit, edited, ran⟩
  · exact Or.inr (Or.inl same)
  rw [ran]
  rcases Procedure.run_bind_quiet (referencesAgent_within dto.job) _ _ with same | ⟨_, _, ran⟩
  · exact Or.inr (Or.inl same)
  rw [ran]
  exact Or.inr (Or.inr ⟨place, edit, moved, edited, rfl⟩)

/-- An accepted edit writes its job and the job's repository, with the place it moves the
repository to; apart from that it touches secrets alone. -/
theorem updateJob_cases (world : World) (id : Uuid) (dto : UpdateJobDto) :
    OnlySecrets world ((updateJob editing user id dto).run world).2 ∨
      ∃ row repository place column middle,
        joined (world.db.backupJobs.get? id) (fun row =>
          world.db.repositories.get? row.repositoryId) = some (row, repository) ∧
        ((movedPlace user dto repository).run world).1 = .ok place ∧
        OnlySecrets world middle ∧
        OnlySecrets ((writeJob id row.repositoryId
            { name := dto.job.name, place, credentialSecretId := column } dto.job).run middle).2
          ((updateJob editing user id dto).run world).2 := by
  rcases updateJob_run editing user world id dto with
    same | ⟨row, repository, _, found, same | same | ⟨place, edit, moved, _, ran⟩⟩
  · rw [same]
    exact Or.inl (Std.Refl.refl world)
  all_goals
    have password := updatePassword_within editing repository.repoPasswordSecretId
      dto.repoPassword world
    have override := editOverride_within editing user dto repository
      ((updatePassword editing repository.repoPasswordSecretId dto.repoPassword).run world).2
  · rw [same]
    exact Or.inl password
  · rw [same]
    exact Or.inl (IsTrans.trans _ _ _ password override)
  · rw [ran]
    exact Or.inr ⟨row, repository, place, edit.column, _, found, moved,
      IsTrans.trans _ _ _ password override, Secrets.removeOptional_within _ _⟩

/-- What an edit that returns has passed and written: its checks, what it makes of the password
and the override, the job and its repository, and the secret it removes at the end. -/
structure Edited (id : Uuid) (dto : UpdateJobDto) (world next : World) (row : BackupJob)
    (repository : Repository) (place : Option (Option Uuid × Config)) (edit : OverrideEdit)
    (middle : World) : Prop where
  manages : can world.db user .job id .manage = true
  host : (!dto.job.touchesHost || user.isAdmin) = true
  cron : (dto.job.cronExpr.all fun expr => expr = "" || editing.validCron expr) = true
  found : joined (world.db.backupJobs.get? id) (fun row =>
    world.db.repositories.get? row.repositoryId) = some (row, repository)
  allowed : repoAllowed (dto.job.location.getD row.location)
    (dto.targetId.getD repository.targetId) = true
  placed : ((movedPlace user dto repository).run world).1 = .ok place
  overridden : (editOverride editing user dto repository).run
    ((updatePassword editing repository.repoPasswordSecretId dto.repoPassword).run world).2 =
      (.ok edit, middle)
  agent : ∀ agent, dto.job.agentColumn = some (some agent) →
    (middle.db.agents.get? agent).isSome
  removed : (Secrets.removeOptional edit.orphaned).run
    ((writeJob id row.repositoryId
      { name := dto.job.name, place, credentialSecretId := edit.column } dto.job).run middle).2 =
      (.ok (), next)

section Returns

variable {editing user} {world next : World} {id : Uuid} {dto : UpdateJobDto}

/-- The connection an edit leaves a repository with. -/
theorem movedPlace_target {repository : Repository} {place : Option (Option Uuid × Config)}
    (returned : ((movedPlace user dto repository).run world).1 = .ok place) :
    (place.map Prod.fst).getD repository.targetId = dto.targetId.getD repository.targetId := by
  unfold movedPlace at returned
  split at returned
  case isFalse untouched =>
    cases returned
    simp only [Bool.or_eq_true, not_or, Bool.not_eq_true, Option.isSome_eq_false_iff,
      Option.isNone_iff_eq_none] at untouched
    rw [untouched.1]
    rfl
  case isTrue =>
    obtain ⟨backendType, -, after⟩ := Procedure.bind_returns_quiet
      (resolveBackendType_within user _) (Prod.ext returned rfl)
    obtain ⟨config, -, after⟩ := Procedure.bind_returns_quiet (Procedure.Within.lift _) after
    obtain rfl := Except.ok.inj (Prod.mk.inj after).1
    rfl

theorem RepoPatch.apply_targetId (patch : RepoPatch) (now : Nat) (repository : Repository) :
    (patch.apply now repository).targetId =
      (patch.place.map Prod.fst).getD repository.targetId := by
  unfold RepoPatch.apply
  split
  case isTrue empty =>
    rw [empty]
    rfl
  case isFalse => rfl

theorem require_returns {holds : Bool} {failure : Failure}
    (returned : ((require holds failure).run world).1 = .ok ()) : holds = true := by
  cases holds with
  | true => rfl
  | false => cases returned

theorem validateEditedCron_returns {expr : Option String}
    (returned : ((validateEditedCron editing expr).run world).1 = .ok ()) :
    (expr.all fun expr => expr = "" || editing.validCron expr) = true := by
  cases expr with
  | none => rfl
  | some expr =>
      rw [Option.all_some, Bool.or_eq_true, decide_eq_true_eq]
      by_cases empty : expr = ""
      · exact .inl empty
      · change ((if expr = "" then pure () else validateCron editing expr : Service Unit).run
          world).1 = .ok () at returned
        rw [if_neg empty] at returned
        exact .inr (require_returns returned)

theorem updateJob_returns
    (returned : (updateJob editing user id dto).run world = (.ok (), next)) :
    ∃ row repository place edit middle,
      Edited editing user id dto world next row repository place edit middle := by
  unfold updateJob at returned
  rcases assertAcl_cases world user .job id .manage _ with ⟨failure, refused⟩ | ⟨manages, ran⟩
  · rw [refused] at returned
    cases returned
  rw [ran] at returned
  obtain ⟨_, host, returned⟩ := Procedure.bind_returns_quiet (require_within _ _) returned
  obtain ⟨_, cron, returned⟩ :=
    Procedure.bind_returns_quiet (validateEditedCron_within editing _) returned
  rcases getRow_cases world id _ with ⟨failure, refused⟩ | ⟨row, repository, found, ran⟩
  · rw [refused] at returned
    cases returned
  rw [ran] at returned
  dsimp only at returned
  obtain ⟨_, allowed, returned⟩ :=
    Procedure.bind_returns_quiet (assertRepoAllowed_within _ _) returned
  obtain ⟨place, placed, returned⟩ :=
    Procedure.bind_returns_quiet (movedPlace_within user dto repository) returned
  obtain ⟨_, first, stored, returned⟩ := Procedure.bind_returns.mp returned
  obtain ⟨edit, middle, edited, returned⟩ := Procedure.bind_returns.mp returned
  obtain ⟨_, referenced, returned⟩ :=
    Procedure.bind_returns_quiet (referencesAgent_within _) returned
  obtain ⟨_, written, wrote, removed⟩ := Procedure.bind_returns.mp returned
  refine ⟨row, repository, place, edit, middle, manages, require_returns host,
    validateEditedCron_returns cron, found, require_returns allowed, placed, ?_, ?_, ?_⟩
  · rw [stored]
    exact edited
  · intro agent column
    simp only [referencesAgent, column, Procedure.run_lift] at referenced
    split at referenced
    case isTrue present => exact present
    case isFalse => cases referenced
  · rw [wrote]
    exact removed

end Returns

namespace Edited

variable {editing user} {id : Uuid} {dto : UpdateJobDto} {world next middle : World}
  {row : BackupJob} {repository : Repository} {place : Option (Option Uuid × Config)}
  {edit : OverrideEdit}

/-- Up to the write of the rows, and after it, only secrets change. -/
theorem before (edited : Edited editing user id dto world next row repository place edit middle) :
    OnlySecrets world middle := by
  have password := updatePassword_within editing repository.repoPasswordSecretId
    dto.repoPassword world
  have override := editOverride_within editing user dto repository
    ((updatePassword editing repository.repoPasswordSecretId dto.repoPassword).run world).2
  rw [edited.overridden] at override
  exact IsTrans.trans _ _ _ password override

theorem after (edited : Edited editing user id dto world next row repository place edit middle) :
    OnlySecrets ((writeJob id row.repositoryId
      { name := dto.job.name, place, credentialSecretId := edit.column } dto.job).run middle).2
      next := by
  have orphaned := Secrets.removeOptional_within edit.orphaned
    ((writeJob id row.repositoryId
      { name := dto.job.name, place, credentialSecretId := edit.column } dto.job).run middle).2
  rw [edited.removed] at orphaned
  exact orphaned

end Edited

/-- What a creation that returns has passed and written. -/
structure Created (dto : CreateJobDto) (world next : World) (backendType : String)
    (config : Config) (overrides : Fields) (credential : Option Uuid) (middle : World)
    (job : Uuid) : Prop where
  admin : user.isAdmin = true
  cron : editing.validCron dto.cronExpr = true
  allowed : repoAllowed dto.location dto.targetId = true
  backend : ((resolveBackendType user dto.targetId).run world).1 = .ok backendType
  built : buildRepoConfig backendType (dto.repoConfig.getD []) = .ok config
  entered : buildCredentialOverride backendType (dto.repoCredentials.getD []) = .ok overrides
  agent : dto.location = .agent → ∃ agent, dto.agentId = some agent ∧
    (world.db.agents.get? agent).isSome
  stored : (createOverride editing overrides).run
    ((Secrets.create editing .repoPassword dto.repoPassword).run world).2 =
      (.ok credential, middle)
  inserted : (insertJob dto config (freshId world.db.secrets) credential).run middle =
    (.ok job, next)

section Creates

variable {editing user} {world next : World} {dto : CreateJobDto} {job : Uuid}

theorem assertAgent_within {relation : World → World → Prop} [Std.Refl relation]
    (location : SourceLocation) (agentId : Option Uuid) :
    (assertAgent location agentId).Within relation := by
  unfold assertAgent
  split
  · split
    · exact Procedure.Within.raise _
    · exact Procedure.Within.lift _
  · exact Procedure.Within.pure ()

theorem assertAgent_returns {location : SourceLocation} {agentId : Option Uuid}
    (returned : ((assertAgent location agentId).run world).1 = .ok ()) (onAgent : location = .agent) :
    ∃ agent, agentId = some agent ∧ (world.db.agents.get? agent).isSome := by
  unfold assertAgent at returned
  rw [if_pos onAgent] at returned
  cases agentId with
  | none => cases returned
  | some agent =>
      refine ⟨agent, rfl, ?_⟩
      simp only [Procedure.run_lift] at returned
      split at returned
      case isTrue present => exact present
      case isFalse => cases returned

theorem createJob_returns
    (returned : (createJob editing user dto).run world = (.ok job, next)) :
    ∃ backendType config overrides credential middle,
      Created editing user dto world next backendType config overrides credential middle job := by
  unfold createJob at returned
  obtain ⟨_, admin, returned⟩ := Procedure.bind_returns_quiet (require_within _ _) returned
  obtain ⟨_, cron, returned⟩ := Procedure.bind_returns_quiet (require_within _ _) returned
  obtain ⟨_, allowed, returned⟩ :=
    Procedure.bind_returns_quiet (assertRepoAllowed_within _ _) returned
  obtain ⟨backendType, backend, returned⟩ :=
    Procedure.bind_returns_quiet (resolveBackendType_within user _) returned
  obtain ⟨config, built, returned⟩ :=
    Procedure.bind_returns_quiet (Procedure.Within.lift _) returned
  obtain ⟨overrides, entered, returned⟩ :=
    Procedure.bind_returns_quiet (Procedure.Within.lift _) returned
  obtain ⟨_, agent, returned⟩ := Procedure.bind_returns_quiet (assertAgent_within _ _) returned
  obtain ⟨password, first, stored, returned⟩ := Procedure.bind_returns.mp returned
  obtain ⟨credential, middle, created, inserted⟩ := Procedure.bind_returns.mp returned
  obtain ⟨same, rfl⟩ := Prod.mk.inj stored
  obtain rfl := Except.ok.inj same
  exact ⟨backendType, config, overrides, credential, middle, require_returns admin,
    require_returns cron, require_returns allowed, backend, built, entered,
    assertAgent_returns agent, created, inserted⟩

end Creates

/-- Up to the insertion of the rows, only secrets change. -/
theorem Created.before {dto : CreateJobDto} {world next middle : World} {backendType : String}
    {config : Config} {overrides : Fields} {credential : Option Uuid} {job : Uuid}
    (created : Created editing user dto world next backendType config overrides credential
      middle job) : OnlySecrets world middle := by
  have override : (createOverride editing overrides).Within OnlySecrets := by
    unfold createOverride
    split
    · exact Procedure.Within.pure _
    · exact Procedure.Within.bind (Secrets.create_within editing _ _) fun _ =>
        Procedure.Within.pure _
  have entered := override ((Secrets.create editing .repoPassword dto.repoPassword).run world).2
  rw [created.stored] at entered
  exact IsTrans.trans _ _ _ (Secrets.create_within editing .repoPassword dto.repoPassword world)
    entered

theorem validateSchedule_within {relation : World → World → Prop} [Std.Refl relation]
    (dto : IntegrityCheckConfigDto) : (validateSchedule editing dto).Within relation := by
  unfold validateSchedule
  split
  · split
    · exact Procedure.Within.raise _
    · exact Procedure.Within.raise _
    · exact require_within _ _
  · exact Procedure.Within.pure ()

/-- A schedule is written for a job its user manages, or nothing is. -/
theorem setIntegrityCheck_cases (world : World) (id : Uuid) (dto : IntegrityCheckConfigDto) :
    ((setIntegrityCheck editing user id dto).run world).2 = world ∨
      can world.db user .job id .manage = true ∧
        ((setIntegrityCheck editing user id dto).run world).2 =
          ((writeSchedule id dto.config).run world).2 := by
  unfold setIntegrityCheck
  rcases assertAcl_cases world user .job id .manage _ with ⟨failure, refused⟩ | ⟨manages, ran⟩
  · exact Or.inl (congrArg Prod.snd refused)
  rw [ran]
  rcases getRow_cases world id _ with ⟨failure, refused⟩ | ⟨row, repository, found, ran⟩
  · exact Or.inl (congrArg Prod.snd refused)
  rw [ran]
  rcases Procedure.run_bind_quiet (validateSchedule_within editing dto) _ world with
    same | ⟨_, _, ran⟩
  · exact Or.inl same
  rw [ran]
  exact Or.inr ⟨manages, rfl⟩

variable {editing user} in
/-- A schedule that is on, and is written, has an expression. -/
theorem setIntegrityCheck_returns {world next : World} {id : Uuid}
    {dto : IntegrityCheckConfigDto}
    (returned : (setIntegrityCheck editing user id dto).run world = (.ok (), next)) :
    (dto.enabled = true →
        (dto.cronExpr.any fun expr => expr ≠ "" && editing.validCron expr) = true) ∧
      next = ((writeSchedule id dto.config).run world).2 := by
  unfold setIntegrityCheck at returned
  rcases assertAcl_cases world user .job id .manage _ with ⟨failure, refused⟩ | ⟨-, ran⟩
  · rw [refused] at returned
    cases returned
  rw [ran] at returned
  rcases getRow_cases world id _ with ⟨failure, refused⟩ | ⟨row, repository, -, ran⟩
  · rw [refused] at returned
    cases returned
  rw [ran] at returned
  obtain ⟨_, valid, written⟩ :=
    Procedure.bind_returns_quiet (validateSchedule_within editing dto) returned
  refine ⟨?_, (Prod.mk.inj written).2.symm⟩
  intro on
  rw [validateSchedule, if_pos on] at valid
  split at valid
  case h_1 => cases valid
  case h_2 => cases valid
  case h_3 expr nonempty named =>
    have filled : expr ≠ "" := by simpa using nonempty
    rw [named, Option.any_some, Bool.and_eq_true, decide_eq_true_eq]
    exact ⟨filled, require_returns valid⟩

end Edits

/-- A vault that seals a text with the data it is bound to. -/
def vault : Editing where
  platform := {
    decrypt ciphertext nonce aad := if aad = some nonce then some ciphertext else none
    parseCredentials _ := none
    readFigures _ := .error "unreachable"
    publicBaseUrl := "" }
  encrypt plaintext aad := (plaintext, aad)
  renderCredentials _ := ""
  validCron _ := true

def admin : RequestUser where
  id := 1
  isAdmin := true

end AmberBackup
