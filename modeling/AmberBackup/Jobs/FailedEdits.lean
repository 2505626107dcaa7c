import AmberBackup.Jobs.EditStatements

/-! # Edits that throw

The secrets of a job are written in place before the override is checked and before the
transaction that writes the rows, and a replaced override is removed after it. An edit that
throws has changed nothing exactly if it is refused before its first write, or wherever it
throws later the writes before that have stored what was there (`updates_all_or_nothing`).
-/

namespace AmberBackup

open Relational Procedure

/-- What an edit writes: the jobs, the repositories and the secrets. -/
def World.stored (world : World) :
    Table Uuid BackupJob × Table Uuid Repository × Table Uuid Secret :=
  (world.db.backupJobs, world.db.repositories, world.db.secrets)

/-- The password of the edit is stored. -/
def renewed (editing : Editing) (dto : UpdateJobDto) (repository : Repository) (world : World) :
    World :=
  match dto.repoPassword with
  | none => world
  | some password =>
      ((Secrets.update editing repository.repoPasswordSecretId password).run world).2

namespace OverridePlan

/-- The columns the plan leaves to the transaction, and the secret it gives up. -/
def edit (repository : Repository) (world : World) : OverridePlan → OverrideEdit
  | .keep | .merge .. => {}
  | .drop => { column := some none, orphaned := repository.credentialSecretId }
  | .replace _ =>
      { column := some (some (freshId world.db.secrets))
        orphaned := repository.credentialSecretId }

/-- The secret of the plan is stored. -/
def written (editing : Editing) (world : World) : OverridePlan → World
  | .keep | .drop => world
  | .merge secret fields =>
      ((Secrets.update editing secret (editing.renderCredentials fields)).run world).2
  | .replace fields =>
      ((Secrets.create editing .backendCredential (editing.renderCredentials fields)).run world).2

end OverridePlan

/-- The agent the edit writes into the row exists. -/
def JobPatch.agentThere (patch : JobPatch) (db : Db) : Bool :=
  match patch.agentColumn with
  | some (some agent) => (db.agents.get? agent).isSome
  | some none | none => true

section Conditions

variable (editing : Editing) (faults : EditStatement → Option Failure)

/-- The transaction fails: on the foreign key of the agent, or for another reason. -/
def RowsRefused (dto : UpdateJobDto) (world : World) : Prop :=
  dto.job.agentThere world.db = false ∨ faults .rows ≠ none

/-- The override that is given up cannot be removed. -/
def RemovalRefused (edit : OverrideEdit) (world : World) : Prop :=
  ∃ secret, edit.orphaned = some secret ∧
    (faults .orphaned ≠ none ∨ Secrets.referenced world.db secret = true)

/-- The repository and the job are written. -/
def rewritten (id : Uuid) (dto : UpdateJobDto) (row : BackupJob)
    (place : Option (Option Uuid × Config)) (edit : OverrideEdit) (world : World) : World :=
  ((writeJob id row.repositoryId
    { name := dto.job.name, place, credentialSecretId := edit.column } dto.job).run world).2

/-- Wherever an edit with the plan throws, the writes up to there, from the world `renewed`
with the password, have stored what was there `before`. -/
structure PlanUndivided (id : Uuid) (dto : UpdateJobDto) (row : BackupJob)
    (repository : Repository) (place : Option (Option Uuid × Config)) (before renewed : World)
    (plan : OverridePlan) : Prop where
  unwritten : plan.writes = true → faults .override ≠ none → renewed.stored = before.stored
  rows : (plan.writes = true → faults .override = none) → RowsRefused faults dto renewed →
    (plan.written editing renewed).stored = before.stored
  removal : (plan.writes = true → faults .override = none) → ¬ RowsRefused faults dto renewed →
    RemovalRefused faults (plan.edit repository renewed)
      (rewritten id dto row place (plan.edit repository renewed) (plan.written editing renewed)) →
    (rewritten id dto row place (plan.edit repository renewed)
      (plan.written editing renewed)).stored = before.stored
  response : (plan.writes = true → faults .override = none) → ¬ RowsRefused faults dto renewed →
    ¬ RemovalRefused faults (plan.edit repository renewed)
      (rewritten id dto row place (plan.edit repository renewed) (plan.written editing renewed)) →
    faults .response ≠ none →
    ((Secrets.removeOptional (plan.edit repository renewed).orphaned).run
      (rewritten id dto row place (plan.edit repository renewed)
        (plan.written editing renewed))).2.stored = before.stored

/-- So for an edit that has passed its checks. -/
structure Undivided (user : RequestUser) (id : Uuid) (dto : UpdateJobDto) (row : BackupJob)
    (repository : Repository) (place : Option (Option Uuid × Config)) (world : World) : Prop where
  refused : ∀ failure, ((planOverride editing user faults dto repository).run
    (renewed editing dto repository world)).1 = .error failure →
      (renewed editing dto repository world).stored = world.stored
  planned : ∀ plan, ((planOverride editing user faults dto repository).run
    (renewed editing dto repository world)).1 = .ok plan →
      PlanUndivided editing faults id dto row repository place world
        (renewed editing dto repository world) plan

end Conditions

/-! ## Statements that only read -/

section Quiet

variable {editing : Editing} {user : RequestUser} {faults : EditStatement → Option Failure}
  {relation : World → World → Prop} [Std.Refl relation] [IsTrans World relation]

theorem resolveBackendTypeUnder_within (statement : EditStatement) (target : Option Uuid) :
    (resolveBackendTypeUnder user faults statement target).Within relation := by
  cases target with
  | none => exact Within.pure "local"
  | some target =>
      exact Within.bind (failing_within _ _) fun _ => resolveBackendType_within user _

theorem planOverride_within (dto : UpdateJobDto) (repository : Repository) :
    (planOverride editing user faults dto repository).Within relation := by
  unfold planOverride
  cases dto.repoCredentials with
  | none => exact Within.pure _
  | some values =>
      cases values with
      | none => exact Within.pure _
      | some values =>
          refine Within.bind (resolveBackendTypeUnder_within _ _) fun backendType => ?_
          refine Within.bind (Within.lift _) fun overrides => ?_
          split
          · refine Within.bind (failing_within _ _) fun _ => ?_
            refine Within.bind (Within.lift _) fun current => ?_
            exact Within.pure _
          · exact Within.pure _

omit [IsTrans World relation] in
theorem uniqueSlugs_within (name : Option String) : (uniqueSlugs faults name).Within relation := by
  cases name with
  | none => exact Within.pure ()
  | some name => exact failing_within _ _

theorem movedPlaceUnder_within (dto : UpdateJobDto) (repository : Repository) :
    (movedPlaceUnder user faults dto repository).Within relation := by
  unfold movedPlaceUnder
  split
  · refine Within.bind (resolveBackendTypeUnder_within _ _) fun backendType => ?_
    refine Within.bind (Within.lift _) fun config => ?_
    exact Within.pure _
  · exact Within.pure none

theorem checkEdit_within (id : Uuid) (dto : UpdateJobDto) :
    (checkEdit editing user faults id dto).Within relation := by
  unfold checkEdit
  refine Within.bind (failing_within _ _) fun _ => ?_
  refine Within.bind (assertAcl_within user _ _ _) fun _ => ?_
  refine Within.bind (require_within _ _) fun _ => ?_
  refine Within.bind (validateEditedCron_within editing _) fun _ => ?_
  refine Within.bind (failing_within _ _) fun _ => ?_
  refine Within.bind (Within.lift _) fun found => ?_
  refine Within.bind (assertRepoAllowed_within _ _) fun _ => ?_
  refine Within.bind (uniqueSlugs_within _) fun _ => ?_
  refine Within.bind (movedPlaceUnder_within _ _) fun place => ?_
  exact Within.pure _

end Quiet

/-! ## The writes -/

section Writes

variable {editing : Editing} {user : RequestUser} {faults : EditStatement → Option Failure}
  {world before : World} {dto : UpdateJobDto} {id : Uuid} {row : BackupJob}
  {repository : Repository} {place : Option (Option Uuid × Config)} {plan : OverridePlan}

abbrev Intact {α : Type} (before : World) (body : Service α) (world : World) : Prop :=
  body.RollsBack World.stored before.stored world

theorem intact_updatePassword {next : Unit → Service Unit}
    (passes : dto.repoPassword.isSome = true → faults .password = none) :
    Intact before (updatePasswordUnder editing faults repository.repoPasswordSecretId
        dto.repoPassword >>= next) world ↔
      Intact before (next ()) (renewed editing dto repository world) := by
  unfold renewed
  cases given : dto.repoPassword with
  | none => rfl
  | some password =>
      rw [updatePasswordUnder, bind_bind, Intact, rollsBack_bind_failing]
      have passed : faults .password = none := passes (by rw [given]; rfl)
      constructor
      · intro rolls
        exact rolls.2 passed
      · intro rolls
        exact ⟨fun fails => absurd passed fails, fun _ => rolls⟩

theorem intact_perform {next : OverrideEdit → Service Unit} :
    Intact before (plan.perform editing faults repository >>= next) world ↔
      (plan.writes = true → faults .override ≠ none → world.stored = before.stored) ∧
        ((plan.writes = true → faults .override = none) →
          Intact before (next (plan.edit repository world)) (plan.written editing world)) := by
  cases plan with
  | keep | drop =>
      constructor
      · intro rolls
        exact ⟨fun writes => absurd writes Bool.false_ne_true, fun _ => rolls⟩
      · intro rolls
        exact rolls.2 fun writes => absurd writes Bool.false_ne_true
  | merge | replace =>
      rw [OverridePlan.perform, bind_bind, Intact, rollsBack_bind_failing]
      constructor
      · intro rolls
        exact ⟨fun _ => rolls.1, fun passes => rolls.2 (passes rfl)⟩
      · intro rolls
        exact ⟨rolls.1 rfl, fun passes => rolls.2 fun _ => passes⟩

theorem referencesAgent_cases (job : JobPatch) (world : World) :
    job.agentThere world.db = true ∧ (referencesAgent job).run world = (.ok (), world) ∨
      job.agentThere world.db = false ∧
        ∃ failure, (referencesAgent job).run world = (.error failure, world) := by
  unfold referencesAgent JobPatch.agentThere
  rw [run_lift]
  cases job.agentColumn with
  | none => exact .inl ⟨rfl, rfl⟩
  | some column =>
      cases column with
      | none => exact .inl ⟨rfl, rfl⟩
      | some agent =>
          dsimp only
          cases (world.db.agents.get? agent).isSome with
          | true => exact .inl ⟨rfl, rfl⟩
          | false => exact .inr ⟨rfl, _, rfl⟩

theorem intact_referencesAgent {next : Unit → Service Unit} :
    Intact before (referencesAgent dto.job >>= next) world ↔
      (dto.job.agentThere world.db = false → world.stored = before.stored) ∧
        (dto.job.agentThere world.db = true → Intact before (next ()) world) := by
  rcases referencesAgent_cases dto.job world with ⟨there, ran⟩ | ⟨missing, failure, ran⟩
  · rw [Intact, rollsBack_bind_of_returns ran, there]
    simp
  · rw [Intact, rollsBack_bind_of_throws ran, missing]
    simp

theorem intact_rows {next : Unit → Service Unit} :
    Intact before (referencesAgent dto.job >>= fun _ => failing faults .rows >>= next) world ↔
      (RowsRefused faults dto world → world.stored = before.stored) ∧
        (¬ RowsRefused faults dto world → Intact before (next ()) world) := by
  rw [intact_referencesAgent, Intact, rollsBack_bind_failing]
  unfold RowsRefused
  cases dto.job.agentThere world.db with
  | false => simp
  | true => simp

theorem intact_removeOrphaned {edit : OverrideEdit} {next : Unit → Service Unit} :
    Intact before (removeOrphaned faults edit.orphaned >>= next) world ↔
      (RemovalRefused faults edit world → world.stored = before.stored) ∧
        (¬ RemovalRefused faults edit world →
          Intact before (next ()) ((Secrets.removeOptional edit.orphaned).run world).2) := by
  cases orphaned : edit.orphaned with
  | none =>
      have removable : ¬ RemovalRefused faults edit world := by
        rintro ⟨secret, named, -⟩
        rw [orphaned] at named
        cases named
      constructor
      · intro rolls
        exact ⟨fun refused => absurd refused removable, fun _ => rolls⟩
      · intro rolls
        exact rolls.2 removable
  | some secret =>
      have refused_iff : RemovalRefused faults edit world ↔
          faults .orphaned ≠ none ∨ Secrets.referenced world.db secret = true := by
        constructor
        · rintro ⟨other, named, why⟩
          rw [orphaned] at named
          exact Option.some.inj named ▸ why
        · intro why
          exact ⟨secret, orphaned, why⟩
      rw [removeOrphaned, bind_bind, Intact, rollsBack_bind_failing, refused_iff]
      rcases Secrets.remove_cases world secret with ⟨kept, failure, threw⟩ | ⟨free, ran⟩
      · rw [rollsBack_bind_of_throws threw, kept]
        cases faults .orphaned <;> simp
      · rw [rollsBack_bind_of_returns ran, free, Secrets.removeOptional, ran]
        cases faults .orphaned <;> simp

theorem intact_response {found : BackupJob × Repository}
    (stored : (getRow id).run world = (.ok found, world)) :
    Intact before (failing faults .response >>= fun _ => getRow id >>= fun _ => pure ()) world ↔
      (faults .response ≠ none → world.stored = before.stored) := by
  rw [Intact, rollsBack_bind_failing]
  exact and_iff_left fun _ => (rollsBack_bind_of_returns stored).mpr (rollsBack_pure ())

theorem renewed_within (editing : Editing) (dto : UpdateJobDto) (repository : Repository)
    (world : World) : OnlySecrets world (renewed editing dto repository world) := by
  unfold renewed
  cases dto.repoPassword with
  | none => exact Std.Refl.refl world
  | some password => exact Secrets.update_within editing _ _ world

theorem OverridePlan.written_within (editing : Editing) (world : World) (plan : OverridePlan) :
    OnlySecrets world (plan.written editing world) := by
  cases plan with
  | keep | drop => exact Std.Refl.refl world
  | merge secret fields => exact Secrets.update_within editing _ _ world
  | replace fields => exact Secrets.create_within editing _ _ world

/-- The rows, and what comes after them. -/
theorem intact_writeJob {edit : OverrideEdit} (prior : OnlySecrets before world)
    (found : joined (before.db.backupJobs.get? id) (fun row =>
      before.db.repositories.get? row.repositoryId) = some (row, repository)) :
    Intact before (writeJob id row.repositoryId
        { name := dto.job.name, place, credentialSecretId := edit.column } dto.job >>= fun _ =>
          removeOrphaned faults edit.orphaned >>= fun _ =>
            failing faults .response >>= fun _ => getRow id >>= fun _ => pure ()) world ↔
      (RemovalRefused faults edit (rewritten id dto row place edit world) →
          (rewritten id dto row place edit world).stored = before.stored) ∧
        (¬ RemovalRefused faults edit (rewritten id dto row place edit world) →
          faults .response ≠ none →
            ((Secrets.removeOptional edit.orphaned).run
              (rewritten id dto row place edit world)).2.stored = before.stored) := by
  have stored := getRow_written found
    { name := dto.job.name, place, credentialSecretId := edit.column } dto.job prior
    (Secrets.removeOptional_within edit.orphaned (rewritten id dto row place edit world))
  change Intact before (removeOrphaned faults edit.orphaned >>= _)
    (rewritten id dto row place edit world) ↔ _
  rw [intact_removeOrphaned, intact_response stored]

/-- The statements from the override on. -/
theorem intact_planned (prior : OnlySecrets before world)
    (found : joined (before.db.backupJobs.get? id) (fun row =>
      before.db.repositories.get? row.repositoryId) = some (row, repository)) :
    Intact before (plan.perform editing faults repository >>= fun edit =>
        referencesAgent dto.job >>= fun _ => failing faults .rows >>= fun _ =>
          writeJob id row.repositoryId
            { name := dto.job.name, place, credentialSecretId := edit.column } dto.job >>= fun _ =>
              removeOrphaned faults edit.orphaned >>= fun _ =>
                failing faults .response >>= fun _ => getRow id >>= fun _ => pure ()) world ↔
      PlanUndivided editing faults id dto row repository place before world plan := by
  have overridden := plan.written_within editing world
  have agents : RowsRefused faults dto (plan.written editing world) ↔
      RowsRefused faults dto world := by
    obtain ⟨secrets, restores, same, -⟩ := overridden
    rw [same]
    rfl
  rw [intact_perform, intact_rows, agents,
    intact_writeJob (IsTrans.trans _ _ _ prior overridden) found]
  constructor
  · rintro ⟨unwritten, following⟩
    exact ⟨unwritten, fun passes => (following passes).1,
      fun passes accepted => ((following passes).2 accepted).1,
      fun passes accepted => ((following passes).2 accepted).2⟩
  · intro undivided
    refine ⟨undivided.unwritten, fun passes => ⟨undivided.rows passes, fun accepted => ?_⟩⟩
    exact ⟨undivided.removal passes accepted, undivided.response passes accepted⟩

theorem intact_writeEdit
    (passes : dto.repoPassword.isSome = true → faults .password = none)
    (found : joined (world.db.backupJobs.get? id) (fun row =>
      world.db.repositories.get? row.repositoryId) = some (row, repository)) :
    Intact world (writeEdit editing user faults id dto row repository place) world ↔
      Undivided editing faults user id dto row repository place world := by
  rw [writeEdit, intact_updatePassword passes, Intact, rollsBack_bind_quiet
    (planOverride_within dto repository)]
  have password := renewed_within editing dto repository world
  constructor
  · rintro ⟨refused, planned⟩
    refine ⟨refused, ?_⟩
    intro plan returned
    exact (intact_planned password found).mp (planned plan returned)
  · rintro ⟨refused, planned⟩
    refine ⟨refused, ?_⟩
    intro plan returned
    exact (intact_planned password found).mpr (planned plan returned)

theorem checkEdit_returns
    (returned :
      ((checkEdit editing user faults id dto).run world).1 = .ok (row, repository, place)) :
    joined (world.db.backupJobs.get? id) (fun row =>
      world.db.repositories.get? row.repositoryId) = some (row, repository) := by
  have same : world = ((checkEdit editing user faults id dto).run world).2 :=
    checkEdit_within id dto world
  have ran : (checkEdit editing user faults id dto).run world =
      (.ok (row, repository, place), world) := Prod.ext returned same.symm
  unfold checkEdit at ran
  obtain ⟨_, -, ran⟩ := bind_returns_quiet (failing_within _ _) ran
  obtain ⟨_, -, ran⟩ := bind_returns_quiet (assertAcl_within user _ _ _) ran
  obtain ⟨_, -, ran⟩ := bind_returns_quiet (require_within _ _) ran
  obtain ⟨_, -, ran⟩ := bind_returns_quiet (validateEditedCron_within editing _) ran
  obtain ⟨_, -, ran⟩ := bind_returns_quiet (failing_within _ _) ran
  rcases getRow_cases world id _ with ⟨failure, refused⟩ | ⟨found, kept, here, next⟩
  · rw [refused] at ran
    cases ran
  rw [next] at ran
  obtain ⟨_, -, ran⟩ := bind_returns_quiet (assertRepoAllowed_within _ _) ran
  obtain ⟨_, -, ran⟩ := bind_returns_quiet (uniqueSlugs_within _) ran
  obtain ⟨moved, -, ran⟩ := bind_returns_quiet (movedPlaceUnder_within _ _) ran
  obtain ⟨rfl, rfl, -⟩ : found = row ∧ kept = repository ∧ moved = place := by
    simpa using (Prod.mk.inj ran).1
  exact here

/-- The statement that writes the password fails before anything is written. -/
theorem intact_of_password (given : dto.repoPassword.isSome = true)
    (fails : faults .password ≠ none) :
    Intact world (writeEdit editing user faults id dto row repository place) world := by
  obtain ⟨password, given⟩ := Option.isSome_iff_exists.mp given
  rw [writeEdit, given, updatePasswordUnder, bind_bind, Intact, rollsBack_bind_failing]
  exact ⟨fun _ => rfl, fun passes => absurd passes fails⟩

end Writes

/-- A job on the server, with its repository next to it. -/
def jobOnDisk : World where
  now := 0
  db := {
    secrets := .ofList [(0, ⟨.repoPassword, "old", aadFor 0⟩)]
    repositories := .ofList [(0, {
      name := "nightly", targetId := none, repoConfig := [], repoPasswordSecretId := 0 })]
    backupJobs := .ofList [(0, { name := "nightly", location := .«local», repositoryId := 0 })] }

end AmberBackup
