import AmberBackup.Jobs.JobPlacement
import AmberBackup.Jobs.LiveSchedules
import AmberBackup.Jobs.SecretReferences

/-! # The life cycle of a credential override

A job is created with an override or without one, and edits merge fields into it, replace it, or
take it away. In every sequence of calls that return, the override of a job has the fields that
were entered since it was last started over, later ones over earlier ones; they are overridable
on the connection of its repository; and no credential secret is left behind, nor a reference to
one that is gone (`overrides_follow_edits`).
-/

namespace AmberBackup

open Relational Transition

/-- A world, and for each job the nonempty fields entered for its override, in order, since it
was last moved to another connection or the override was taken away. -/
structure Overriding where
  world : World
  given : Uuid → Fields

inductive OverrideAction where
  | createJob (user : RequestUser) (dto : CreateJobDto)
  | updateJob (user : RequestUser) (job : Uuid) (dto : UpdateJobDto)

/-- The call, which returns the job it is about. -/
def OverrideAction.call (editing : Editing) : OverrideAction → Service Uuid
  | .createJob user dto => AmberBackup.createJob editing user dto
  | .updateJob user job dto => do
      AmberBackup.updateJob editing user job dto
      return job

def Db.repositoryRow (db : Db) (job : Uuid) : Option Repository :=
  (db.backupJobs.get? job).bind fun row => db.repositories.get? row.repositoryId

/-- The fields of the job's override once the call has returned. -/
def OverrideAction.given (state : Overriding) : OverrideAction → Fields
  | .createJob _ dto => nonEmptyFields (dto.repoCredentials.getD [])
  | .updateJob _ job dto =>
      (if (state.world.db.repositoryRow job).any dto.startsOver then [] else state.given job) ++
        dto.enteredFields

/-- The override of a repository holds the fields, which its connection lets it override. -/
structure OverrideKept (platform : Platform) (db : Db) (repository : Repository)
    (given : Fields) : Prop where
  present : repository.credentialSecretId.isSome ↔ given ≠ []
  merged : ∃ current, revealCredentials platform db repository.credentialSecretId = .ok current ∧
    (∀ name, lookupLast name current = lookupLast name given) ∧
      ∀ entry ∈ current, db.Overridable repository.targetId entry.1

/-- Every job has the override that was entered for it, and the references are in order. -/
structure Overriding.Sound (platform : Platform) (state : Overriding) : Prop where
  owned : state.world.db.OwnRepositories
  overrides : ∀ job repository, state.world.db.repositoryRow job = some repository →
    OverrideKept platform state.world.db repository (state.given job)
  resolves : state.world.db.Resolves
  separate : state.world.db.SeparateSecrets

/-- The calls that return. -/
def overriding (editing : Editing) : System Overriding OverrideAction where
  initial state := state.Sound editing.platform
  step state action :=
    match (action.call editing).run state.world with
    | (.ok job, next) =>
        some { world := next, given := Function.update state.given job (action.given state) }
    | (.error _, _) => none

theorem overriding_step {editing : Editing} {state next : Overriding} {action : OverrideAction} :
    (overriding editing).step state action = some next ↔
      ∃ job world, (action.call editing).run state.world = (.ok job, world) ∧
        next = ⟨world, Function.update state.given job (action.given state)⟩ := by
  unfold overriding
  dsimp only
  rcases (action.call editing).run state.world with ⟨result, world⟩
  cases result with
  | ok job => simp [eq_comm]
  | error failure => simp

/-! ## An override -/

section Override

variable {platform : Platform} {editing : Editing} {db after : Db}
  {repository changed : Repository} {given : Fields}

theorem Db.Overridable.congr {target : Option Uuid} {name : String}
    (allowed : db.Overridable target name) (targets : after.targets = db.targets) :
    after.Overridable target name := by
  obtain ⟨type, names, backend, listed, member⟩ := allowed
  refine ⟨type, names, ?_, listed, member⟩
  rw [← backend]
  cases target with
  | none => rfl
  | some id => exact congrArg (fun table => (table.get? id).map Target.backendType) targets

/-- An override whose secret stays as it is. -/
theorem OverrideKept.congr (kept : OverrideKept platform db repository given)
    (secret : changed.credentialSecretId = repository.credentialSecretId)
    (target : changed.targetId = repository.targetId ∨ repository.credentialSecretId = none)
    (targets : after.targets = db.targets)
    (same : ∀ id, repository.credentialSecretId = some id →
      after.secrets.get? id = db.secrets.get? id) :
    OverrideKept platform after changed given where
  present := by
    rw [secret]
    exact kept.present
  merged := by
    obtain ⟨current, revealed, equal, allowed⟩ := kept.merged
    refine ⟨current, ?_, equal, ?_⟩
    · rw [secret, revealCredentials_congr same]
      exact revealed
    · intro entry listed
      rcases target with unmoved | unset
      · rw [unmoved]
        exact (allowed entry listed).congr targets
      · rw [unset] at revealed
        obtain rfl := Except.ok.inj revealed
        cases listed

/-- No override. -/
theorem overrideKept_none (unset : repository.credentialSecretId = none) :
    OverrideKept platform db repository [] where
  present := by simp [unset]
  merged := by
    refine ⟨[], ?_, fun _ => rfl, fun _ listed => absurd listed List.not_mem_nil⟩
    rw [unset]
    rfl

/-- An override that was written. -/
theorem overrideKept_written (faithful : editing.Faithful) {id : Uuid} {type : SecretType}
    {fields : Fields} (column : repository.credentialSecretId = some id)
    (stored : db.secrets.get? id =
      some (Secrets.encrypted editing type id (editing.renderCredentials fields)))
    (nonempty : given ≠ []) (same : ∀ name, lookupLast name fields = lookupLast name given)
    (allowed : ∀ entry ∈ fields, db.Overridable repository.targetId entry.1) :
    OverrideKept editing.platform db repository given where
  present := by simp [column, nonempty]
  merged := by
    obtain ⟨parsed, revealed, equal⟩ := revealCredentials_encrypted faithful stored
    refine ⟨parsed, ?_, fun name => (equal name).trans (same name), ?_⟩
    · rw [column]
      exact revealed
    · rintro ⟨name, value⟩ listed
      have held := lookupLast_isSome listed
      rw [equal] at held
      obtain ⟨content, found⟩ := Option.isSome_iff_exists.mp held
      exact allowed (name, content) (mem_of_lookupLast found)

end Override

/-- A call that changes the secrets of one repository, and its job. -/
theorem Overriding.Sound.moved {platform : Platform} {state : Overriding} {next : World}
    {job own : Uuid} {old : Option Uuid} {changed : Repository} {given : Fields}
    (sound : state.Sound platform) (owned : next.db.OwnRepositories)
    (moved : OwnSecretsChanged state.world.db next.db own old changed)
    (resolves : next.db.Resolves)
    (jobs : ∀ other row, other ≠ job → next.db.backupJobs.get? other = some row →
      state.world.db.backupJobs.get? other = some row ∧ row.repositoryId ≠ own)
    (here : next.db.repositoryRow job = some changed)
    (kept : OverrideKept platform next.db changed given) :
    (Overriding.mk next (Function.update state.given job given)).Sound platform where
  owned := owned
  overrides := by
    intro other repository found
    by_cases same : other = job
    · subst same
      obtain rfl := Option.some.inj (here.symm.trans found)
      dsimp only
      rw [Function.update_self]
      exact kept
    · dsimp only
      rw [Function.update_of_ne same]
      obtain ⟨row, listed, present⟩ := Option.bind_eq_some_iff.mp found
      obtain ⟨before, elsewhere⟩ := jobs other row same listed
      rw [moved.repositories, if_neg elsewhere] at present
      have was : state.world.db.repositoryRow other = some repository :=
        Option.bind_eq_some_iff.mpr ⟨row, before, present⟩
      refine (sound.overrides other repository was).congr rfl (.inl rfl) moved.targets ?_
      intro id names
      exact moved.other_override sound.resolves sound.separate elsewhere present names
  resolves := resolves
  separate := moved.separate sound.resolves sound.separate

/-! ## A creation -/

section Create

variable {editing : Editing} {user : RequestUser} {state : Overriding} {world next : World}
  {dto : CreateJobDto} {job : Uuid}

theorem createOverride_returns {fields : Fields} {credential : Option Uuid}
    (returned : (createOverride editing fields).run world = (.ok credential, next)) :
    fields = [] ∧ credential = none ∧ next = world ∨
      fields ≠ [] ∧ credential = some (freshId world.db.secrets) ∧
        next = ((Secrets.create editing .backendCredential
          (editing.renderCredentials fields)).run world).2 := by
  unfold createOverride at returned
  by_cases blank : fields = []
  · rw [if_pos blank] at returned
    obtain ⟨same, rfl⟩ := Prod.mk.inj returned
    exact .inl ⟨blank, (Except.ok.inj same).symm, rfl⟩
  · rw [if_neg blank] at returned
    obtain ⟨same, rfl⟩ := Prod.mk.inj returned
    exact .inr ⟨blank, (Except.ok.inj same).symm, rfl⟩

/-- The repository a creation inserts. -/
def CreateJobDto.repository (dto : CreateJobDto) (world : World) (config : Config)
    (credential : Option Uuid) : Repository where
  name := dto.name
  targetId := dto.targetId
  repoConfig := config
  repoPasswordSecretId := freshId world.db.secrets
  credentialSecretId := credential
  updatedAt := world.now

/-- The secrets after a creation are those there were, the password and the override. -/
structure SecretsCreated (world middle : World) (credential : Option Uuid) : Prop where
  rest : middle = { world with db := { world.db with secrets := middle.db.secrets } }
  kept : ∀ id secret, world.db.secrets.get? id = some secret →
    middle.db.secrets.get? id = some secret
  password : (middle.db.secrets.get? (freshId world.db.secrets)).isSome
  override : ∀ id, credential = some id → (middle.db.secrets.get? id).isSome ∧
    world.db.secrets.get? id = none ∧ id ≠ freshId world.db.secrets
  origin : ∀ id secret, middle.db.secrets.get? id = some secret →
    world.db.secrets.get? id = some secret ∨ world.db.secrets.get? id = none ∧
      (secret.type = .backendCredential ∧ credential = some id ∨
        secret.type = .repoPassword ∧ id = freshId world.db.secrets)

theorem createOverride_secrets {password : String} {fields : Fields} {credential : Option Uuid}
    {middle : World}
    (returned : (createOverride editing fields).run
      ((Secrets.create editing .repoPassword password).run world).2 = (.ok credential, middle)) :
    SecretsCreated world middle credential := by
  have fresh : world.db.secrets.get? (freshId world.db.secrets) = none := get?_freshId _
  have first := created_secret editing world .repoPassword password
  have before : ∀ id secret, ((Secrets.create editing .repoPassword password).run
      world).2.db.secrets.get? id = some secret →
      world.db.secrets.get? id = some secret ∨ world.db.secrets.get? id = none ∧
        secret.type = .repoPassword ∧ id = freshId world.db.secrets := by
    intro id secret found
    rcases Table.insert_cases fresh found with ⟨rfl, rfl⟩ | ⟨-, was⟩
    · exact .inr ⟨fresh, rfl, rfl⟩
    · exact .inl was
  rcases createOverride_returns returned with ⟨-, rfl, rfl⟩ | ⟨-, rfl, rfl⟩
  · refine ⟨rfl, ?_, Option.isSome_iff_exists.mpr ⟨_, first⟩, ?_, ?_⟩
    · intro id secret found
      exact Table.get?_insert_of_some found _
    · intro id unset
      cases unset
    · intro id secret found
      rcases before id secret found with was | ⟨missing, new⟩
      · exact .inl was
      · exact .inr ⟨missing, .inr new⟩
  · have unused : ((Secrets.create editing .repoPassword password).run
        world).2.db.secrets.get? (freshId ((Secrets.create editing .repoPassword password).run
          world).2.db.secrets) = none := get?_freshId _
    have missing : world.db.secrets.get? (freshId ((Secrets.create editing .repoPassword
        password).run world).2.db.secrets) = none := by
      rw [Option.eq_none_iff_forall_ne_some]
      intro secret was
      have still : ((Secrets.create editing .repoPassword password).run
          world).2.db.secrets.get? _ = some secret := Table.get?_insert_of_some was _
      rw [unused] at still
      cases still
    refine ⟨rfl, ?_, Option.isSome_iff_exists.mpr ⟨_, Table.get?_insert_of_some first _⟩, ?_, ?_⟩
    · intro id secret found
      exact Table.get?_insert_of_some (Table.get?_insert_of_some found _) _
    · intro id names
      obtain rfl := Option.some.inj names
      refine ⟨Option.isSome_iff_exists.mpr ⟨_, Table.get?_insert_self unused⟩, missing, ?_⟩
      intro same
      rw [same, first] at unused
      cases unused
    · intro id secret found
      rcases Table.insert_cases unused found with ⟨rfl, rfl⟩ | ⟨-, was⟩
      · exact .inr ⟨missing, .inl ⟨rfl, rfl⟩⟩
      · rcases before id secret was with was | ⟨absent, new⟩
        · exact .inl was
        · exact .inr ⟨absent, .inr new⟩

/-- The secrets of a creation are new. -/
theorem createJob_moved {backendType : String} {config : Config} {overrides : Fields}
    {credential : Option Uuid} {middle : World}
    (created : Created editing user dto world next backendType config overrides credential middle
      job) :
    OwnSecretsChanged world.db next.db (freshId world.db.repositories) none
        (dto.repository world config credential) ∧
      (world.db.Resolves → next.db.Resolves) := by
  have secrets := createOverride_secrets created.stored
  have freshRepository : world.db.repositories.get? (freshId world.db.repositories) = none :=
    get?_freshId _
  have still : ∀ id, (world.db.secrets.get? id).isSome → (middle.db.secrets.get? id).isSome := by
    intro id present
    obtain ⟨secret, found⟩ := Option.isSome_iff_exists.mp present
    exact Option.isSome_iff_exists.mpr ⟨secret, secrets.kept id secret found⟩
  have same := secrets.rest
  generalize middle.db.secrets = table at same
  subst same
  obtain rfl := (Prod.mk.inj created.inserted).2
  refine ⟨⟨?_, rfl, .inr ⟨freshRepository, get?_freshId _, rfl⟩, ?_, ?_, ?_, ?_, ?_⟩, ?_⟩
  · intro key
    exact Table.get?_insert freshRepository
  · intro id present _ _
    obtain ⟨secret, found⟩ := Option.isSome_iff_exists.mp present
    rw [found]
    exact secrets.kept id secret found
  · intro id secret found
    rcases secrets.origin id secret found with was | ⟨missing, new⟩
    · exact .inl (congrArg (Option.map Secret.type) was)
    · exact .inr ⟨missing, new⟩
  · intro id unset
    cases unset
  · intro id names
    exact .inr (secrets.override id names).2.1
  · intro names
    exact (secrets.override _ names).2.2 rfl
  · intro resolves
    refine (resolves.grow still).rewrite ?_ ?_
    · intro key row found
      rcases Table.insert_cases freshRepository found with ⟨-, rfl⟩ | ⟨-, was⟩
      · exact secrets.password
      · exact still _ (resolves.password key row was)
    · intro key row id found names
      rcases Table.insert_cases freshRepository found with ⟨-, rfl⟩ | ⟨-, was⟩
      · exact (secrets.override id names).1
      · exact still id (resolves.override key row id was names)

/-- A creation stores the override it enters. -/
theorem createJob_kept (faithful : editing.Faithful) {backendType : String} {config : Config}
    {overrides : Fields} {credential : Option Uuid} {middle : World}
    (created : Created editing user dto world next backendType config overrides credential middle
      job) :
    OverrideKept editing.platform next.db (dto.repository world config credential)
      (nonEmptyFields (dto.repoCredentials.getD [])) := by
  obtain ⟨rfl, allowed⟩ := buildCredentialOverride_returns
    (resolveBackendType_returns created.backend) created.entered
  have moved := (createJob_moved created).1
  have same : next.db.secrets = middle.db.secrets := by
    obtain rfl := (Prod.mk.inj created.inserted).2
    rfl
  rcases createOverride_returns created.stored with ⟨blank, unset, -⟩ | ⟨entered, named, wrote⟩
  · rw [blank]
    exact overrideKept_none unset
  · have stored := created_secret editing
      ((Secrets.create editing .repoPassword dto.repoPassword).run world).2 .backendCredential
      (editing.renderCredentials (nonEmptyFields (dto.repoCredentials.getD [])))
    rw [← wrote, ← same] at stored
    refine overrideKept_written faithful named stored entered (fun _ => rfl) ?_
    intro entry listed
    exact (allowed entry listed).congr moved.targets

theorem createJob_sound (faithful : editing.Faithful) (sound : state.Sound editing.platform)
    (returned : (createJob editing user dto).run state.world = (.ok job, next)) :
    (Overriding.mk next (Function.update state.given job
        (nonEmptyFields (dto.repoCredentials.getD [])))).Sound editing.platform ∧
      ∀ id, next.db.Orphaned id → state.world.db.Orphaned id := by
  obtain ⟨backendType, config, overrides, credential, middle, created⟩ :=
    createJob_returns returned
  obtain ⟨moved, resolves⟩ := createJob_moved created
  have kept := createJob_kept faithful created
  refine ⟨sound.moved (createJob_owned sound.owned returned) moved (resolves sound.resolves)
    ?_ ?_ kept, fun id => moved.orphaned⟩
  · intro other row different found
    obtain ⟨secrets, restores, rfl, -⟩ := created.before
    obtain ⟨same, rfl⟩ := Prod.mk.inj created.inserted
    obtain rfl := Except.ok.inj same
    rcases Table.insert_cases (get?_freshId _) found with ⟨same, -⟩ | ⟨-, before⟩
    · exact absurd same different
    · exact ⟨before, sound.owned.unused other row before⟩
  · have there := (moved.repositories _).trans (if_pos rfl)
    obtain ⟨secrets, restores, rfl, -⟩ := created.before
    obtain ⟨same, rfl⟩ := Prod.mk.inj created.inserted
    obtain rfl := Except.ok.inj same
    exact Option.bind_eq_some_iff.mpr ⟨_, Table.get?_insert_self (get?_freshId _), there⟩

end Create

/-! ## An edit -/

section Update

variable {editing : Editing} {user : RequestUser} {state : Overriding} {world next : World}
  {dto : UpdateJobDto} {job : Uuid} {row : BackupJob} {repository : Repository}
  {place : Option (Option Uuid × Config)} {plan : OverridePlan}

theorem RepoPatch.apply_credentialSecretId (patch : RepoPatch) (now : Nat)
    (repository : Repository) :
    (patch.apply now repository).credentialSecretId =
      patch.credentialSecretId.getD repository.credentialSecretId := by
  unfold RepoPatch.apply
  split
  case isTrue empty =>
    rw [empty]
    rfl
  case isFalse => rfl

theorem RepoPatch.apply_repoPasswordSecretId (patch : RepoPatch) (now : Nat)
    (repository : Repository) :
    (patch.apply now repository).repoPasswordSecretId = repository.repoPasswordSecretId := by
  unfold RepoPatch.apply
  split <;> rfl

variable (editing dto repository world) in
theorem renewed_rest : renewed editing dto repository world =
    { world with db := { world.db with
      secrets := (renewed editing dto repository world).db.secrets } } := by
  unfold renewed
  cases dto.repoPassword <;> rfl

variable (editing world plan) in
theorem written_rest : plan.written editing world =
    { world with db := { world.db with secrets := (plan.written editing world).db.secrets } } := by
  cases plan <;> rfl

/-- The override column once the plan has been carried out. -/
def OverridePlan.column (plan : OverridePlan) (repository : Repository) (world : World) :
    Option Uuid :=
  (plan.edit repository world).column.getD repository.credentialSecretId

/-- A repository keeps its override column, or gives its override up. -/
theorem column_cases (editing : Editing) (plan : OverridePlan) (repository : Repository)
    (world : World) :
    (plan.edit repository world).orphaned = none ∧
        plan.column repository world = repository.credentialSecretId ∨
      (plan.edit repository world).orphaned = repository.credentialSecretId ∧
        (plan.column repository world = none ∨
          plan.column repository world = some (freshId world.db.secrets) ∧
            ((plan.written editing world).db.secrets.get? (freshId world.db.secrets)).isSome) := by
  cases plan with
  | keep | merge => exact .inl ⟨rfl, rfl⟩
  | drop => exact .inr ⟨rfl, .inl rfl⟩
  | replace fields =>
      refine .inr ⟨rfl, .inr ⟨rfl, ?_⟩⟩
      exact Option.isSome_iff_exists.mpr ⟨_, created_secret editing world _ _⟩

/-- The repository after an edit. -/
def UpdateJobDto.changed (dto : UpdateJobDto) (repository : Repository)
    (place : Option (Option Uuid × Config)) (plan : OverridePlan) (world : World) : Repository :=
  ({ name := dto.job.name, place, credentialSecretId := (plan.edit repository world).column } :
    RepoPatch).apply world.now repository

/-- What an edit that returns does to the tables, from the secrets of `middle` on. -/
structure EditEffect (editing : Editing) (dto : UpdateJobDto) (job : Uuid) (row : BackupJob)
    (repository : Repository) (place : Option (Option Uuid × Config)) (plan : OverridePlan)
    (world middle next : World) : Prop where
  jobs : next.db.backupJobs =
    world.db.backupJobs.update (fun id _ => id = job) (dto.job.apply world.now)
  repositories : ∀ key, next.db.repositories.get? key =
    if key = row.repositoryId then
      some (dto.changed repository place plan (renewed editing dto repository world))
    else world.db.repositories.get? key
  targets : next.db.targets = world.db.targets
  secrets : ∀ id, next.db.secrets.get? id =
    if (plan.edit repository (renewed editing dto repository world)).orphaned = some id then none
    else middle.db.secrets.get? id
  resolves : world.db.Resolves → next.db.Resolves

variable (editing dto repository world) in
theorem renewed_present (id : Uuid) :
    ((renewed editing dto repository world).db.secrets.get? id).isSome =
      (world.db.secrets.get? id).isSome := by
  have same := congrArg Option.isSome (@renewed_type editing world dto repository id)
  rwa [Option.isSome_map, Option.isSome_map] at same

/-- The password and the override are written before anything refers to a new secret. -/
theorem written_resolves (resolves : world.db.Resolves) :
    (plan.written editing (renewed editing dto repository world)).db.Resolves := by
  have first := congrArg World.db (renewed_rest editing world dto repository)
  have last := congrArg World.db (written_rest editing (renewed editing dto repository world) plan)
  rw [last]
  refine Db.Resolves.grow ?_ fun id present => written_present present
  rw [first]
  refine resolves.grow fun id present => ?_
  rw [renewed_present]
  exact present

theorem Replanned.effect
    (replanned : Replanned editing job dto world next row repository place plan) :
    EditEffect editing dto job row repository place plan world
      (plan.written editing (renewed editing dto repository world)) next := by
  obtain ⟨stored, kept⟩ := of_joined replanned.found
  obtain ⟨secrets, restores, rfl, gone, resolves⟩ := removeOptional_returns replanned.removed
  have now : (renewed editing dto repository world).now = world.now := by
    rw [renewed_rest editing world dto repository]
  have column := column_cases editing plan repository (renewed editing dto repository world)
  have resolved : world.db.Resolves →
      (plan.written editing (renewed editing dto repository world)).db.Resolves :=
    written_resolves
  have still : ∀ id, (world.db.secrets.get? id).isSome →
      ((plan.written editing (renewed editing dto repository world)).db.secrets.get?
        id).isSome := by
    intro id present
    rw [← renewed_present editing world dto repository] at present
    exact written_present present
  obtain ⟨table, runs, same, -⟩ : OnlySecrets world
      (plan.written editing (renewed editing dto repository world)) :=
    IsTrans.trans _ _ _ (renewed_within editing dto repository world)
      (OverridePlan.written_within editing _ plan)
  generalize plan.written editing (renewed editing dto repository world) = middle at *
  subst same
  refine ⟨rfl, ?_, rfl, gone, ?_⟩
  · intro key
    change (world.db.repositories.update _ _).get? key = _
    split
    case isTrue same =>
      subst same
      rw [Table.get?_update_self, kept, UpdateJobDto.changed, now]
      rfl
    case isFalse other => exact Table.get?_update_of_ne other _
  · intro before
    refine resolves ((resolved before).rewrite ?_ ?_)
    · intro key after found
      rcases Table.update_cases found with ⟨rfl, old, was, rfl⟩ | ⟨-, was⟩
      · rw [RepoPatch.apply_repoPasswordSecretId]
        exact still _ (before.password _ old was)
      · exact still _ (before.password key after was)
    · intro key after id found names
      rcases Table.update_cases found with ⟨rfl, old, was, rfl⟩ | ⟨-, was⟩
      · obtain rfl := Option.some.inj (kept.symm.trans was)
        rw [RepoPatch.apply_credentialSecretId] at names
        rcases column with ⟨-, same⟩ | ⟨-, unset | ⟨same, present⟩⟩
        · exact still id (before.override _ repository id was (same.symm.trans names))
        · cases unset.symm.trans names
        · obtain rfl := Option.some.inj (same.symm.trans names)
          exact present
      · exact still id (before.override key after id was names)

theorem Db.SeparateSecrets.ne_password {db : Db} (separate : db.SeparateSecrets)
    (resolves : db.Resolves) {key id : Uuid} (found : db.repositories.get? key = some repository)
    (names : repository.credentialSecretId = some id) : id ≠ repository.repoPasswordSecretId := by
  rintro rfl
  obtain ⟨secret, stored⟩ := Option.isSome_iff_exists.mp (resolves.password key repository found)
  have clash := separate.password key repository secret found stored
  rw [separate.override key repository _ secret found names stored] at clash
  cases clash

/-- A secret that is new after the password is written is not there before. -/
theorem freshId_renewed : world.db.secrets.get?
    (freshId (renewed editing dto repository world).db.secrets) = none := by
  rw [← Option.isSome_eq_false_iff.trans Option.isNone_iff_eq_none,
    ← renewed_present editing world dto repository, get?_freshId]
  rfl

/-- An edit changes the secrets of its own repository. -/
theorem Replanned.moved (resolves : world.db.Resolves) (separate : world.db.SeparateSecrets)
    (replanned : Replanned editing job dto world next row repository place plan) :
    OwnSecretsChanged world.db next.db row.repositoryId repository.credentialSecretId
      (dto.changed repository place plan (renewed editing dto repository world)) := by
  have effect := replanned.effect
  obtain ⟨stored, kept⟩ := of_joined replanned.found
  have password : (dto.changed repository place plan
      (renewed editing dto repository world)).repoPasswordSecretId =
        repository.repoPasswordSecretId := RepoPatch.apply_repoPasswordSecretId _ _ _
  have column : (dto.changed repository place plan
      (renewed editing dto repository world)).credentialSecretId =
        plan.column repository (renewed editing dto repository world) :=
    RepoPatch.apply_credentialSecretId _ _ _
  have cases := column_cases editing plan repository (renewed editing dto repository world)
  refine ⟨effect.repositories, effect.targets, .inl ⟨repository, kept, password.symm, rfl⟩,
    ?_, ?_, ?_, ?_, ?_⟩
  · intro id present different other
    rw [password] at different
    have given : (plan.edit repository (renewed editing dto repository world)).orphaned ≠
        some id := by
      rcases cases with ⟨unset, -⟩ | ⟨same, -⟩
      · rw [unset]
        exact (Option.some_ne_none id).symm
      · exact same ▸ other
    rw [effect.secrets, if_neg given, written_of_ne replanned.planned other,
      renewed_of_ne different]
    rw [renewed_present]
    exact present
  · intro id secret found
    rw [effect.secrets] at found
    split at found
    case isTrue => cases found
    case isFalse =>
      rcases written_cases found with same | ⟨missing, type, names⟩
      · exact .inl (renewed_type.symm.trans same)
      · refine .inr ⟨?_, .inl ⟨type, ?_⟩⟩
        · have absent := renewed_present editing world dto repository id
          rw [missing] at absent
          exact Option.isSome_eq_false_iff.mp absent.symm |> Option.isNone_iff_eq_none.mp
        · rw [column, OverridePlan.column, names]
          rfl
  · intro id held moved
    rw [column] at moved
    rcases cases with ⟨-, same⟩ | ⟨given, -⟩
    · exact absurd (same.trans held) moved
    · rw [effect.secrets, given, if_pos held]
  · intro id names
    rw [column] at names
    rcases cases with ⟨-, same⟩ | ⟨-, unset | ⟨same, -⟩⟩
    · exact .inl (same.symm.trans names)
    · cases unset.symm.trans names
    · obtain rfl := Option.some.inj (same.symm.trans names)
      exact .inr freshId_renewed
  · rw [column, password]
    intro names
    rcases cases with ⟨-, same⟩ | ⟨-, unset | ⟨same, -⟩⟩
    · exact separate.ne_password resolves kept (same.symm.trans names) rfl
    · cases unset.symm.trans names
    · have present := resolves.password _ repository kept
      rw [← Option.some.inj (same.symm.trans names), freshId_renewed] at present
      cases present

/-- The override of the job after an edit. -/
theorem Replanned.kept (faithful : editing.Faithful) {given : Fields}
    (resolves : world.db.Resolves) (separate : world.db.SeparateSecrets)
    (before : OverrideKept editing.platform world.db repository given)
    (replanned : Replanned editing job dto world next row repository place plan) :
    OverrideKept editing.platform next.db
      (dto.changed repository place plan (renewed editing dto repository world))
      ((if dto.startsOver repository then [] else given) ++ dto.enteredFields) := by
  have effect := replanned.effect
  obtain ⟨stored, kept⟩ := of_joined replanned.found
  have column : (dto.changed repository place plan
      (renewed editing dto repository world)).credentialSecretId =
        plan.column repository (renewed editing dto repository world) :=
    RepoPatch.apply_credentialSecretId _ _ _
  have target : (dto.changed repository place plan
      (renewed editing dto repository world)).targetId =
        dto.targetId.getD repository.targetId := by
    rw [UpdateJobDto.changed, RepoPatch.apply_targetId]
    exact replanned.target
  have unmoved : dto.startsOver repository = false →
      dto.targetId.getD repository.targetId = repository.targetId := by
    intro stays
    rw [UpdateJobDto.startsOver, Bool.or_eq_false_iff] at stays
    exact UpdateJobDto.targetId_of_stays stays.1
  have same : ∀ id, repository.credentialSecretId = some id →
      (renewed editing dto repository world).db.secrets.get? id = world.db.secrets.get? id :=
    fun id names => renewed_of_ne (separate.ne_password resolves kept names)
  have targets : next.db.targets = (renewed editing dto repository world).db.targets := by
    rw [effect.targets, renewed_rest editing world dto repository]
  have secrets := effect.secrets
  rcases replanned.planned with ⟨blank, unset⟩ | ⟨blank, afresh⟩ |
    ⟨secret, current, stays, held, revealed, allowed⟩ | ⟨entered, unset, allowed⟩
  · rw [blank, List.append_nil]
    by_cases afresh : dto.startsOver repository = true
    · rw [if_pos afresh]
      exact overrideKept_none (column.trans (unset afresh))
    · rw [if_neg afresh]
      have stays := Bool.eq_false_iff.mpr afresh
      refine before.congr column (.inl (target.trans (unmoved stays))) effect.targets ?_
      intro id names
      exact (secrets id).trans ((if_neg (Option.some_ne_none id).symm).trans (same id names))
  · rw [blank, if_pos afresh]
    exact overrideKept_none column
  · rw [if_neg (Bool.eq_false_iff.mp stays)]
    obtain ⟨merged, was, equal, before_allowed⟩ := before.merged
    have nonempty : given ≠ [] := before.present.mp (by rw [held]; rfl)
    rw [held] at was
    rw [revealCredentials_congr (fun id names => same id (held.trans names)), was] at revealed
    obtain rfl := Except.ok.inj revealed
    obtain ⟨old, present⟩ := Option.isSome_iff_exists.mp
      (resolves.override _ repository secret kept held)
    have written := updated_secret editing ((same secret held).trans present)
      (editing.renderCredentials (merged ++ dto.enteredFields))
    refine overrideKept_written faithful (column.trans held)
      ((secrets secret).trans ((if_neg (Option.some_ne_none secret).symm).trans written)) ?_ ?_ ?_
    · intro empty
      exact nonempty (List.append_eq_nil_iff.mp empty).1
    · intro name
      rw [lookupLast_append, lookupLast_append, equal]
    · intro entry listed
      rw [target, unmoved stays]
      rcases List.mem_append.mp listed with earlier | later
      · exact (before_allowed entry earlier).congr effect.targets
      · exact (allowed entry later).congr targets
  · have fields : (if dto.startsOver repository then [] else given) = [] := by
      split
      case isTrue => rfl
      case isFalse stays =>
        by_contra filled
        have present := before.present.mpr filled
        rw [unset (Bool.eq_false_iff.mpr stays)] at present
        cases present
    rw [fields, List.nil_append]
    have given : ¬ repository.credentialSecretId =
        some (freshId (renewed editing dto repository world).db.secrets) := by
      intro names
      have present := resolves.override _ repository _ kept names
      rw [freshId_renewed] at present
      cases present
    have written := created_secret editing (renewed editing dto repository world)
      .backendCredential (editing.renderCredentials dto.enteredFields)
    refine overrideKept_written faithful column
      ((secrets _).trans ((if_neg given).trans written)) entered (fun _ => rfl) ?_
    intro entry listed
    rw [target]
    exact (allowed entry listed).congr targets

theorem updateJob_sound (faithful : editing.Faithful) (sound : state.Sound editing.platform)
    (returned : (updateJob editing user job dto).run state.world = (.ok (), next)) :
    (Overriding.mk next (Function.update state.given job
        ((OverrideAction.updateJob user job dto).given state))).Sound editing.platform ∧
      ∀ id, next.db.Orphaned id → state.world.db.Orphaned id := by
  obtain ⟨row, repository, place, plan, replanned⟩ := updateJob_planned returned
  obtain ⟨stored, kept⟩ := of_joined replanned.found
  have effect := replanned.effect
  have moved := replanned.moved sound.resolves sound.separate
  have own : state.world.db.repositoryRow job = some repository :=
    Option.bind_eq_some_iff.mpr ⟨row, stored, kept⟩
  have given : (OverrideAction.updateJob user job dto).given state =
      (if dto.startsOver repository then [] else state.given job) ++ dto.enteredFields := by
    rw [OverrideAction.given, own]
    rfl
  rw [given]
  refine ⟨sound.moved (updateJob_owned sound.owned returned) moved
    (effect.resolves sound.resolves) ?_ ?_ (replanned.kept faithful sound.resolves
      sound.separate (sound.overrides job repository own)), fun id => moved.orphaned⟩
  · intro other after different found
    rw [effect.jobs, Table.get?_update_of_ne different] at found
    refine ⟨found, ?_⟩
    intro shared
    exact different (sound.owned.distinct other job after row found stored shared)
  · refine Option.bind_eq_some_iff.mpr ⟨dto.job.apply state.world.now row, ?_, ?_⟩
    · rw [effect.jobs, Table.get?_update_self, stored]
      rfl
    · exact (effect.repositories _).trans (if_pos rfl)

end Update

/-! ## Sequences -/

/-- Two connections to REST servers, and no job. -/
def twoServers : Overriding where
  world := {
    now := 0
    db := {
      targets := (Table.empty.insert 0 {
        name := "first", backendType := "rest", config := [("url", .text "first.example.org")]
        credentialSecretId := none, updatedAt := 0 }).insert 1 {
        name := "second", backendType := "rest", config := [("url", .text "second.example.org")]
        credentialSecretId := none, updatedAt := 0 } } }
  given _ := []

theorem twoServers_sound : twoServers.Sound jsonVault.platform where
  owned := ⟨fun _ _ found => (Option.some_ne_none _ found.symm).elim,
    fun _ _ _ _ found => (Option.some_ne_none _ found.symm).elim⟩
  overrides _ _ found := (Option.some_ne_none _ found.symm).elim
  resolves := by
    have unset : (twoServers.world.db.targets.anyWhere
        fun _ target => target.credentialSecretId.isSome) = false := by
      decide +kernel
    refine ⟨?_, ?_, ?_, ?_, ?_, ?_⟩
    · intro key row found
      cases found
    · intro key row id found
      cases found
    · intro key target id found names
      have free := Table.anyWhere_eq_false.mp unset key target found
      rw [names] at free
      cases free
    · intro key channel id found
      cases found
    · intro key run found
      cases found
    · intro key run id found
      cases found
  separate := by
    refine ⟨?_, ?_, ?_⟩
    · intro key row secret found
      cases found
    · intro key row id secret found
      cases found
    · intro key other row second id found
      cases found

end AmberBackup
