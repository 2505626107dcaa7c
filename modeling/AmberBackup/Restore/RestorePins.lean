import AmberBackup.Jobs.StoredCredentials
import AmberBackup.Lib.Transition
import AmberBackup.Restore.RestoreService
import AmberBackup.Targets.TargetEdits

/-! # What a restore is pinned to

The row of a restore copies the ids its repository is resolved from. The rows behind them
are not copied: an edit of the job writes the password and the override where they are, the
removal of an override takes it from the restore too, and so does the removal of the
connection, which turns the restore into one of a local repository. While no call writes or
deletes a secret the restore reads, and its connection stays, it resolves to what it resolved
to when it was created (`restore_stays_pinned`).
-/

namespace AmberBackup

open Relational Transition

/-- The calls that may come before a restore is executed or claimed. -/
inductive PinAction where
  | updateJob (user : RequestUser) (job : Uuid) (dto : UpdateJobDto)
  | removeJob (user : RequestUser) (job : Uuid)
  | removeTarget (user : RequestUser) (target : Uuid)
  deriving DecidableEq

def PinAction.call (editing : Editing) : PinAction → Service Unit
  | .updateJob user job dto => AmberBackup.updateJob editing user job dto
  | .removeJob user job => AmberBackup.removeJob user job
  | .removeTarget user target => AmberBackup.removeTarget user target

/-- The successful calls. -/
def pinning (editing : Editing) : System World PinAction where
  initial := fun _ => True
  step := fun world action =>
    match (action.call editing).run world with
    | (.ok _, next) => some next
    | (.error _, _) => none

/-- The constraints of the tables: repositories and connections refer to secrets that
exist. -/
structure Db.Referential (db : Db) : Prop where
  passwords : ∀ id repository, db.repositories.get? id = some repository →
    (db.secrets.get? repository.repoPasswordSecretId).isSome
  overrides : ∀ id repository secret, db.repositories.get? id = some repository →
    repository.credentialSecretId = some secret → (db.secrets.get? secret).isSome
  credentials : ∀ id target secret, db.targets.get? id = some target →
    target.credentialSecretId = some secret → (db.secrets.get? secret).isSome

/-- Resolving the repository reads the secret. -/
def RepositoryRef.reads (ref : RepositoryRef) (db : Db) (secret : Uuid) : Bool :=
  ref.repoPasswordSecretId = secret || ref.credentialSecretId = some secret ||
    ref.targetId.any fun target =>
      (db.targets.get? target).any fun row => row.credentialSecretId = some secret

/-- The secrets an edit of a job writes in place or deletes. -/
def UpdateJobDto.rewrites (dto : UpdateJobDto) (repository : Repository) : List Uuid :=
  (if dto.repoPassword.isSome then [repository.repoPasswordSecretId] else []) ++
    if dto.repoCredentials.isSome || dto.movesConnection repository then
      repository.credentialSecretId.toList
    else []

namespace PinAction

/-- The secrets a call writes in place or deletes. -/
def rewrites (db : Db) : PinAction → List Uuid
  | .updateJob _ job dto =>
      match joined (db.backupJobs.get? job) fun row => db.repositories.get? row.repositoryId with
      | none => []
      | some (_, repository) => dto.rewrites repository
  | .removeJob _ job =>
      match joined (db.backupJobs.get? job) fun row => db.repositories.get? row.repositoryId with
      | none => []
      | some (_, repository) =>
          repository.repoPasswordSecretId :: repository.credentialSecretId.toList
  | .removeTarget _ target => ((db.targets.get? target).bind Target.credentialSecretId).toList

def removes : PinAction → Option Uuid
  | .removeTarget _ target => some target
  | .updateJob .. | .removeJob .. => none

end PinAction

/-- The call writes and deletes no secret the restore reads, and leaves its connection. -/
def spares (restore : Uuid) (world : World) (action : PinAction) : Bool :=
  (world.db.restoreRuns.get? restore).all fun run =>
    (action.rewrites world.db).all (fun secret => !run.ref.reads world.db secret) &&
      (action.removes.isNone || run.targetId ≠ action.removes)

abbrev Spares (restore : Uuid) (world : World) (action : PinAction) : Prop :=
  spares restore world action = true

/-! ## What resolving reads -/

section Resolving

variable {platform : Platform} {db other : Db} {ref : RepositoryRef}

/-- Resolving a repository depends on the secrets it reads and on its connection. -/
theorem resolveRepo_of_reads
    (secrets : ∀ secret, ref.reads db secret = true →
      other.secrets.get? secret = db.secrets.get? secret)
    (target : ∀ id, ref.targetId = some id → other.targets.get? id = db.targets.get? id) :
    resolveRepo platform other ref = resolveRepo platform db ref := by
  have password : reveal platform other ref.repoPasswordSecretId =
      reveal platform db ref.repoPasswordSecretId :=
    reveal_congr (secrets _ (by simp [RepositoryRef.reads]))
  unfold resolveRepo
  rw [password]
  cases connection : ref.targetId with
  | none => rfl
  | some id =>
      have row : getTargetRow other id = getTargetRow db id := by
        simp only [getTargetRow, target id connection]
      have override : revealCredentials platform other ref.credentialSecretId =
          revealCredentials platform db ref.credentialSecretId :=
        revealCredentials_congr fun secret here =>
          secrets secret (by simp [RepositoryRef.reads, here])
      simp only [row, override]
      cases found : db.targets.get? id with
      | none => simp only [getTargetRow, found]; rfl
      | some connected =>
          have credentials : revealCredentials platform other connected.credentialSecretId =
              revealCredentials platform db connected.credentialSecretId :=
            revealCredentials_congr fun secret here =>
              secrets secret (by simp [RepositoryRef.reads, connection, found, here])
          simp only [getTargetRow, found, bind, Except.bind, credentials]

end Resolving

/-! ## What a call leaves -/

/-- The row still refers to what it referred to, the secrets that are read are as they were,
and so is the connection. -/
structure Spared (restore : Uuid) (ref : RepositoryRef) (reads : Uuid → Bool)
    (before after : World) : Prop where
  row : (before.db.restoreRuns.get? restore).map RestoreRun.ref = some ref →
    (after.db.restoreRuns.get? restore).map RestoreRun.ref = some ref
  secrets : ∀ secret, reads secret = true → (before.db.secrets.get? secret).isSome →
    after.db.secrets.get? secret = before.db.secrets.get? secret
  target : ∀ id, ref.targetId = some id → after.db.targets.get? id = before.db.targets.get? id

section Spared

variable {restore : Uuid} {ref : RepositoryRef} {reads : Uuid → Bool}

instance : Std.Refl (Spared restore ref reads) :=
  ⟨fun _ => ⟨id, fun _ _ _ => rfl, fun _ _ => rfl⟩⟩

instance : IsTrans World (Spared restore ref reads) := ⟨by
  intro first second third before after
  refine ⟨fun here => after.row (before.row here), ?_, ?_⟩
  · intro secret read present
    have same := before.secrets secret read present
    exact (after.secrets secret read (same ▸ present)).trans same
  · intro id connection
    exact (after.target id connection).trans (before.target id connection)⟩

/-- A call that leaves the restores, the secrets and the connections. -/
theorem Spared.of_same {before after : World} (rows : after.db.restoreRuns = before.db.restoreRuns)
    (secrets : after.db.secrets = before.db.secrets)
    (targets : after.db.targets = before.db.targets) : Spared restore ref reads before after where
  row := fun here => rows ▸ here
  secrets := fun _ _ _ => secrets ▸ rfl
  target := fun _ _ => targets ▸ rfl

/-- An update of restores that leaves what each refers to. -/
theorem ref_updated {rows : Table Uuid RestoreRun} {hit : Uuid → RestoreRun → Bool}
    {change : RestoreRun → RestoreRun}
    (kept : ∀ run, rows.get? restore = some run → hit restore run = true →
      (change run).ref = run.ref) :
    ((rows.update hit change).get? restore).map RestoreRun.ref =
      (rows.get? restore).map RestoreRun.ref := by
  rw [Table.get?_update]
  cases found : rows.get? restore with
  | none => rfl
  | some run =>
      rw [Option.map_some, Option.map_some, Option.map_some]
      split
      case isTrue hits => rw [kept run found hits]
      case isFalse => rfl

variable (editing : Editing) (user : RequestUser)

theorem create_spares (type : SecretType) (plaintext : String) :
    (Secrets.create editing type plaintext).Within (Spared restore ref reads) := by
  intro world
  refine ⟨fun here => here, ?_, fun _ _ => rfl⟩
  intro secret _ present
  obtain ⟨row, found⟩ := Option.isSome_iff_exists.mp present
  exact (Table.get?_insert_of_some found _).trans found.symm

theorem update_spares {id : Uuid} (unread : reads id = false) (plaintext : String) :
    (Secrets.update editing id plaintext).Within (Spared restore ref reads) := by
  intro world
  refine ⟨fun here => here, ?_, fun _ _ => rfl⟩
  intro secret read _
  refine Table.get?_update_of_ne ?_ _
  rintro rfl
  rw [read] at unread
  cases unread

theorem remove_spares {id : Uuid} (override : ∀ secret, ref.credentialSecretId = some secret →
      reads secret = true) (unread : reads id = false) :
    (Secrets.remove id).Within (Spared restore ref reads) := by
  intro world
  unfold Secrets.remove
  dsimp only
  split
  case isTrue => exact Std.Refl.refl world
  case isFalse =>
    refine ⟨?_, ?_, fun _ _ => rfl⟩
    · intro here
      refine (ref_updated ?_).trans here
      intro run found hits
      have same : run.ref = ref := by
        rw [found] at here
        exact Option.some.inj here
      have holds : run.ref.credentialSecretId = some id := of_decide_eq_true hits
      rw [override id (same ▸ holds)] at unread
      cases unread
    · intro secret read _
      refine Table.get?_delete_of_ne ?_
      rintro rfl
      rw [read] at unread
      cases unread

theorem removeOptional_spares {id : Option Uuid}
    (override : ∀ secret, ref.credentialSecretId = some secret → reads secret = true)
    (unread : ∀ secret, id = some secret → reads secret = false) :
    (Secrets.removeOptional id).Within (Spared restore ref reads) := by
  cases id with
  | none => exact Procedure.Within.pure ()
  | some secret => exact remove_spares override (unread secret rfl)

theorem updatePassword_spares {secret : Uuid} {password : Option String}
    (unread : password.isSome → reads secret = false) :
    (updatePassword editing secret password).Within (Spared restore ref reads) := by
  cases password with
  | none => exact Procedure.Within.pure ()
  | some password => exact update_spares editing (unread rfl) password

/-- An edit of the override writes the stored one or a new one. -/
theorem editOverride_spares (dto : UpdateJobDto) (repository : Repository)
    (unread : dto.repoCredentials.isSome → ∀ secret,
      repository.credentialSecretId = some secret → reads secret = false) :
    (editOverride editing user dto repository).Within (Spared restore ref reads) := by
  unfold editOverride
  cases given : dto.repoCredentials with
  | none =>
      change Procedure.Within _ (if _ then _ else _)
      split <;> exact Procedure.Within.pure _
  | some values =>
      rw [given] at unread
      cases values with
      | none => exact Procedure.Within.pure _
      | some values =>
          refine Procedure.Within.bind (resolveBackendType_within user _) fun backendType => ?_
          refine Procedure.Within.bind (Procedure.Within.lift _) fun overrides => ?_
          split
          · refine Procedure.Within.bind (Procedure.Within.lift _) fun current => ?_
            refine Procedure.Within.bind (update_spares editing (unread rfl _ ‹_›) _) fun _ => ?_
            exact Procedure.Within.pure _
          · split
            · refine Procedure.Within.bind (create_spares editing _ _) fun _ => ?_
              exact Procedure.Within.pure _
            · split <;> exact Procedure.Within.pure _

/-- What an edit leaves behind is the stored override, and only where the edit brings
another one, or none, or moves the repository. -/
theorem editOverride_orphaned (dto : UpdateJobDto) (repository : Repository) :
    (editOverride editing user dto repository).Yields fun edit =>
      ∀ secret, edit.orphaned = some secret → repository.credentialSecretId = some secret ∧
        (dto.repoCredentials.isSome || dto.movesConnection repository) = true := by
  unfold editOverride
  cases given : dto.repoCredentials with
  | none =>
      change Procedure.Yields _ (if _ then _ else _)
      split
      case isTrue moves =>
        refine Procedure.Yields.pure fun secret orphaned => ⟨orphaned, ?_⟩
        exact (Bool.and_eq_true _ _ ▸ moves).1
      case isFalse => exact Procedure.Yields.pure nofun
  | some values =>
      cases values with
      | none => exact Procedure.Yields.pure fun secret orphaned => ⟨orphaned, rfl⟩
      | some values =>
          refine Procedure.Yields.bind fun backendType => Procedure.Yields.bind fun overrides => ?_
          split
          · refine Procedure.Yields.bind fun current => Procedure.Yields.bind fun _ => ?_
            exact Procedure.Yields.pure nofun
          · split
            · refine Procedure.Yields.bind fun created => Procedure.Yields.pure ?_
              intro secret orphaned
              split at orphaned
              · exact ⟨orphaned, rfl⟩
              · cases orphaned
            · split
              · exact Procedure.Yields.pure fun secret orphaned => ⟨orphaned, rfl⟩
              · exact Procedure.Yields.pure nofun

variable {editing user} {world : World} {id : Uuid}

/-- An edit of a job spares what it does not rewrite. -/
theorem updateJob_spares {dto : UpdateJobDto}
    (override : ∀ secret, ref.credentialSecretId = some secret → reads secret = true)
    (unread : ∀ secret ∈ (PinAction.updateJob user id dto).rewrites world.db,
      reads secret = false) :
    Spared restore ref reads world ((updateJob editing user id dto).run world).2 := by
  rcases updateJob_run editing user world id dto with same | ⟨row, repository, -, found, ran⟩
  · rw [same]
    exact Std.Refl.refl world
  simp only [PinAction.rewrites, found, UpdateJobDto.rewrites, List.mem_append] at unread
  have passwordUnread : dto.repoPassword.isSome → reads repository.repoPasswordSecretId = false := by
    intro given
    refine unread _ (.inl ?_)
    simp [given]
  have overrideUnread : (dto.repoCredentials.isSome || dto.movesConnection repository) = true →
      ∀ secret, repository.credentialSecretId = some secret → reads secret = false := by
    intro rewrites secret stored
    refine unread _ (.inr ?_)
    simp [rewrites, stored]
  have password : Spared restore ref reads world
      ((updatePassword editing repository.repoPasswordSecretId dto.repoPassword).run world).2 :=
    updatePassword_spares editing passwordUnread world
  have edited : (editOverride editing user dto repository).Within (Spared restore ref reads) :=
    editOverride_spares editing user dto repository fun given =>
      overrideUnread (by rw [given, Bool.true_or])
  rcases ran with same | same | ⟨place, edit, -, returned, same⟩
  · rw [same]
    exact password
  · rw [same]
    exact IsTrans.trans _ _ _ password (edited _)
  · rw [same]
    refine IsTrans.trans _ _ _ (IsTrans.trans _ _ _ password (edited _)) ?_
    have written : (writeJob id row.repositoryId
        { name := dto.job.name, place, credentialSecretId := edit.column } dto.job).Within
        (Spared restore ref reads) := fun _ => .of_same rfl rfl rfl
    refine IsTrans.trans _ _ _ (written _) (removeOptional_spares override ?_ _)
    intro secret orphaned
    obtain ⟨stored, rewrites⟩ :=
      editOverride_orphaned editing user dto repository _ edit returned secret orphaned
    exact overrideUnread rewrites secret stored

theorem deleteJob_spares : (deleteJob id).Within (Spared restore ref reads) := by
  intro world
  refine ⟨fun here => ?_, fun _ _ _ => rfl, fun _ _ => rfl⟩
  change ((world.db.restoreRuns.update (fun _ run => run.jobId = some id)
    fun run => { run with jobId := none }).get? restore).map RestoreRun.ref = some ref
  rw [ref_updated]
  · exact here
  · intro run _ _
    rfl

theorem removeJob_spares
    (override : ∀ secret, ref.credentialSecretId = some secret → reads secret = true)
    (unread : ∀ secret ∈ (PinAction.removeJob user id).rewrites world.db, reads secret = false) :
    Spared restore ref reads world ((removeJob user id).run world).2 := by
  unfold removeJob
  rcases assertAcl_cases world user .job id .manage _ with ⟨failure, refused⟩ | ⟨-, ran⟩
  · rw [refused]
    exact Std.Refl.refl world
  rw [ran]
  rcases getRow_cases world id _ with ⟨failure, refused⟩ | ⟨row, repository, found, ran⟩
  · rw [refused]
    exact Std.Refl.refl world
  rw [ran]
  simp only [PinAction.rewrites, found, List.mem_cons, Option.mem_toList] at unread
  refine Procedure.Within.bind deleteJob_spares (fun _ => ?_) world
  refine Procedure.Within.bind (fun _ => Spared.of_same rfl rfl rfl) fun _ => ?_
  refine Procedure.Within.bind (remove_spares override (unread _ (.inl rfl))) fun _ => ?_
  exact removeOptional_spares override fun secret stored => unread secret (.inr stored)

theorem deleteTarget_spares (other : ref.targetId ≠ some id) :
    (deleteTarget id).Within (Spared restore ref reads) := by
  intro world
  refine ⟨fun here => ?_, fun _ _ _ => rfl, ?_⟩
  · refine (ref_updated ?_).trans here
    intro run found hits
    rw [found] at here
    have same : run.ref = ref := Option.some.inj here
    have holds : run.ref.targetId = some id := of_decide_eq_true hits
    exact absurd (same ▸ holds) other
  · rintro target connection
    refine Table.get?_delete_of_ne ?_
    rintro rfl
    exact other connection

theorem removeTarget_spares
    (override : ∀ secret, ref.credentialSecretId = some secret → reads secret = true)
    (unread : ∀ secret ∈ (PinAction.removeTarget user id).rewrites world.db, reads secret = false)
    (other : ref.targetId ≠ some id) :
    Spared restore ref reads world ((removeTarget user id).run world).2 := by
  unfold removeTarget
  rcases assertAcl_cases world user .target id .manage _ with ⟨failure, refused⟩ | ⟨-, ran⟩
  · rw [refused]
    exact Std.Refl.refl world
  rw [ran]
  rcases Procedure.run_bind_lift _ _ world with ⟨failure, -, refused⟩ | ⟨target, here, ran⟩
  · rw [getTarget, refused]
    exact Std.Refl.refl world
  rw [getTarget, ran]
  have found : world.db.targets.get? id = some target := by
    unfold getTargetRow at here
    split at here
    · exact Except.ok.inj here ▸ ‹_›
    · cases here
  simp only [PinAction.rewrites, found, Option.bind_some, Option.mem_toList] at unread
  refine Procedure.Within.bind (Procedure.Within.lift _) (fun _ => ?_) world
  refine Procedure.Within.bind (deleteTarget_spares other) fun _ => ?_
  exact removeOptional_spares override unread

end Spared

/-! ## A run -/

/-- What a restore reads is as it was, and is there. -/
structure Pinned (restore : Uuid) (ref : RepositoryRef) (db : Db) (world : World) : Prop where
  row : (world.db.restoreRuns.get? restore).map RestoreRun.ref = some ref
  secrets : ∀ secret, ref.reads db secret = true →
    world.db.secrets.get? secret = db.secrets.get? secret ∧ (db.secrets.get? secret).isSome
  target : ∀ id, ref.targetId = some id → world.db.targets.get? id = db.targets.get? id

section Run

variable {editing : Editing} {restore : Uuid} {ref : RepositoryRef} {db : Db}
  {world next : World} {action : PinAction}

theorem Pinned.reads (pinned : Pinned restore ref db world) (secret : Uuid) :
    ref.reads world.db secret = ref.reads db secret := by
  unfold RepositoryRef.reads
  cases connection : ref.targetId with
  | none => rfl
  | some id => rw [Option.any_some, Option.any_some, pinned.target id connection]

theorem Pinned.spared (pinned : Pinned restore ref db world)
    (spared : Spared restore ref (ref.reads db) world next) : Pinned restore ref db next where
  row := spared.row pinned.row
  secrets := by
    intro secret read
    obtain ⟨same, present⟩ := pinned.secrets secret read
    exact ⟨(spared.secrets secret read (same ▸ present)).trans same, present⟩
  target := fun id connection => (spared.target id connection).trans (pinned.target id connection)

theorem Pinned.step (pinned : Pinned restore ref db world) (spares : Spares restore world action)
    (moved : (pinning editing).step world action = some next) : Pinned restore ref db next := by
  have after : next = ((action.call editing).run world).2 := by
    simp only [pinning] at moved
    split at moved
    case h_1 ran =>
      rw [ran]
      exact (Option.some.inj moved).symm
    case h_2 => cases moved
  obtain ⟨run, found, same⟩ := Option.map_eq_some_iff.mp pinned.row
  simp only [Spares, AmberBackup.spares, found, Option.all_some, Bool.and_eq_true,
    List.all_eq_true, Bool.or_eq_true, Bool.not_eq_true', Option.isNone_iff_eq_none,
    decide_eq_true_eq] at spares
  rw [same] at spares
  have unread : ∀ secret ∈ action.rewrites world.db, ref.reads db secret = false := by
    intro secret listed
    rw [← pinned.reads]
    exact spares.1 secret listed
  have override : ∀ secret, ref.credentialSecretId = some secret → ref.reads db secret = true := by
    intro secret here
    simp [RepositoryRef.reads, here]
  refine pinned.spared ?_
  rw [after]
  cases action with
  | updateJob user job dto => exact updateJob_spares override unread
  | removeJob user job => exact removeJob_spares override unread
  | removeTarget user target =>
      refine removeTarget_spares override unread ?_
      rw [← same]
      exact spares.2.resolve_left (Option.some_ne_none target)

/-- A restore that was created refers to what its job's repository refers to. -/
theorem createRestore_cases {user : RequestUser} {dto : CreateRestoreDto} {before : World}
    (created : (createRestore user dto).run before = (.ok restore, world)) :
    ∃ job repository, joined (before.db.backupJobs.get? dto.jobId) (fun job =>
        before.db.repositories.get? job.repositoryId) = some (job, repository) ∧
      restore = freshId before.db.restoreRuns ∧
      world = { before with
        db := { before.db with
          restoreRuns := before.db.restoreRuns.insert (freshId before.db.restoreRuns)
            (createdRestore user dto repository before.now) } } := by
  unfold createRestore at created
  rcases assertAcl_cases before user .job dto.jobId .operate _ with ⟨failure, refused⟩ | ⟨-, ran⟩
  · rw [refused] at created
    cases created
  rw [ran] at created
  rcases require_cases before (modeAllowed user dto.mode) _ _ with refused | ⟨-, ran⟩
  · rw [refused] at created
    cases created
  rw [ran] at created
  rcases getRow_cases before dto.jobId _ with ⟨failure, refused⟩ | ⟨job, repository, found, ran⟩
  · rw [refused] at created
    cases created
  rw [ran] at created
  obtain ⟨same, rfl⟩ := Prod.mk.inj created
  obtain rfl := Except.ok.inj same
  exact ⟨job, repository, found, rfl, rfl⟩

theorem pinned_of_created {user : RequestUser} {dto : CreateRestoreDto} {before : World}
    (references : before.db.Referential)
    (created : (createRestore user dto).run before = (.ok restore, world)) :
    ∃ run, world.db.restoreRuns.get? restore = some run ∧
      Pinned restore run.ref world.db world := by
  obtain ⟨job, repository, found, rfl, rfl⟩ := createRestore_cases created
  obtain ⟨-, owned⟩ := of_joined found
  have row : (before.db.restoreRuns.insert (freshId before.db.restoreRuns)
      (createdRestore user dto repository before.now)).get? (freshId before.db.restoreRuns) =
      some (createdRestore user dto repository before.now) :=
    Table.get?_insert_self (get?_freshId _)
  refine ⟨_, row, by rw [row]; rfl, ?_, fun _ _ => rfl⟩
  intro secret read
  refine ⟨rfl, ?_⟩
  change (before.db.secrets.get? secret).isSome
  simp only [RepositoryRef.reads, Bool.or_eq_true, decide_eq_true_eq] at read
  rcases read with (password | override) | credentials
  · exact password ▸ references.passwords _ repository owned
  · exact references.overrides _ repository secret owned override
  · obtain ⟨target, -, connected⟩ := (Option.any_eq_true _ _).mp credentials
    obtain ⟨connection, here, holds⟩ := (Option.any_eq_true _ _).mp connected
    exact references.credentials target connection secret here (of_decide_eq_true holds)

end Run

/-- The row of the restore is there and resolves to what it resolved to when it was
created. -/
def ResolvesAlike (platform : Platform) (restore : Uuid) (created later : World) : Prop :=
  ∃ run after, created.db.restoreRuns.get? restore = some run ∧
    later.db.restoreRuns.get? restore = some after ∧
    ((resolveForRestore platform after).run later).1 =
      ((resolveForRestore platform run).run created).1

/-- The connection of the restore and its credentials are as they were. -/
def ConnectionUnchanged (restore : Uuid) (created later : World) : Prop :=
  ∀ run target row, created.db.restoreRuns.get? restore = some run →
    run.targetId = some target → created.db.targets.get? target = some row →
    later.db.targets.get? target = some row ∧
      ∀ secret, row.credentialSecretId = some secret →
        later.db.secrets.get? secret = created.db.secrets.get? secret

/-- **A restore stays pinned.** In every run of successful edits and removals of jobs and
removals of connections after a restore was created, none of which writes or deletes a secret
the restore reads or removes its connection, its row is there and resolves to what it
resolved to when it was created. -/
theorem restore_stays_pinned {editing : Editing} {user : RequestUser} {dto : CreateRestoreDto}
    {before created later : World} {restore : Uuid} (references : before.db.Referential)
    (creates : (createRestore user dto).run before = (.ok restore, created))
    (steps : (pinning editing).Steps (Spares restore) created later) :
    ResolvesAlike editing.platform restore created later := by
  obtain ⟨run, row, pinned⟩ := pinned_of_created references creates
  have kept : Pinned restore run.ref created.db later := by
    refine steps.stable (Pinned restore run.ref created.db) (.initial trivial) ?_ pinned
    intro world action next _ here spares moved
    exact here.step spares moved
  obtain ⟨after, found, same⟩ := Option.map_eq_some_iff.mp kept.row
  refine ⟨run, after, row, found, ?_⟩
  change resolveRepo editing.platform later.db after.ref =
    resolveRepo editing.platform created.db run.ref
  rw [same]
  exact resolveRepo_of_reads (fun secret read => (kept.secrets secret read).1) kept.target

/-- One job with a repository on the server's own filesystem. -/
def oneJob : World where
  now := 0
  db := {
    secrets := .ofList [(0, ⟨.repoPassword, "old", aadFor 0⟩)]
    repositories := .ofList [(0, {
      name := "nightly", targetId := none, repoConfig := [("path", .text "/backup")]
      repoPasswordSecretId := 0 })]
    backupJobs := .ofList [(0, {
      name := "nightly", location := .«local», repositoryId := 0 })] }

def download : CreateRestoreDto where
  jobId := 0
  snapshotId := "latest"
  mode := .download

theorem oneJob_referential : oneJob.db.Referential where
  passwords := by
    have checked : ∀ entry ∈ oneJob.db.repositories.rows,
        (oneJob.db.secrets.get? entry.2.repoPasswordSecretId).isSome := by decide
    intro id repository found
    exact checked (id, repository) (Table.mem_rows.mpr found)
  overrides := by
    have checked : ∀ entry ∈ oneJob.db.repositories.rows,
        entry.2.credentialSecretId = none := by decide
    intro id repository secret found override
    have absent := checked (id, repository) (Table.mem_rows.mpr found)
    cases absent.symm.trans override
  credentials := by
    intro id target secret found
    exact absurd (Table.mem_rows.mpr found) List.not_mem_nil

/-- The repository and the password a restore resolves to. -/
def resolvesTo (world : World) (restore : Uuid) : Option (String × String) :=
  (world.db.restoreRuns.get? restore).bind fun run =>
    ((resolveForRestore vault.platform run).run world).1.toOption.map fun resolved =>
      (resolved.repository, resolved.password)

/-- The state after the restore of the one job was created. -/
def restoreCreated : World :=
  ((createRestore admin download).run oneJob).2

theorem creates_restore :
    (createRestore admin download).run oneJob = (.ok 0, restoreCreated) :=
  rfl

theorem ResolvesAlike.resolvesTo {restore : Uuid} {created later : World}
    (alike : ResolvesAlike vault.platform restore created later) :
    resolvesTo later restore = resolvesTo created restore := by
  obtain ⟨run, after, before, found, same⟩ := alike
  unfold AmberBackup.resolvesTo
  rw [before, found, Option.bind_some, Option.bind_some, same]

/-- The password of the job is changed while the restore waits: the restore then resolves to
the new password. -/
theorem password_edit_reaches_restore :
    ¬ ∀ (editing : Editing) (user : RequestUser) (dto : CreateRestoreDto)
        (before created later : World) (restore : Uuid), before.db.Referential →
      (createRestore user dto).run before = (.ok restore, created) →
      (pinning editing).Steps (fun _ _ => True) created later →
      ConnectionUnchanged restore created later →
      ResolvesAlike editing.platform restore created later := by
  intro claim
  have ends : ((pinning vault).runWithin (fun _ _ => True) restoreCreated
      [.updateJob admin 0 { repoPassword := some "new" }]).any
        (fun later => resolvesTo later 0 = some ("/backup", "new")) = true := by
    decide +kernel
  obtain ⟨later, ran, resolved⟩ := (Option.any_eq_true _ _).mp ends
  have unconnected : ConnectionUnchanged 0 restoreCreated later := by
    intro run target row found connection
    cases found
    cases connection
  have alike := claim vault admin download oneJob _ later 0 oneJob_referential
    creates_restore (System.steps_of_runWithin ran) unconnected
  have kept := alike.resolvesTo
  rw [of_decide_eq_true resolved] at kept
  exact absurd kept (by decide +kernel)

/-- The job moves to another path: the restore still resolves to the path it was created
with. -/
theorem moved_job_keeps_restore :
    ∃ later, (pinning vault).Steps (Spares 0) restoreCreated later ∧
      (later.db.repositories.get? 0).map Repository.repoConfig =
        some [("path", .text "/elsewhere")] ∧
      ResolvesAlike vault.platform 0 restoreCreated later := by
  have ends : ((pinning vault).runWithin (Spares 0) restoreCreated
      [.updateJob admin 0 { repoConfig := some [("path", .text "/elsewhere")] }]).any
        (fun later => (later.db.repositories.get? 0).map Repository.repoConfig =
          some [("path", .text "/elsewhere")]) = true := by
    decide +kernel
  obtain ⟨later, ran, moved⟩ := (Option.any_eq_true _ _).mp ends
  have steps := System.steps_of_runWithin ran
  exact ⟨later, steps, of_decide_eq_true moved,
    restore_stays_pinned oneJob_referential creates_restore steps⟩

end AmberBackup
