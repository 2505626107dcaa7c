import AmberBackup.Restore.RestorePins
import AmberBackup.Targets.RepoTests
import Mathlib.Logic.Function.Basic

/-! # The server's filesystem and saved credentials

An edit of a job asserts that its user may use the connection it names, but lets a repository
move to the server's own filesystem. A test only asserts that the connection is seen, and
without one it looks for the repository on that filesystem. In runs where each test and each
edit with fields of a repository ends on a connection of another backend, and each test on
one its user operates, restic is started on no repository of the filesystem that the user
described, and with the credentials of no connection the user may not use
(`host_boundaries_hold`).
-/

namespace AmberBackup

open Relational Transition

/-- A start of restic by the server. -/
structure ResticStart where
  repository : String
  /-- The saved connection whose credentials restic is given. -/
  connection : Option Uuid
  /-- The fields of the repository came with a request of the user. -/
  described : Bool
  deriving DecidableEq, Repr

structure RepoRequests where
  world : World
  /-- The repositories, and the restores of such, whose fields came with a request of the
  user. -/
  described : Uuid → Bool := fun _ => false
  describedRestores : Uuid → Bool := fun _ => false
  starts : List ResticStart := []

/-- The requests of the user, and the activities they lead to. -/
inductive RepoAction where
  | testRepo (dto : TestRepoDto)
  | updateJob (job : Uuid) (dto : UpdateJobDto)
  | createRestore (requester : RequestUser) (dto : CreateRestoreDto)
  /-- A backup, a check, a prune, a reading or a listing of the job's repository. -/
  | useJob (job : Uuid)
  | useRestore (restore : Uuid)

namespace RepoRequests

def jobRow (state : RepoRequests) (job : Uuid) : Option (BackupJob × Repository) :=
  joined (state.world.db.backupJobs.get? job) fun row =>
    state.world.db.repositories.get? row.repositoryId

def start (state : RepoRequests) (resolved : ResolvedTarget) (described : Bool) : RepoRequests :=
  { state with
    starts := state.starts ++
      [{ repository := resolved.repository, connection := resolved.targetId, described }] }

/-- An accepted action; restic is not started on a repository that does not resolve. -/
def act (editing : Editing) (user : RequestUser) (state : RepoRequests) :
    RepoAction → Option RepoRequests
  | .testRepo dto =>
      match ((testRepo editing.platform user dto).run state.world).1 with
      | .ok resolved => some (state.start resolved dto.repoConfig.isSome)
      | .error _ => none
  | .updateJob job dto =>
      match (updateJob editing user job dto).run state.world, state.jobRow job with
      | (.ok _, world), some (row, _) =>
          some { state with
            world
            described := Function.update state.described row.repositoryId
              (dto.repoConfig.isSome || state.described row.repositoryId) }
      | _, _ => none
  | .createRestore requester dto =>
      match (createRestore requester dto).run state.world, state.jobRow dto.jobId with
      | (.ok restore, world), some (row, _) =>
          some { state with
            world
            describedRestores := Function.update state.describedRestores restore
              (state.described row.repositoryId) }
      | _, _ => none
  | .useJob job =>
      match state.jobRow job with
      | none => none
      | some (row, repository) =>
          match ((resolveForJob editing.platform repository.ref).run state.world).1 with
          | .ok resolved => some (state.start resolved (state.described row.repositoryId))
          | .error _ => none
  | .useRestore restore =>
      match state.world.db.restoreRuns.get? restore with
      | none => none
      | some run =>
          match ((resolveForRestore editing.platform run).run state.world).1 with
          | .ok resolved => some (state.start resolved (state.describedRestores restore))
          | .error _ => none

end RepoRequests

def repoRequests (editing : Editing) (user : RequestUser) : System RepoRequests RepoAction where
  initial state := state.described = (fun _ => false) ∧
    state.describedRestores = (fun _ => false) ∧ state.starts = []
  step := RepoRequests.act editing user

/-- The connection is of another backend than `local`. -/
def isElsewhere (db : Db) (connection : Option Uuid) : Bool :=
  connection.any fun id => (db.targets.get? id).any fun target => target.backendType ≠ "local"

def mayUse (db : Db) (user : RequestUser) (connection : Option Uuid) : Bool :=
  connection.all fun id => can db user .target id .operate

/-- A test that names fields of a repository, and an edit that leaves a repository with fields
of the user, ends off the filesystem, and a test on a connection the user operates. -/
def guardsHost (user : RequestUser) (state : RepoRequests) : RepoAction → Bool
  | .testRepo dto =>
      dto.repoConfig.isNone || mayUse state.world.db user dto.targetId &&
        (if dto.targetId.isSome then isElsewhere state.world.db dto.targetId
        else dto.backendType.getD "local" ≠ "local")
  | .updateJob job dto =>
      (state.jobRow job).all fun (row, repository) =>
        isElsewhere state.world.db (dto.targetId.getD repository.targetId) ||
          !(dto.repoConfig.isSome || dto.targetId.isSome && state.described row.repositoryId)
  | .createRestore .. | .useJob _ | .useRestore _ => true

abbrev GuardsHost (user : RequestUser) (state : RepoRequests) (action : RepoAction) : Prop :=
  guardsHost user state action = true

/-- No repository on the server's filesystem was described by the user, and none on a
connection the user may not use. -/
def WithinBoundaries (user : RequestUser) (state : RepoRequests) : Prop :=
  ∀ start ∈ state.starts, start.described = true →
    isRemote start.repository = true ∧ mayUse state.world.db user start.connection = true

/-! ## A step -/

/-- What the user described is on a connection of another backend that the user may use. -/
structure HostGuarded (user : RequestUser) (state : RepoRequests) : Prop where
  repositories : ∀ id repository, state.world.db.repositories.get? id = some repository →
    state.described id = true →
      isElsewhere state.world.db repository.targetId = true ∧
        mayUse state.world.db user repository.targetId = true
  restores : ∀ id run, state.world.db.restoreRuns.get? id = some run →
    state.describedRestores id = true →
      isElsewhere state.world.db run.targetId = true ∧
        mayUse state.world.db user run.targetId = true
  starts : WithinBoundaries user state

section Step

variable {editing : Editing} {user : RequestUser} {state next : RepoRequests}

/-- Neither depends on anything but the connections and the grants. -/
theorem isElsewhere_congr {db other : Db} (targets : other.targets = db.targets)
    (connection : Option Uuid) : isElsewhere other connection = isElsewhere db connection := by
  unfold isElsewhere
  rw [targets]

theorem mayUse_congr {db other : Db} (grants : other.resourceGrants = db.resourceGrants)
    (connection : Option Uuid) : mayUse other user connection = mayUse db user connection := by
  unfold mayUse can Db.grant
  rw [grants]

theorem Resolves.remote {db : Db} {connection : Option Uuid} {resolved : ResolvedTarget}
    (resolves : Resolves db connection resolved) (elsewhere : isElsewhere db connection = true) :
    isRemote resolved.repository = true := by
  obtain ⟨id, same, other⟩ := (Option.any_eq_true _ _).mp elsewhere
  obtain ⟨target, found, different⟩ := (Option.any_eq_true _ _).mp other
  obtain ⟨row, here, remote⟩ := resolves.2 id same
  rw [found] at here
  obtain rfl := Option.some.inj here
  exact remote (of_decide_eq_true different)

/-- One more start, within the boundaries. -/
theorem HostGuarded.start (guarded : HostGuarded user state) {resolved : ResolvedTarget}
    {described : Bool} (within : described = true →
      isRemote resolved.repository = true ∧
        mayUse state.world.db user resolved.targetId = true) :
    HostGuarded user (state.start resolved described) where
  repositories := guarded.repositories
  restores := guarded.restores
  starts := by
    intro start listed
    rcases List.mem_append.mp listed with before | new
    · exact guarded.starts start before
    · obtain rfl := List.mem_singleton.mp new
      exact within

theorem testRepo_returns {world : World} {dto : TestRepoDto} {resolved : ResolvedTarget}
    (returned : ((testRepo editing.platform user dto).run world).1 = .ok resolved) :
    resolveRepoAdHoc editing.platform world.db dto = .ok resolved := by
  have quiet : (assertViewed user dto.targetId).Within Eq := by
    cases dto.targetId with
    | none => exact Procedure.Within.pure ()
    | some target =>
        refine Procedure.Within.bind (assertAcl_within user _ _ _) fun _ => ?_
        refine Procedure.Within.bind (Procedure.Within.lift _) fun _ => ?_
        exact Procedure.Within.pure ()
  obtain ⟨-, -, after⟩ := Procedure.bind_returns_quiet quiet (Prod.ext returned rfl)
  exact congrArg Prod.fst after

theorem HostGuarded.testRepo (guarded : HostGuarded user state) {dto : TestRepoDto}
    (guards : GuardsHost user state (.testRepo dto))
    (moved : state.act editing user (.testRepo dto) = some next) : HostGuarded user next := by
  simp only [RepoRequests.act] at moved
  split at moved
  case h_2 => cases moved
  case h_1 resolved returned =>
    obtain rfl := Option.some.inj moved
    obtain ⟨resolves, unsaved⟩ := resolves_of_resolveRepoAdHoc (testRepo_returns returned)
    refine guarded.start fun described => ?_
    simp only [GuardsHost, guardsHost, Bool.or_eq_true, Bool.and_eq_true,
      Option.isNone_iff_eq_none] at guards
    obtain ⟨uses, ends⟩ := guards.resolve_left (Option.isSome_iff_ne_none.mp described)
    rw [resolves.1]
    refine ⟨?_, uses⟩
    split at ends
    case isTrue => exact resolves.remote ends
    case isFalse absent =>
      exact unsaved (Option.not_isSome_iff_eq_none.mp absent) (of_decide_eq_true ends)

/-- The place an edit moves a repository to is one the user may use. -/
theorem movedPlace_returns {world : World} {dto : UpdateJobDto} {repository : Repository}
    {place : Option (Option Uuid × Config)}
    (returned : ((movedPlace user dto repository).run world).1 = .ok place) :
    (place = none ∧ dto.targetId = none ∧ dto.repoConfig = none) ∨
      ∃ config, place = some (dto.targetId.getD repository.targetId, config) ∧
        (dto.targetId.isSome || dto.repoConfig.isSome) = true ∧
          mayUse world.db user (dto.targetId.getD repository.targetId) = true := by
  unfold movedPlace at returned
  split at returned
  case isFalse untouched =>
    cases returned
    simp only [Bool.or_eq_true, not_or, Bool.not_eq_true, Option.isSome_eq_false_iff,
      Option.isNone_iff_eq_none] at untouched
    exact .inl ⟨rfl, untouched⟩
  case isTrue named =>
    obtain ⟨backendType, resolved, after⟩ := Procedure.bind_returns_quiet
      (resolveBackendType_within user _) (Prod.ext returned rfl)
    obtain ⟨config, -, after⟩ := Procedure.bind_returns_quiet (Procedure.Within.lift _) after
    obtain rfl := Except.ok.inj (Prod.mk.inj after).1
    refine .inr ⟨config, rfl, named, ?_⟩
    cases connection : dto.targetId.getD repository.targetId with
    | none => rfl
    | some target =>
        rw [connection] at resolved
        unfold resolveBackendType at resolved
        rcases assertAcl_cases world user .target target .operate _ with
          ⟨failure, refused⟩ | ⟨operates, -⟩
        · rw [refused] at resolved
          cases resolved
        · exact operates

/-- The connection of a described repository after an edit. -/
theorem guarded_of_edit {id : Uuid} {repository : Repository} (guarded : state.described id = true →
      isElsewhere state.world.db repository.targetId = true ∧
        mayUse state.world.db user repository.targetId = true)
    {dto : UpdateJobDto} {place : Option (Option Uuid × Config)}
    (guards : isElsewhere state.world.db (dto.targetId.getD repository.targetId) = true ∨
      (dto.repoConfig.isSome || dto.targetId.isSome && state.described id) = false)
    (placed : ((movedPlace user dto repository).run state.world).1 = .ok place)
    (described : (dto.repoConfig.isSome || state.described id) = true) :
    isElsewhere state.world.db ((place.map Prod.fst).getD repository.targetId) = true ∧
      mayUse state.world.db user ((place.map Prod.fst).getD repository.targetId) = true := by
  rcases movedPlace_returns placed with ⟨rfl, -, unnamed⟩ | ⟨config, rfl, named, uses⟩
  · rw [unnamed] at described
    exact guarded described
  · refine ⟨guards.resolve_right ?_, uses⟩
    cases fields : dto.repoConfig with
    | some _ => simp
    | none =>
        rw [fields] at described named
        simp only [Option.isSome_none, Bool.or_false, Bool.false_or] at described named
        simp [described, named]

theorem HostGuarded.updateJob (guarded : HostGuarded user state) {job : Uuid} {dto : UpdateJobDto}
    (guards : GuardsHost user state (.updateJob job dto))
    (moved : state.act editing user (.updateJob job dto) = some next) : HostGuarded user next := by
  simp only [RepoRequests.act] at moved
  split at moved
  case h_2 => cases moved
  case h_1 world row repository returned found =>
    obtain rfl := Option.some.inj moved
    obtain ⟨other, owned, place, edit, middle, edited⟩ := updateJob_returns returned
    obtain ⟨secrets, restores, rfl, kept⟩ := edited.before
    obtain ⟨others, changed, rfl, keeps⟩ := edited.after
    obtain ⟨rfl, rfl⟩ := Prod.mk.inj (Option.some.inj (found.symm.trans edited.found))
    obtain ⟨-, stored⟩ := of_joined found
    simp only [GuardsHost, guardsHost, found, Option.all_some, Bool.or_eq_true,
      Bool.not_eq_true'] at guards
    refine ⟨?_, ?_, guarded.starts⟩
    · intro id after written described
      by_cases same : id = row.repositoryId
      · subst same
        change (state.world.db.repositories.update _ _).get? _ = some after at written
        rw [Table.get?_update_self, stored] at written
        obtain rfl := Option.some.inj written
        rw [RepoPatch.apply_targetId]
        dsimp only at described
        rw [Function.update_self] at described
        exact guarded_of_edit (guarded.repositories _ _ stored) guards edited.placed described
      · change (state.world.db.repositories.update _ _).get? _ = some after at written
        rw [Table.get?_update_of_ne same] at written
        dsimp only at described
        rw [Function.update_of_ne same] at described
        exact guarded.repositories id after written described
    · intro id run present described
      have same := (keeps id).trans (kept id)
      rw [show changed.get? id = some run from present] at same
      obtain ⟨old, before, equal⟩ := Option.map_eq_some_iff.mp same.symm
      rw [← equal]
      exact guarded.restores id old before described

theorem HostGuarded.createRestore (guarded : HostGuarded user state) {requester : RequestUser}
    {dto : CreateRestoreDto}
    (moved : state.act editing user (.createRestore requester dto) = some next) :
    HostGuarded user next := by
  simp only [RepoRequests.act] at moved
  split at moved
  case h_2 => cases moved
  case h_1 restore world row repository created found =>
    obtain rfl := Option.some.inj moved
    obtain ⟨other, owned, here, rfl, rfl⟩ := createRestore_cases created
    obtain ⟨rfl, rfl⟩ := Prod.mk.inj (Option.some.inj (found.symm.trans here))
    obtain ⟨-, stored⟩ := of_joined found
    refine ⟨guarded.repositories, ?_, guarded.starts⟩
    intro id run present described
    by_cases same : id = freshId state.world.db.restoreRuns
    · subst same
      change (state.world.db.restoreRuns.insert _ _).get? _ = some run at present
      rw [Table.get?_insert_self (get?_freshId _)] at present
      obtain rfl := Option.some.inj present
      dsimp only at described
      rw [Function.update_self] at described
      exact guarded.repositories _ _ stored described
    · change (state.world.db.restoreRuns.insert _ _).get? _ = some run at present
      rw [Table.get?_insert_of_ne same] at present
      dsimp only at described
      rw [Function.update_of_ne same] at described
      exact guarded.restores id run present described

theorem HostGuarded.useJob (guarded : HostGuarded user state) {job : Uuid}
    (moved : state.act editing user (.useJob job) = some next) : HostGuarded user next := by
  simp only [RepoRequests.act] at moved
  split at moved
  case h_1 => cases moved
  case h_2 row repository found =>
    split at moved
    case h_2 => cases moved
    case h_1 resolved returned =>
      obtain rfl := Option.some.inj moved
      have resolves := resolves_of_resolveRepo returned
      refine guarded.start fun described => ?_
      obtain ⟨elsewhere, uses⟩ := guarded.repositories _ _ (of_joined found).2 described
      rw [resolves.1]
      exact ⟨resolves.remote elsewhere, uses⟩

theorem HostGuarded.useRestore (guarded : HostGuarded user state) {restore : Uuid}
    (moved : state.act editing user (.useRestore restore) = some next) :
    HostGuarded user next := by
  simp only [RepoRequests.act] at moved
  split at moved
  case h_1 => cases moved
  case h_2 run found =>
    split at moved
    case h_2 => cases moved
    case h_1 resolved returned =>
      obtain rfl := Option.some.inj moved
      have resolves := resolves_of_resolveRepo returned
      refine guarded.start fun described => ?_
      obtain ⟨elsewhere, uses⟩ := guarded.restores _ _ found described
      rw [resolves.1]
      exact ⟨resolves.remote elsewhere, uses⟩

end Step

/-- **The host boundaries hold.** In every run of accepted requests of a user and of the
activities they lead to, in which the tests and the edits end where the condition says, restic
is started on no repository on the server's filesystem whose fields came with a request of the
user, and with the credentials of a saved connection on such a repository only where the user
may operate the connection. -/
theorem host_boundaries_hold {editing : Editing} {user : RequestUser} {state : RepoRequests}
    (reached : (repoRequests editing user).Reachable (GuardsHost user) state) :
    WithinBoundaries user state := by
  have invariant : (repoRequests editing user).Invariant (GuardsHost user)
      (HostGuarded user) := by
    constructor
    · rintro state ⟨none, noRestores, unused⟩
      refine ⟨?_, ?_, ?_⟩
      · intro id repository _ described
        rw [none] at described
        cases described
      · intro id run _ described
        rw [noRestores] at described
        cases described
      · intro start listed
        rw [unused] at listed
        cases listed
    · intro state action next guarded guards moved
      cases action with
      | testRepo dto => exact guarded.testRepo guards moved
      | updateJob job dto => exact guarded.updateJob guards moved
      | createRestore requester dto =>
          exact @HostGuarded.createRestore editing _ _ _ guarded _ _ moved
      | useJob job => exact guarded.useJob moved
      | useRestore restore => exact guarded.useRestore moved
  exact (invariant.holds reached).starts

/-- The credentials of an S3 connection, as they are stored. -/
def storedKeys : String :=
  "\x7b\"accessKeyId\":\"AK\",\"secretAccessKey\":\"SK\"\x7d"

def keyVault : Editing :=
  { vault with
    platform := { vault.platform with
      parseCredentials text :=
        if text = storedKeys then some [("accessKeyId", "AK"), ("secretAccessKey", "SK")]
        else none } }

def jobManager : RequestUser where
  id := 2
  isAdmin := false

def s3Connection (secret : Uuid) : Target where
  name := "offsite"
  backendType := "s3"
  config := [("endpoint", .text "s3.example.org")]
  credentialSecretId := some secret

/-- A job on the second of two connections, a user that manages the job, may operate its
connection and sees the other one. -/
def twoConnections : RepoRequests where
  world := {
    now := 0
    db := {
      resourceGrants := [
        { userId := 2, resourceType := .target, resourceId := 7, accessLevel := .view },
        { userId := 2, resourceType := .target, resourceId := 8, accessLevel := .operate },
        { userId := 2, resourceType := .job, resourceId := 0, accessLevel := .manage }]
      secrets := .ofList [(0, ⟨.repoPassword, "old", aadFor 0⟩),
        (1, ⟨.backendCredential, storedKeys, aadFor 1⟩),
        (2, ⟨.backendCredential, storedKeys, aadFor 2⟩)]
      targets := .ofList [(7, s3Connection 1), (8, s3Connection 2)]
      repositories := .ofList [(0, {
        name := "nightly", targetId := some 8, repoConfig := [("bucket", .text "backups")]
        repoPasswordSecretId := 0 })]
      backupJobs := .ofList [(0, {
        name := "nightly", location := .«local», repositoryId := 0 })] } }

def testOn (target : Uuid) : RepoAction :=
  .testRepo {
    targetId := some target, repoConfig := some [("bucket", .text "mine")], repoPassword := "own" }

/-- A connection the user only sees is given to restic on a bucket of the user's. -/
theorem viewed_connection_used :
    ¬ ∀ (editing : Editing) (user : RequestUser) (state : RepoRequests), user.isAdmin = false →
      (repoRequests editing user).Reachable (fun _ _ => True) state →
      WithinBoundaries user state := by
  intro claim
  have start : (repoRequests keyVault jobManager).initial twoConnections := ⟨rfl, rfl, rfl⟩
  have ends : ((repoRequests keyVault jobManager).runWithin (fun _ _ => True) twoConnections
      [testOn 7]).any (fun state => state.starts.any fun start =>
        start.described && !mayUse state.world.db jobManager start.connection) = true := by
    decide +kernel
  obtain ⟨state, reached, found⟩ := System.exists_reachable start ends
  obtain ⟨start, listed, both⟩ := List.any_eq_true.mp found
  simp only [Bool.and_eq_true, Bool.not_eq_true'] at both
  have within := claim keyVault jobManager state rfl reached start listed both.1
  exact absurd (both.2.symm.trans within.2) Bool.false_ne_true

/-- The user moves the job to a bucket on the connection that may be operated, tests one there,
and both are used. -/
theorem operated_connection_used :
    ∃ state, state.starts.map (fun start => (start.repository, start.described)) =
        [("s3:s3.example.org/mine", true), ("s3:s3.example.org/mine", true)] ∧
      WithinBoundaries jobManager state := by
  have start : (repoRequests keyVault jobManager).initial twoConnections := ⟨rfl, rfl, rfl⟩
  have ends : ((repoRequests keyVault jobManager).runWithin (GuardsHost jobManager) twoConnections
      [.updateJob 0 { repoConfig := some [("bucket", .text "mine")] }, .useJob 0,
        testOn 8]).any (fun state => state.starts.map (fun start =>
          (start.repository, start.described)) =
        [("s3:s3.example.org/mine", true), ("s3:s3.example.org/mine", true)]) = true := by
    decide +kernel
  obtain ⟨state, reached, told⟩ := System.exists_reachable start ends
  exact ⟨state, of_decide_eq_true told, host_boundaries_hold reached⟩

end AmberBackup
