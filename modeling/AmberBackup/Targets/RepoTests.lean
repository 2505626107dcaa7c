import AmberBackup.Jobs.JobEdits

/-! # Testing a repository

A repository is tested from a form that need not be saved: on a saved connection, on a
connection the form describes, or on the server's own filesystem, which is what a form
without either means. Where restic looks for a repository is in its name: the name that any
backend but `local` builds begins with the scheme of that backend (`remote_of_assemble`).
-/

namespace AmberBackup

open Relational

structure TestRepoDto where
  targetId : Option Uuid := none
  backendType : Option String := none
  targetConfig : Option Config := none
  repoConfig : Option Config := none
  repoCredentials : Option Fields := none
  repoPassword : String
  deriving DecidableEq, Repr

/-- Resolves a repository from a form: on a saved connection, with its credentials, or on
one the form describes, a local repository where it describes none. -/
def resolveRepoAdHoc (platform : Platform) (db : Db) (input : TestRepoDto) :
    Except Failure ResolvedTarget :=
  let repoConfig := input.repoConfig.getD []
  let overrides := input.repoCredentials.getD []
  match input.targetId with
  | some targetId => do
      let target ← getTargetRow db targetId
      let credentials ← revealCredentials platform db target.credentialSecretId
      assemble target.backendType target.config credentials repoConfig input.repoPassword
        (some targetId) overrides
  | none => do
      let backendType := input.backendType.getD "local"
      let (config, credentials) ← splitConfig backendType (input.targetConfig.getD [])
      assemble backendType config credentials repoConfig input.repoPassword none overrides

/-- The user sees the saved connection a form names. -/
def assertViewed (user : RequestUser) : Option Uuid → Service Unit
  | none => pure ()
  | some target => do
      assertAcl user .target target .view
      let _ ← Procedure.lift fun world => getTargetRow world.db target

/-- `JobsController.testRepo`, up to the start of restic. -/
def testRepo (platform : Platform) (user : RequestUser) (dto : TestRepoDto) :
    Service ResolvedTarget := do
  assertViewed user dto.targetId
  .lift fun world => resolveRepoAdHoc platform world.db dto

/-! ## Where a repository is -/

/-- What the name of a repository begins with that is not on the filesystem. -/
def remoteSchemes : List String :=
  ["sftp:", "rest:", "s3:", "b2:", "azure:", "gs:", "swift:", "rclone:"]

/-- restic takes any other name for a path of its own filesystem. -/
def isRemote (repository : String) : Bool :=
  remoteSchemes.any fun scheme => scheme.toList.isPrefixOf repository.toList

theorem isRemote_append {scheme : String} (rest : String) (listed : scheme ∈ remoteSchemes) :
    isRemote (scheme ++ rest) = true := by
  refine List.any_eq_true.mpr ⟨scheme, listed, ?_⟩
  rw [List.isPrefixOf_iff_prefix, String.toList_append]
  exact List.prefix_append _ _

/-- Every backend but `local` names its repositories with its scheme. -/
theorem isRemote_of_build {definition : BackendDefinition} (listed : definition ∈ backends)
    (other : definition.type ≠ "local") {config : Config} {credentials : Fields}
    {repoConfig : Config} {backend : ResolvedBackend}
    (built : definition.build config credentials repoConfig = .ok backend) :
    isRemote backend.repository = true := by
  simp only [backends, List.mem_cons, List.not_mem_nil, or_false] at listed
  rcases listed with rfl | rfl | rfl | rfl | rfl | rfl | rfl | rfl | rfl
  · exact absurd rfl other
  · simp only [sftpBackend, bind, Except.bind] at built
    split at built
    · cases built
    · split at built <;> cases built
      all_goals
        simp only [String.append_assoc]
        exact isRemote_append _ (by decide)
  all_goals cases built
  on_goal -1 => dsimp only; split
  all_goals
    try simp only [String.append_assoc]
    exact isRemote_append _ (by decide)

section Resolving

variable {platform : Platform} {db : Db} {resolved : ResolvedTarget}

/-- A repository that is not of the `local` backend is not on the filesystem. -/
theorem remote_of_assemble {backendType : String} {config : Config} {credentials : Fields}
    {repoConfig : Config} {password : String} {targetId : Option Uuid} {overrides : Fields}
    (assembled : assemble backendType config credentials repoConfig password targetId overrides =
      .ok resolved) :
    resolved.targetId = targetId ∧
      (backendType ≠ "local" → isRemote resolved.repository = true) := by
  obtain ⟨definition, found, rest⟩ := of_bind_eq_ok assembled
  obtain ⟨backend, built, same⟩ := of_bind_eq_ok rest
  cases same
  refine ⟨rfl, fun other => ?_⟩
  have type := getBackend_type found
  exact isRemote_of_build (mem_of_getBackend found) (type.trans_ne other) built

/-- What a resolved repository says about the connection it is on. -/
def Resolves (db : Db) (targetId : Option Uuid) (resolved : ResolvedTarget) : Prop :=
  resolved.targetId = targetId ∧ ∀ id, targetId = some id →
    ∃ target, db.targets.get? id = some target ∧
      (target.backendType ≠ "local" → isRemote resolved.repository = true)

theorem getTargetRow_eq_ok {id : Uuid} {target : Target} (found : getTargetRow db id = .ok target) :
    db.targets.get? id = some target := by
  unfold getTargetRow at found
  split at found
  · exact Except.ok.inj found ▸ ‹_›
  · cases found

theorem resolves_of_resolveRepo {ref : RepositoryRef}
    (resolves : resolveRepo platform db ref = .ok resolved) :
    Resolves db ref.targetId resolved := by
  obtain ⟨password, -, rest⟩ := of_bind_eq_ok resolves
  cases connection : ref.targetId with
  | none =>
      rw [connection] at rest
      exact ⟨(remote_of_assemble rest).1, nofun⟩
  | some id =>
      rw [connection] at rest
      obtain ⟨target, found, rest⟩ := of_bind_eq_ok rest
      obtain ⟨credentials, -, rest⟩ := of_bind_eq_ok rest
      obtain ⟨overrides, -, rest⟩ := of_bind_eq_ok rest
      obtain ⟨same, remote⟩ := remote_of_assemble rest
      refine ⟨same, ?_⟩
      rintro _ ⟨⟩
      exact ⟨target, getTargetRow_eq_ok found, remote⟩

theorem resolves_of_resolveRepoAdHoc {dto : TestRepoDto}
    (resolves : resolveRepoAdHoc platform db dto = .ok resolved) :
    Resolves db dto.targetId resolved ∧ (dto.targetId = none →
      dto.backendType.getD "local" ≠ "local" → isRemote resolved.repository = true) := by
  unfold resolveRepoAdHoc at resolves
  cases connection : dto.targetId with
  | none =>
      rw [connection] at resolves
      obtain ⟨⟨config, credentials⟩, -, rest⟩ := of_bind_eq_ok resolves
      obtain ⟨same, remote⟩ := remote_of_assemble rest
      exact ⟨⟨same, nofun⟩, fun _ => remote⟩
  | some id =>
      rw [connection] at resolves
      obtain ⟨target, found, rest⟩ := of_bind_eq_ok resolves
      obtain ⟨credentials, -, rest⟩ := of_bind_eq_ok rest
      obtain ⟨same, remote⟩ := remote_of_assemble rest
      refine ⟨⟨same, ?_⟩, nofun⟩
      rintro _ ⟨⟩
      exact ⟨target, getTargetRow_eq_ok found, remote⟩

end Resolving

end AmberBackup
