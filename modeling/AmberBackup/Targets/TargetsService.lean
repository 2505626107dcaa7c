import AmberBackup.Database.Service

/-! # Resolving repositories

A repository is resolved from its connection, its own config, its password secret and
its credential override. Resolving fails when a secret is missing or cannot be
decrypted, when the connection is gone, or when the backend refuses the config; it
writes nothing, and it does not depend on the run tables (`resolveRepo_congr`).
-/

namespace AmberBackup

open Relational

/-- What the services use of the runtime: decryption, the parser of stored credential
maps, restic and the server's configuration. -/
structure Platform where
  /-- AES-GCM decryption of a ciphertext and nonce under optional associated data. -/
  decrypt : String → String → Option String → Option String
  /-- `JSON.parse` of a credential secret. -/
  parseCredentials : String → Option Fields
  /-- `restic snapshots` and `restic stats` of a repository: its size and number of
  snapshots, or why reading them failed. -/
  readFigures : String → Except String (Option Nat × Nat)
  publicBaseUrl : String
  /-- The agent version bundled with the server. -/
  latestAgentVersion : Option String := none

/-- A resolved repository ready to hand to restic. -/
structure ResolvedTarget where
  /-- The connection; `none` for a local repository or an unsaved connection. -/
  targetId : Option Uuid
  repository : String
  password : String
  env : Fields
  credentialFiles : List CredentialFile
  extraArgs : Option (List String)
  deriving DecidableEq, Repr

/-- The columns a repository is resolved from. -/
structure RepositoryRef where
  targetId : Option Uuid
  repoConfig : Config
  repoPasswordSecretId : Uuid
  credentialSecretId : Option Uuid
  deriving DecidableEq, Repr

def Repository.ref (repository : Repository) : RepositoryRef where
  targetId := repository.targetId
  repoConfig := repository.repoConfig
  repoPasswordSecretId := repository.repoPasswordSecretId
  credentialSecretId := repository.credentialSecretId

def RestoreRun.ref (run : RestoreRun) : RepositoryRef where
  targetId := run.targetId
  repoConfig := run.repoConfig
  repoPasswordSecretId := run.repoPasswordSecretId
  credentialSecretId := run.credentialSecretId

section Secrets

variable (platform : Platform) (db : Db)

/-- Associated data binding a ciphertext to its own row. -/
def aadFor (id : Uuid) : String := "secret:" ++ toString id

/-- Decrypts a secret; one written before the associated data was bound carries none. -/
def reveal (id : Uuid) : Except Failure String :=
  match db.secrets.get? id with
  | none => .error (.notFound ("Secret " ++ toString id ++ " not found"))
  | some row =>
      match platform.decrypt row.ciphertext row.nonce (some (aadFor id)) with
      | some plaintext => .ok plaintext
      | none =>
          match platform.decrypt row.ciphertext row.nonce none with
          | some plaintext => .ok plaintext
          | none => .error (.error "Unsupported state or unable to authenticate data")

/-- Decrypts a credential secret into its field map, empty when there is none. -/
def revealCredentials : Option Uuid → Except Failure Fields
  | none => .ok []
  | some id => do
      let plaintext ← reveal platform db id
      match platform.parseCredentials plaintext with
      | some fields => return fields
      | none => throw (.error "Unexpected token in JSON")

/-- The connection's row. -/
def getTargetRow (id : Uuid) : Except Failure Target :=
  match db.targets.get? id with
  | some target => .ok target
  | none => .error (.notFound "Target not found")

/-- Assembles a resolved repository from decrypted parts; the override's keys win over
the connection's credentials. -/
def assemble (backendType : String) (config : Config) (credentials : Fields)
    (repoConfig : Config) (password : String) (targetId : Option Uuid)
    (overrides : Fields := []) : Except Failure ResolvedTarget := do
  let definition ← getBackend backendType
  let backend ← definition.build config (credentials ++ overrides) repoConfig
  return {
    targetId, repository := backend.repository, password, env := backend.env,
    credentialFiles := backend.credentialFiles, extraArgs := backend.extraArgs }

/-- Combines a connection, or none for a local repository, with a repository's config
and password. -/
def resolveRepo (ref : RepositoryRef) : Except Failure ResolvedTarget := do
  let password ← reveal platform db ref.repoPasswordSecretId
  match ref.targetId with
  | none => assemble "local" [] [] ref.repoConfig password none
  | some targetId =>
      let target ← getTargetRow db targetId
      let credentials ← revealCredentials platform db target.credentialSecretId
      let overrides ← revealCredentials platform db ref.credentialSecretId
      assemble target.backendType target.config credentials ref.repoConfig password
        (some targetId) overrides

end Secrets

/-- Resolves the repository a backup job writes to. -/
def resolveForJob (platform : Platform) (ref : RepositoryRef) : Service ResolvedTarget :=
  .lift fun world => resolveRepo platform world.db ref

/-- Resolves the repository a restore run reads from. -/
def resolveForRestore (platform : Platform) (run : RestoreRun) : Service ResolvedTarget :=
  .lift fun world => resolveRepo platform world.db run.ref

/-- Resolving reads secrets and connections only. -/
theorem resolveRepo_congr (platform : Platform) {db other : Db} (ref : RepositoryRef)
    (secrets : other.secrets = db.secrets) (targets : other.targets = db.targets) :
    resolveRepo platform other ref = resolveRepo platform db ref := by
  have revealed : ∀ id, reveal platform other id = reveal platform db id := by
    intro id
    simp only [reveal, secrets]
  have credentials : ∀ id, revealCredentials platform other id =
      revealCredentials platform db id := by
    intro id
    cases id with
    | none => rfl
    | some id => simp only [revealCredentials, revealed]
  simp only [resolveRepo, revealed, credentials, getTargetRow, targets]

end AmberBackup
