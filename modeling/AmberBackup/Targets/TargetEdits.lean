import AmberBackup.Jobs.JobEdits

/-! # Creating, editing and deleting connections

The calls that write a connection. Creating one is open to every user: who creates it
manages it. Any other call asserts the user's access to the connection first.
-/

namespace AmberBackup

open Relational

structure CreateTargetDto where
  name : String
  backendType : String
  config : Config
  deriving DecidableEq, Repr

structure UpdateTargetDto where
  name : Option String := none
  config : Option Config := none
  deriving DecidableEq, Repr

/-- An SSH key pair the server generates for a connection. -/
structure KeyPair where
  privateKey : String
  publicKey : String
  deriving DecidableEq, Repr

/-- What a probe of a connection's endpoint comes to. -/
structure HealthOutcome where
  status : TargetStatus
  error : Option String
  deriving DecidableEq, Repr

/-- SFTP options are refused where they could be read as options of ssh. -/
def assertSafeConfig (backendType : String) (config : Config) : Except Failure Unit :=
  if backendType = "sftp" then
    match assertSafeSftpConfig config with
    | .ok _ => .ok ()
    | .error failure =>
        match failure with
        | .notFound message | .forbidden message | .badRequest message | .unauthorized message
        | .conflict message | .error message => .error (.badRequest message)
  else .ok ()

/-- The config and the credentials a new connection is entered with. -/
def targetForm (dto : CreateTargetDto) : Except Failure (Config × Fields) := do
  let _ ← getBackend dto.backendType
  let (config, credentials) ← splitConfig dto.backendType dto.config
  assertSafeConfig dto.backendType config
  return (config, credentials)

/-- An SFTP connection without a private key gets a generated one; the public key is shown
in its config. -/
def withKeyPair (backendType : String) (pair : KeyPair) (form : Config × Fields) :
    Config × Fields :=
  if backendType = "sftp" && credential "privateKey" form.2 "" = "" then
    (form.1 ++ [("publicKey", .text pair.publicKey)],
      form.2 ++ [("privateKey", pair.privateKey)])
  else form

section Calls

variable (editing : Editing) (user : RequestUser)

def createCredentials (credentials : Fields) : Service (Option Uuid) :=
  if credentials = [] then return none
  else do
    let secret ← Secrets.create editing .backendCredential
      (editing.renderCredentials credentials)
    return some secret

def insertTarget (dto : CreateTargetDto) (config : Config) (credentialSecretId : Option Uuid) :
    Service Uuid := ⟨fun world =>
  let target := freshId world.db.targets
  (.ok target,
    { world with
      db := { world.db with
        targets := world.db.targets.insert target {
          name := dto.name, backendType := dto.backendType, config, credentialSecretId
          updatedAt := world.now } } })⟩

/-- `onConflict.doNothing`: a grant of the user on the resource stays as it is. -/
def insertGrant (grant : ResourceGrant) : Service Unit :=
  .write fun world =>
    if (world.db.grant grant.userId grant.resourceType grant.resourceId).isSome then world
    else { world with
      db := { world.db with resourceGrants := world.db.resourceGrants ++ [grant] } }

/-- The owner manages the connection; an administrator does so without a grant. -/
def grantOwner (target : Uuid) : Service Unit :=
  if user.isAdmin then pure ()
  else insertGrant {
    userId := user.id, resourceType := .target, resourceId := target, accessLevel := .manage }

/-- `TargetsService.create`. -/
def createTarget (dto : CreateTargetDto) (pair : KeyPair) : Service Uuid := do
  let form ← .lift fun _ => targetForm dto
  let (config, credentials) := withKeyPair dto.backendType pair form
  let credentialSecretId ← createCredentials editing credentials
  let target ← insertTarget dto config credentialSecretId
  grantOwner user target
  return target

def getTarget (id : Uuid) : Service Target := .lift fun world => getTargetRow world.db id

/-- The config and the credentials an edit enters. The public key is no field of the form
and is carried over. -/
def editedForm (target : Target) (values : Config) : Except Failure (Config × Fields) := do
  let (config, credentials) ← splitConfig target.backendType values
  assertSafeConfig target.backendType config
  let carried :=
    match lookupLast "publicKey" target.config with
    | some key => if target.backendType = "sftp" then [("publicKey", key)] else []
    | none => []
  return (config ++ carried, credentials)

/-- Replaces the credentials of a connection, in its secret if it has one; returns the
column where it is written. -/
def replaceCredentials (target : Target) (credentials : Fields) :
    Service (Option (Option Uuid)) :=
  if credentials = [] then return none
  else
    match target.credentialSecretId with
    | some secret => do
        Secrets.update editing secret (editing.renderCredentials credentials)
        return none
    | none => do
        let secret ← Secrets.create editing .backendCredential
          (editing.renderCredentials credentials)
        return some (some secret)

/-- The config and the credential column an edit writes. -/
def editTargetConfig (target : Target) :
    Option Config → Service (Option Config × Option (Option Uuid))
  | none => return (none, none)
  | some values => do
      let (config, credentials) ← .lift fun _ => editedForm target values
      let column ← replaceCredentials editing target credentials
      return (some config, column)

def writeTarget (id : Uuid) (name : Option String) (config : Option Config)
    (column : Option (Option Uuid)) : Service Unit :=
  .write fun world =>
    { world with
      db := { world.db with
        targets := world.db.targets.update (fun other _ => other = id) fun target =>
          { target with
            name := name.getD target.name
            config := config.getD target.config
            credentialSecretId := column.getD target.credentialSecretId
            updatedAt := world.now } } }

/-- `TargetsService.update`. -/
def updateTarget (id : Uuid) (dto : UpdateTargetDto) : Service Unit := do
  assertAcl user .target id .manage
  let target ← getTarget id
  let (config, column) ← editTargetConfig editing target dto.config
  writeTarget id dto.name config column

/-- A connection is shared: it stays while repositories live on it. -/
def assertUnused (id : Uuid) : Service Unit :=
  .lift fun world =>
    if world.db.repositories.anyWhere fun _ row => row.targetId = some id then
      .error (.conflict "This connection is still used by one or more backup jobs")
    else .ok ()

/-- A restore on the connection loses it. -/
def deleteTarget (id : Uuid) : Service Unit :=
  .write fun world =>
    { world with
      db := { world.db with
        targets := world.db.targets.delete fun other _ => other = id
        restoreRuns := world.db.restoreRuns.update (fun _ run => run.targetId = some id)
          fun run => { run with targetId := none } } }

/-- `TargetsService.remove`. -/
def removeTarget (id : Uuid) : Service Unit := do
  assertAcl user .target id .manage
  let target ← getTarget id
  assertUnused id
  deleteTarget id
  Secrets.removeOptional target.credentialSecretId

/-- `TargetHealthService.refresh`. -/
def writeHealth (id : Uuid) (outcome : HealthOutcome) : Service Unit :=
  .write fun world =>
    { world with
      db := { world.db with
        targets := world.db.targets.update (fun other _ => other = id) fun target =>
          { target with
            status := outcome.status, lastCheckAt := some world.now
            lastCheckError := outcome.error } } }

/-- The probe of a connection, behind the view access of its route. -/
def checkTarget (id : Uuid) (outcome : HealthOutcome) : Service Unit := do
  assertAcl user .target id .view
  let _ ← getTarget id
  writeHealth id outcome

end Calls

end AmberBackup
