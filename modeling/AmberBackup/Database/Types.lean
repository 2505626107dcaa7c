import AmberBackup.Lib.Table

/-! # Database schema

The rows of the tables the server's backup, restore and access logic works on, with
the columns that logic reads or writes. Identifiers and instants are natural numbers
(an instant counts milliseconds). A JSON column that is only stored and handed on is
kept as its text; one the code looks into is a structure of its own.
-/

namespace AmberBackup

open Relational

abbrev Uuid := Nat

inductive ResourceType where
  | target | source | job
  deriving DecidableEq, Repr

inductive AccessLevel where
  | view | operate | manage
  deriving DecidableEq, Repr

inductive AgentStatus where
  | enrolled | online | offline | error
  deriving DecidableEq, Repr

inductive SourceLocation where
  | «local» | agent
  deriving DecidableEq, Repr

inductive RunTrigger where
  | schedule | manual
  deriving DecidableEq, Repr

/-- What a `job_runs` row records: a backup, a `restic prune` or a `restic check`. -/
inductive RunKind where
  | backup | prune | check
  deriving DecidableEq, Repr

inductive RunStatus where
  | queued | running | success | failed | cancelled
  deriving DecidableEq, Repr

/-- Queued or running. -/
def RunStatus.active : RunStatus → Bool
  | .queued | .running => true
  | .success | .failed | .cancelled => false

inductive RestoreMode where
  | original | alternatePath | download
  deriving DecidableEq, Repr

inductive SecretType where
  | repoPassword | backendCredential | notificationCredential
  deriving DecidableEq, Repr

inductive IntegrityLevel where
  | quick | rotating | full
  deriving DecidableEq, Repr

inductive CheckStatus where
  | passed | damaged
  deriving DecidableEq, Repr

/-- A JSON value of a connection or repository form, by the kinds its readers tell
apart. `other` is an object or array, by the text `String(v)` gives for it. -/
inductive Value where
  | null
  | text (text : String)
  | number (number : Int)
  | boolean (flag : Bool)
  | other (text : String)
  deriving DecidableEq, Repr

/-- `Record<string, unknown>`: the last entry of a name counts. -/
abbrev Config := List (String × Value)

/-- `Record<string, string>`. -/
abbrev Fields := List (String × String)

structure ApiKeyScopes where
  actions : List String
  resources : Option (List (ResourceType × Uuid)) := none
  deriving DecidableEq, Repr

/-- The authenticated principal of a request. -/
structure RequestUser where
  id : Uuid
  isAdmin : Bool
  /-- Present only for API-key authentication. -/
  apiKeyScopes : Option ApiKeyScopes := none
  deriving DecidableEq, Repr

structure ResourceGrant where
  userId : Uuid
  resourceType : ResourceType
  resourceId : Uuid
  accessLevel : AccessLevel
  deriving DecidableEq, Repr

structure Secret where
  type : SecretType
  ciphertext : String
  nonce : String
  deriving DecidableEq, Repr

inductive TargetStatus where
  | online | offline | unknown
  deriving DecidableEq, Repr

/-- A shared backend connection. -/
structure Target where
  name : String := ""
  backendType : String
  config : Config
  credentialSecretId : Option Uuid
  /-- Reachability of the backend endpoint. -/
  status : TargetStatus := .unknown
  lastCheckAt : Option Nat := none
  lastCheckError : Option String := none
  updatedAt : Nat := 0
  deriving DecidableEq, Repr

/-- A job's restic repository. -/
structure Repository where
  name : String
  /-- `none` is a repository on the local filesystem. -/
  targetId : Option Uuid
  repoConfig : Config
  repoPasswordSecretId : Uuid
  /-- Override of the connection's overridable credentials. -/
  credentialSecretId : Option Uuid := none
  sizeBytes : Option Nat := none
  snapshotCount : Option Nat := none
  statsAt : Option Nat := none
  statsError : Option String := none
  /-- A refresh waiting for the agent's next poll. -/
  statsRequestedAt : Option Nat := none
  checkStatus : Option CheckStatus := none
  checkAt : Option Nat := none
  checkLevel : Option IntegrityLevel := none
  checkError : Option String := none
  dataVerifiedAt : Option Nat := none
  checkSubsetNext : Nat := 1
  checkSubsetParts : Option Nat := none
  updatedAt : Nat := 0
  deriving DecidableEq, Repr

/-- One reading of a repository's figures. -/
structure RepositoryStatsHistory where
  repositoryId : Uuid
  measuredAt : Nat
  sizeBytes : Nat
  snapshotCount : Nat
  deriving DecidableEq, Repr

structure Agent where
  name : String
  status : AgentStatus := .enrolled
  lastSeenAt : Option Nat := none
  agentVersion : Option String := none
  resticVersion : Option String := none
  pollIntervalSeconds : Nat := 30
  lastIp : Option String := none
  updatedAt : Nat := 0
  deriving DecidableEq, Repr

/-- The retention rules of a job. -/
structure Retention where
  keepLast : Option Int := none
  keepHourly : Option Int := none
  keepDaily : Option Int := none
  keepWeekly : Option Int := none
  keepMonthly : Option Int := none
  keepYearly : Option Int := none
  keepWithin : Option String := none
  keepTags : Option (List String) := none
  prune : Option Bool := none
  deriving DecidableEq, Repr

inductive Compression where
  | auto | max | off
  deriving DecidableEq, Repr

structure ResticOptions where
  tags : Option (List String) := none
  exclude : Option (List String) := none
  iexclude : Option (List String) := none
  excludeFile : Option (List String) := none
  oneFileSystem : Option Bool := none
  excludeCaches : Option Bool := none
  excludeLargerThan : Option String := none
  compression : Option Compression := none
  readConcurrency : Option Int := none
  retention : Option Retention := none
  preScript : Option String := none
  postSuccessScript : Option String := none
  postFailureScript : Option String := none
  deriving DecidableEq, Repr

/-- A job's integrity check schedule. -/
structure IntegrityCheckConfig where
  enabled : Option Bool := none
  cronExpr : Option String := none
  level : Option IntegrityLevel := none
  subsetParts : Option Nat := none
  deriving DecidableEq, Repr

/-- Which notification channels a job fires, and on which outcomes. -/
structure JobNotifyConfig where
  channelIds : List Uuid := []
  onSuccess : Bool := false
  onFailure : Bool := false
  deriving DecidableEq, Repr

structure BackupJob where
  name : String
  location : SourceLocation
  agentId : Option Uuid := none
  paths : List String := []
  repositoryId : Uuid
  cronExpr : String := ""
  resticOptions : ResticOptions := {}
  notify : JobNotifyConfig := {}
  integrityCheck : IntegrityCheckConfig := {}
  /-- How often a failed backup is retried (0 = never). -/
  retryMax : Nat := 0
  /-- Wait before each retry, in seconds. -/
  retryDelaySeconds : Nat := 300
  enabled : Bool := true
  updatedAt : Nat := 0
  deriving DecidableEq, Repr

/-- What an integrity check run verified. -/
structure CheckInfo where
  level : IntegrityLevel
  /-- For a rotating check: the part of the data read by this run. -/
  part : Option Nat := none
  parts : Option Nat := none
  /-- Set once finished: restic reported repository errors. -/
  damaged : Option Bool := none
  deriving DecidableEq, Repr

structure JobRun where
  jobId : Uuid
  kind : RunKind := .backup
  /-- For a prune started by a backup's retention: that backup run. -/
  parentRunId : Option Uuid := none
  checkInfo : Option CheckInfo := none
  trigger : RunTrigger
  status : RunStatus := .queued
  /-- 1 for the first try of a backup; a retry counts on from its predecessor. -/
  attempt : Nat := 1
  /-- For a retry: the failed run it repeats. -/
  retryOfRunId : Option Uuid := none
  /-- A queued retry does not start before this time. -/
  notBefore : Option Nat := none
  /-- Set when dispatched to an agent. -/
  agentId : Option Uuid := none
  startedAt : Option Nat := none
  finishedAt : Option Nat := none
  snapshotId : Option String := none
  stats : Option String := none
  forgetResult : Option String := none
  log : Option String := none
  error : Option String := none
  createdAt : Nat
  deriving DecidableEq, Repr

structure RestoreOptions where
  overwrite : Option String := none
  verify : Option Bool := none
  delete : Option Bool := none
  dryRun : Option Bool := none
  includes : Option (List String) := none
  excludes : Option (List String) := none
  deriving DecidableEq, Repr

structure RestoreDestination where
  /-- For the original or an alternate path: the filesystem path. -/
  path : Option String := none
  /-- When restoring onto an agent host. -/
  agentId : Option Uuid := none
  /-- For a download: the artifact on the server. -/
  downloadRef : Option String := none
  deriving DecidableEq, Repr

structure RestoreRun where
  targetId : Option Uuid
  jobId : Option Uuid
  repoConfig : Config
  repoPasswordSecretId : Uuid
  credentialSecretId : Option Uuid
  snapshotId : String
  includedPaths : Option (List String) := none
  mode : RestoreMode
  destination : RestoreDestination := {}
  options : RestoreOptions := {}
  status : RunStatus := .queued
  agentId : Option Uuid := none
  startedAt : Option Nat := none
  finishedAt : Option Nat := none
  stats : Option String := none
  downloadExpiresAt : Option Nat := none
  log : Option String := none
  error : Option String := none
  initiatedBy : Uuid
  createdAt : Nat
  deriving DecidableEq, Repr

structure NotificationChannel where
  name : String
  type : String
  config : Config := []
  secretId : Option Uuid := none
  enabled : Bool
  deriving DecidableEq, Repr

/-- The tables. -/
structure Db where
  resourceGrants : List ResourceGrant := []
  secrets : Table Uuid Secret := .empty
  targets : Table Uuid Target := .empty
  repositories : Table Uuid Repository := .empty
  repositoryStatsHistory : List RepositoryStatsHistory := []
  agents : Table Uuid Agent := .empty
  backupJobs : Table Uuid BackupJob := .empty
  jobRuns : Table Uuid JobRun := .empty
  restoreRuns : Table Uuid RestoreRun := .empty
  notificationChannels : Table Uuid NotificationChannel := .empty

end AmberBackup
