import AmberBackup.Database.Types
import AmberBackup.Lib.Lookup

/-! # Backend registry

The supported restic backends: the fields of their forms and how the repository
string, environment, credential files and extra arguments of a restic invocation are
built from the connection's half and the repository's half of a configuration. The
`local` backend is standalone: it has no connection, and its repository string is the
path of the repository's own half (`build_local`).
-/

namespace AmberBackup

/-- What a service throws: an HTTP exception or a plain error, with its text. -/
inductive Failure where
  | notFound (message : String)
  | forbidden (message : String)
  | badRequest (message : String)
  | unauthorized (message : String)
  | conflict (message : String)
  | error (message : String)
  deriving DecidableEq, Repr

theorem of_bind_eq_ok {α β : Type} {result : Except Failure α} {rest : α → Except Failure β}
    {value : β} (succeeds : (result >>= rest) = .ok value) :
    ∃ intermediate, result = .ok intermediate ∧ rest intermediate = .ok value := by
  cases result with
  | error failure => cases succeeds
  | ok intermediate => exact ⟨intermediate, rfl, succeeds⟩

inductive FieldScope where
  | target | job
  deriving DecidableEq, Repr

structure BackendField where
  name : String
  required : Bool := false
  /-- Stored encrypted in the credential secret. -/
  secret : Bool := false
  scope : FieldScope := .target
  /-- A connection's secret that a single repository may replace with its own. -/
  overridable : Bool := false
  deriving DecidableEq, Repr

structure CredentialFile where
  envVar : String
  filename : String
  content : String
  deriving DecidableEq, Repr

structure ResolvedBackend where
  repository : String
  env : Fields := []
  credentialFiles : List CredentialFile := []
  extraArgs : Option (List String) := none
  deriving DecidableEq, Repr

structure BackendDefinition where
  type : String
  /-- Not selectable as a connection. -/
  standalone : Bool := false
  fields : List BackendField
  build : Config → Fields → Config → Except Failure ResolvedBackend

/-- `String(v)`. -/
def Value.toText : Value → String
  | .null => "null"
  | .text content => content
  | .number count => toString count
  | .boolean flag => if flag then "true" else "false"
  | .other rendered => rendered

/-- Whether a value counts as true in a condition. -/
def Value.truthy : Value → Bool
  | .null => false
  | .text content => content ≠ ""
  | .number count => count ≠ 0
  | .boolean flag => flag
  | .other _ => true

/-- The text of a value, empty for one that is absent or `null`. -/
def str : Option Value → String
  | none | some .null => ""
  | some value => value.toText

def isAlphanumeric (char : Char) : Bool := char.isAlpha || char.isDigit

def isHexDigit (char : Char) : Bool :=
  char.isDigit || ('a' ≤ char && char ≤ 'f') || ('A' ≤ char && char ≤ 'F')

/-- A token of letters, digits, dots, underscores and dashes that begins and ends with
a letter or digit. -/
def isSafeToken (chars : List Char) : Bool :=
  let inner (char : Char) := isAlphanumeric char || char = '.' || char = '_' || char = '-'
  match chars with
  | [] => false
  | first :: rest =>
      isAlphanumeric first && rest.all inner && (rest.getLast?.all isAlphanumeric)

/-- The host names, IPv4 addresses and bracketed IPv6 literals an SFTP connection may
name. -/
def sftpHostRe (host : String) : Bool :=
  isSafeToken host.toList ||
    match host.toList with
    | '[' :: rest =>
        match rest.reverse with
        | ']' :: inner => !inner.isEmpty && inner.all fun char => isHexDigit char || char = ':'
        | _ => false
    | _ => false

def sftpUserRe (user : String) : Bool := isSafeToken user.toList

def sftpPortRe (port : String) : Bool :=
  1 ≤ port.toList.length && port.toList.length ≤ 5 && port.toList.all Char.isDigit

/-- Refuses a host, user or port that could break out of its argument of the SSH
command. -/
def assertSafeSftpConfig (config : Config) : Except Failure Unit := do
  let host := str (lookupLast "host" config)
  let user := str (lookupLast "user" config)
  let port := str (lookupLast "port" config)
  if host ≠ "" ∧ ¬ sftpHostRe host then throw (.error ("Invalid SFTP host: " ++ host))
  if user ≠ "" ∧ ¬ sftpUserRe user then throw (.error ("Invalid SFTP user: " ++ user))
  if port ≠ "" ∧ ¬ sftpPortRe port then throw (.error ("Invalid SFTP port: " ++ port))

def dropSlashes (text : String) : String := String.ofList (text.toList.dropWhile (· = '/'))

def dropTrailingSlashes (text : String) : String :=
  String.ofList (text.toList.reverse.dropWhile (· = '/')).reverse

def joinPath (base : String) (suffix : Option Value) : String :=
  let path := dropTrailingSlashes (dropSlashes (str suffix))
  if path = "" then base else base ++ "/" ++ path

/-- The characters `encodeURIComponent` leaves as they are. -/
def isUnreserved (char : Char) : Bool :=
  isAlphanumeric char || char ∈ ['-', '_', '.', '!', '~', '*', '\'', '(', ')']

def hexByte (byte : UInt8) : String :=
  let digit (value : Nat) : Char := "0123456789ABCDEF".toList.getD value '0'
  String.ofList ['%', digit (byte.toNat / 16), digit (byte.toNat % 16)]

def encodeURIComponent (text : String) : String :=
  String.join (text.toList.map fun char =>
    if isUnreserved char then String.singleton char
    else String.join ((String.utf8EncodeChar char).map hexByte))

def sftpKeyFilename : String := "sftp_id_ed25519"

/-- Placeholder that resolves to a credential file's on-disk path. -/
def credentialFileRef (filename : String) : String :=
  "\x7b\x7bcredentialFile:" ++ filename ++ "\x7d\x7d"

/-- `credentials.name ?? fallback`. -/
def credential (name : String) (credentials : Fields) (fallback : String) : String :=
  (lookupLast name credentials).getD fallback

/-- An environment entry for a credential that is present and not empty. -/
def optionalEnv (variableName : String) : Option String → Fields
  | none => []
  | some value => if value = "" then [] else [(variableName, value)]

def localBackend : BackendDefinition where
  type := "local"
  standalone := true
  fields := [{ name := "path", required := true, scope := .job }]
  build _ _ repoConfig := .ok { repository := str (lookupLast "path" repoConfig) }

def sftpBackend : BackendDefinition where
  type := "sftp"
  fields :=
    [{ name := "host", required := true }, { name := "user", required := true },
      { name := "port" }, { name := "path", required := true, scope := .job }]
  build config credentials repoConfig := do
    assertSafeSftpConfig config
    let host := str (lookupLast "host" config)
    let user := str (lookupLast "user" config)
    let path := str (lookupLast "path" repoConfig)
    let port := str (lookupLast "port" config)
    let repository := "sftp:" ++ user ++ "@" ++ host ++ ":" ++ path
    let privateKey := credential "privateKey" credentials ""
    if privateKey = "" then return { repository }
    let ssh := ["ssh", user ++ "@" ++ host] ++ (if port = "" then [] else ["-p", port]) ++
      ["-i", credentialFileRef sftpKeyFilename, "-o", "StrictHostKeyChecking=accept-new",
        "-o", "BatchMode=yes", "-s", "sftp"]
    return {
      repository
      credentialFiles := [{ envVar := "", filename := sftpKeyFilename, content := privateKey }]
      extraArgs := some ["-o", "sftp.command=" ++ String.intercalate " " ssh] }

def restBackend : BackendDefinition where
  type := "rest"
  fields :=
    [{ name := "url", required := true },
      { name := "username", secret := true, overridable := true },
      { name := "password", secret := true, overridable := true },
      { name := "path", scope := .job }]
  build config credentials repoConfig :=
    let raw := (str (lookupLast "url" config)).toList
    let plain := "http://".toList
    let secure := "https://".toList
    let scheme := if plain.isPrefixOf raw then "http" else "https"
    let stripped :=
      if plain.isPrefixOf raw then raw.drop plain.length
      else if secure.isPrefixOf raw then raw.drop secure.length
      else raw
    let host := dropTrailingSlashes (String.ofList stripped)
    let user := credential "username" credentials ""
    let pass := credential "password" credentials ""
    let auth :=
      if user = "" then "" else encodeURIComponent user ++ ":" ++ encodeURIComponent pass ++ "@"
    .ok {
      repository := "rest:" ++ scheme ++ "://" ++ auth ++
        joinPath host (lookupLast "path" repoConfig) ++ "/" }

def s3Backend : BackendDefinition where
  type := "s3"
  fields :=
    [{ name := "endpoint", required := true }, { name := "region" },
      { name := "accessKeyId", required := true, secret := true },
      { name := "secretAccessKey", required := true, secret := true },
      { name := "bucket", required := true, scope := .job }, { name := "prefix", scope := .job }]
  build config credentials repoConfig :=
    .ok {
      repository := "s3:" ++ joinPath
        (str (lookupLast "endpoint" config) ++ "/" ++ str (lookupLast "bucket" repoConfig))
        (lookupLast "prefix" repoConfig)
      env := [("AWS_ACCESS_KEY_ID", credential "accessKeyId" credentials ""),
        ("AWS_SECRET_ACCESS_KEY", credential "secretAccessKey" credentials "")] ++
        if (lookupLast "region" config).any Value.truthy then
          [("AWS_DEFAULT_REGION", str (lookupLast "region" config))]
        else [] }

def b2Backend : BackendDefinition where
  type := "b2"
  fields :=
    [{ name := "accountId", required := true, secret := true },
      { name := "accountKey", required := true, secret := true },
      { name := "bucket", required := true, scope := .job }, { name := "prefix", scope := .job }]
  build _ credentials repoConfig :=
    .ok {
      repository := "b2:" ++ str (lookupLast "bucket" repoConfig) ++ ":" ++
        dropSlashes (str (lookupLast "prefix" repoConfig))
      env := [("B2_ACCOUNT_ID", credential "accountId" credentials ""),
        ("B2_ACCOUNT_KEY", credential "accountKey" credentials "")] }

def azureBackend : BackendDefinition where
  type := "azure"
  fields :=
    [{ name := "accountName", required := true }, { name := "accountKey", secret := true },
      { name := "sasToken", secret := true },
      { name := "container", required := true, scope := .job },
      { name := "prefix", scope := .job }]
  build config credentials repoConfig :=
    .ok {
      repository := "azure:" ++ str (lookupLast "container" repoConfig) ++ ":" ++
        dropSlashes (str (lookupLast "prefix" repoConfig))
      env := [("AZURE_ACCOUNT_NAME", str (lookupLast "accountName" config))] ++
        optionalEnv "AZURE_ACCOUNT_KEY" (lookupLast "accountKey" credentials) ++
        optionalEnv "AZURE_ACCOUNT_SAS" (lookupLast "sasToken" credentials) }

/-- A repository prefix, the root where it is empty. -/
def rootedPrefix (repoConfig : Config) : String :=
  let path := dropSlashes (str (lookupLast "prefix" repoConfig))
  if path = "" then "/" else path

def gsBackend : BackendDefinition where
  type := "gs"
  fields :=
    [{ name := "projectId", required := true },
      { name := "serviceAccountJson", required := true, secret := true },
      { name := "bucket", required := true, scope := .job }, { name := "prefix", scope := .job }]
  build config credentials repoConfig :=
    .ok {
      repository := "gs:" ++ str (lookupLast "bucket" repoConfig) ++ ":" ++
        rootedPrefix repoConfig
      env := [("GOOGLE_PROJECT_ID", str (lookupLast "projectId" config))]
      credentialFiles := [{
        envVar := "GOOGLE_APPLICATION_CREDENTIALS"
        filename := "gcs-service-account.json"
        content := credential "serviceAccountJson" credentials "\x7b\x7d" }] }

def swiftBackend : BackendDefinition where
  type := "swift"
  fields :=
    [{ name := "authUrl", required := true, secret := true },
      { name := "username", secret := true }, { name := "password", secret := true },
      { name := "region", secret := true },
      { name := "container", required := true, scope := .job },
      { name := "prefix", scope := .job }]
  build _ credentials repoConfig :=
    .ok {
      repository := "swift:" ++ str (lookupLast "container" repoConfig) ++ ":" ++
        rootedPrefix repoConfig
      env := [("OS_AUTH_URL", credential "authUrl" credentials ""),
        ("OS_USERNAME", credential "username" credentials ""),
        ("OS_PASSWORD", credential "password" credentials "")] ++
        optionalEnv "OS_REGION_NAME" (lookupLast "region" credentials) }

def rcloneBackend : BackendDefinition where
  type := "rclone"
  fields := [{ name := "remote", required := true }, { name := "path", scope := .job }]
  build config _ repoConfig :=
    let remote := str (lookupLast "remote" config)
    let path := dropSlashes (str (lookupLast "path" repoConfig))
    .ok {
      repository := if path = "" then "rclone:" ++ remote else "rclone:" ++ remote ++ ":" ++ path }

def backends : List BackendDefinition :=
  [localBackend, sftpBackend, restBackend, s3Backend, b2Backend, azureBackend, gsBackend,
    swiftBackend, rcloneBackend]

def getBackend (type : String) : Except Failure BackendDefinition :=
  match backends.find? fun backend => backend.type = type with
  | some backend => .ok backend
  | none => .error (.error ("Unknown backend type: " ++ type))

/-- Splits a flat form payload into non-secret config and secret credentials, for the
fields of one scope. Overridable fields are picked up in both scopes. -/
def splitConfig (type : String) (values : Config) (scope : FieldScope := .target) :
    Except Failure (Config × Fields) := do
  let definition ← getBackend type
  let picked := definition.fields.filter fun field =>
    field.scope = scope || (scope = .job && field.overridable)
  let entered := picked.filterMap fun field =>
    match lookupLast field.name values with
    | none => none
    | some value => if value = .text "" then none else some (field, value)
  return (entered.filterMap fun entry =>
      if entry.1.secret then none else some (entry.1.name, entry.2),
    entered.filterMap fun entry =>
      if entry.1.secret then some (entry.1.name, entry.2.toText) else none)

/-- The connection fields a single repository may override. -/
def overridableFields (type : String) : Except Failure (List String) := do
  let definition ← getBackend type
  return (definition.fields.filter (·.overridable)).map (·.name)

/-- The required fields of a backend's repository half. -/
def requiredJobFields (type : String) : Except Failure (List String) := do
  let definition ← getBackend type
  return (definition.fields.filter fun field => field.scope = .job && field.required).map (·.name)

/-- The type a definition is found under is its own. -/
theorem getBackend_type {type : String} {definition : BackendDefinition}
    (found : getBackend type = .ok definition) : definition.type = type := by
  unfold getBackend at found
  split at found
  case h_2 => cases found
  case h_1 backend listed =>
    cases found
    simpa using List.find?_some listed

theorem mem_of_getBackend {type : String} {definition : BackendDefinition}
    (found : getBackend type = .ok definition) : definition ∈ backends := by
  unfold getBackend at found
  split at found
  case h_2 => cases found
  case h_1 backend listed =>
    cases found
    exact List.mem_of_find?_eq_some listed

/-- A local repository lives at the path its own half names: the connection's half and
the credentials do not matter. -/
theorem build_local (config : Config) (credentials : Fields) (repoConfig : Config) :
    localBackend.build config credentials repoConfig =
      .ok { repository := str (lookupLast "path" repoConfig) } := rfl

end AmberBackup
