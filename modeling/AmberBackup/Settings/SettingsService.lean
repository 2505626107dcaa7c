import AmberBackup.Auth.TotpService
import AmberBackup.Lib.Transition

/-! # Settings of the sign-in

Whether local login is accepted, and the providers of single sign-on, as `app_settings`
stores them. Local login is switched off only while single sign-on could serve a login, and
single sign-on must stay able to serve one while local login is off.
-/

namespace AmberBackup.Auth

open Relational

inductive SsoProviderType where
  | oidc | entra | google | github
  deriving DecidableEq, Repr

/-- A client secret at rest. -/
structure EncryptedPayload where
  plaintext : String
  deriving DecidableEq, Repr

structure StoredProvider where
  id : String
  type : SsoProviderType
  label : String
  clientId : String
  issuerUrl : String
  tenantId : String
  secret : Option EncryptedPayload
  deriving DecidableEq, Repr

structure StoredSso where
  enabled : Bool := false
  providers : List StoredProvider := []
  deriving DecidableEq, Repr

structure SsoProviderUpdate where
  id : Option String := none
  type : SsoProviderType
  label : Option String := none
  clientId : Option String := none
  issuerUrl : Option String := none
  tenantId : Option String := none
  clientSecret : Option String := none
  deriving DecidableEq, Repr

structure SsoUpdate where
  enabled : Option Bool := none
  providers : Option (List SsoProviderUpdate) := none
  deriving DecidableEq, Repr

/-- A provider can serve a login once it has credentials and the field its kind needs to
resolve an issuer. -/
def isProviderConfigured (provider : StoredProvider) : Bool :=
  provider.clientId ≠ "" && provider.secret.isSome &&
    match provider.type with
    | .oidc => provider.issuerUrl ≠ ""
    | .entra => provider.tenantId ≠ ""
    | .google | .github => true

/-- `SettingsService.hasUsableSso`, of the setting it reads. -/
def StoredSso.usable (sso : StoredSso) : Bool :=
  sso.enabled && sso.providers.any isProviderConfigured

/-- What is stored for one provider of an update; a blank secret keeps the stored one. -/
def SsoProviderUpdate.stored (update : SsoProviderUpdate) (existing : Option StoredProvider)
    (drawn : String) : StoredProvider where
  id := (existing.map StoredProvider.id).getD drawn
  type := update.type
  label := trim ((update.label.or (existing.map StoredProvider.label)).getD "")
  clientId := trim ((update.clientId.or (existing.map StoredProvider.clientId)).getD "")
  issuerUrl := trim ((update.issuerUrl.or (existing.map StoredProvider.issuerUrl)).getD "")
  tenantId := trim ((update.tenantId.or (existing.map StoredProvider.tenantId)).getD "")
  secret :=
    match update.clientSecret with
    | none | some "" => existing.bind StoredProvider.secret
    | some plaintext => some ⟨plaintext⟩

/-- The entry of a map that was filled in the order of the list. -/
def StoredSso.byId (sso : StoredSso) (id : String) : Option StoredProvider :=
  sso.providers.reverse.find? fun provider => provider.id = id

/-- What `updateSso` stores, with an id drawn for each provider that is new. -/
def SsoUpdate.next (update : SsoUpdate) (cur : StoredSso) (drawn : Nat → String) :
    StoredSso where
  enabled := update.enabled.getD cur.enabled
  providers :=
    match update.providers with
    | none => cur.providers
    | some providers =>
        providers.mapIdx fun index provider =>
          provider.stored ((provider.id.filter (· ≠ "")).bind cur.byId) (drawn index)

/-- The accounts, and the settings `local_login` and `sso`. -/
structure Installation where
  users : Table Uuid User := .empty
  webauthnCredentials : Table Uuid WebauthnCredential := .empty
  localLogin : Option Bool := none
  sso : StoredSso := {}

namespace Installation

/-- Password and passkey logins are accepted unless an admin turned them off. -/
def localLoginEnabled (state : Installation) : Bool := state.localLogin.getD true

def hasUsableSso (state : Installation) : Bool := state.sso.usable

def setLocalLoginEnabled (state : Installation) (enabled : Bool) :
    Except Failure Installation :=
  if !enabled && !state.hasUsableSso then
    .error (.badRequest
      ("Enable SSO with at least one fully configured provider before disabling " ++
        "local login"))
  else .ok { state with localLogin := some enabled }

def updateSso (state : Installation) (update : SsoUpdate) (drawn : Nat → String) :
    Except Failure Installation :=
  if !(update.next state.sso drawn).usable && !state.localLoginEnabled then
    .error (.badRequest
      "Local login is disabled, so SSO must keep at least one fully configured provider")
  else .ok { state with sso := update.next state.sso drawn }

/-- The tables and the settings as the other authentication services read them. -/
def accounts (state : Installation) : Accounts where
  users := state.users
  webauthnCredentials := state.webauthnCredentials
  localLoginEnabled := state.localLoginEnabled
  usableSso := state.hasUsableSso

def execute (state : Installation) (statement : Statement) : Installation :=
  { state with
    users := (statement.execute state.accounts).users
    webauthnCredentials := (statement.execute state.accounts).webauthnCredentials }

end Installation

end AmberBackup.Auth
