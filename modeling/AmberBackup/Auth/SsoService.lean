import AmberBackup.Settings.SettingsService

/-! # Sign-in with an identity provider

A callback resolves the account behind the identity a provider has asserted: by the pair of
the provider and its subject, else by the verified e-mail, else by creating an account that
awaits approval. Each of its statements is one step, the steps of callbacks interleave, and
any statement on the accounts may come between them. The id of a removed account never
comes back.
-/

namespace AmberBackup.Auth

open Relational Transition

/-- What a callback reads of the provider it is for. -/
structure SsoProvider where
  id : String
  type : SsoProviderType
  label : String
  deriving DecidableEq, Repr

/-- `DEFAULT_LABEL`. -/
def SsoProviderType.defaultLabel : SsoProviderType → String
  | .oidc => "SSO"
  | .entra => "Microsoft"
  | .google => "Google"
  | .github => "GitHub"

def SsoProvider.displayLabel (provider : SsoProvider) : String :=
  if provider.label = "" then provider.type.defaultLabel else provider.label

/-- The identity a provider asserted about the person signing in. -/
structure SsoProfile where
  subject : String
  email : String
  name : String
  emailVerified : Bool
  deriving DecidableEq, Repr

/-- The key of a row of `sso_identities`: the provider's id and the subject. -/
abbrev SsoIdentity := String × String

/-- The payload of a session token. -/
structure SessionPayload where
  sub : Uuid
  email : String
  isAdmin : Bool
  se : Nat
  deriving DecidableEq, Repr

inductive CallbackReason where
  | pending | localAccount
  deriving DecidableEq, Repr

/-- A `reason` means that no session was issued. -/
structure CallbackResult where
  token : Option SessionPayload := none
  reason : Option CallbackReason := none
  provider : String
  email : String
  /-- Id, e-mail and role of the account behind the session. -/
  user : Option (Uuid × String × Bool) := none
  deriving DecidableEq, Repr

/-- `SsoService.handleCallback` once the profile is there: before each of its statements, and
at its end. An account is carried as it was read. -/
inductive CallbackPhase where
  | findBySsoIdentity
  | findByEmail
  | linkSsoIdentity (id : Uuid) (user : User)
  /-- `UsersService.create`: the look at the e-mail, and the insertion. -/
  | findConflict
  | insertUser
  | findCreated
  /-- `AuthService.issue`. -/
  | sessionEpoch (id : Uuid) (user : User)
  | findById (id : Uuid) (user : User) (epoch : Nat)
  | returned (result : CallbackResult)
  | failed (failure : Failure)
  deriving DecidableEq, Repr

structure SsoCallback where
  provider : SsoProvider
  profile : SsoProfile
  phase : CallbackPhase
  deriving DecidableEq, Repr

def SsoCallback.identity (callback : SsoCallback) : SsoIdentity :=
  (callback.provider.id, callback.profile.subject)

inductive SsoEvent where
  /-- The identity was bound to the account for a profile. -/
  | bound (identity : SsoIdentity) (profile : SsoProfile) (user : Uuid)
  /-- A session was yielded; the account as it is then. -/
  | signedIn (identity : SsoIdentity) (user : Uuid) (account : User)
  deriving DecidableEq, Repr

/-- The tables a callback works on, the callbacks so far, and what they have done. -/
structure SsoServer where
  accounts : Accounts := {}
  ssoIdentities : Table SsoIdentity Uuid := .empty
  /-- The id of the next account. -/
  nextUser : Uuid := 0
  callbacks : List SsoCallback := []
  journal : List SsoEvent := []

inductive SsoAction where
  /-- The provider has asserted the profile. -/
  | callback (provider : SsoProvider) (profile : SsoProfile)
  /-- The next statement of a callback. -/
  | proceed (callback : Nat)
  /-- The database fails the next statement of a callback. -/
  | refuse (callback : Nat)
  /-- `UsersService.create` inserts a local account. -/
  | createUser (email displayName : String) (passwordHash : PasswordHash) (isAdmin : Bool)
  /-- Another service executes a statement on the accounts. -/
  | execute (statement : Statement)
  deriving DecidableEq

/-- What `handleCallback` does with a profile before its first statement. -/
def SsoProfile.entry (profile : SsoProfile) : CallbackPhase :=
  if profile.subject = "" then .failed (.unauthorized "SSO response missing subject")
  else if profile.email = "" then .failed (.unauthorized "SSO response missing email")
  else .findBySsoIdentity

namespace SsoCallback

def refused (callback : SsoCallback) (reason : CallbackReason) : CallbackPhase :=
  .returned {
    reason := some reason
    provider := callback.provider.displayLabel
    email := callback.profile.email }

/-- The account is resolved: one that awaits approval gets no session. -/
def resolved (callback : SsoCallback) (id : Uuid) (user : User) : CallbackPhase :=
  if user.disabled then callback.refused .pending else .sessionEpoch id user

def signedIn (callback : SsoCallback) (id : Uuid) (user : User) (epoch : Nat) : CallbackPhase :=
  .returned {
    token := some { sub := id, email := user.email, isAdmin := user.isAdmin, se := epoch }
    provider := callback.provider.displayLabel
    email := callback.profile.email
    user := some (id, user.email, user.isAdmin) }

end SsoCallback

namespace SsoServer

/-- `UsersService.findBySsoIdentity`. -/
def findBySsoIdentity (server : SsoServer) (identity : SsoIdentity) : Option (Uuid × User) :=
  (server.ssoIdentities.get? identity).bind fun id =>
    (server.accounts.users.get? id).map fun user => (id, user)

/-- `INSERT INTO users`, on an e-mail that is free. -/
def insertUser (server : SsoServer) (user : User) : SsoServer :=
  { server with
    accounts := { server.accounts with
      users := server.accounts.users.insert server.nextUser user }
    nextUser := server.nextUser + 1 }

/-- `UsersService.linkSsoIdentity`: a pair that is bound already is bound to the account now. -/
def link (server : SsoServer) (identity : SsoIdentity) (id : Uuid) : SsoServer :=
  { server with
    ssoIdentities :=
      if (server.ssoIdentities.get? identity).isSome then
        server.ssoIdentities.update (fun key _ => key = identity) fun _ => id
      else server.ssoIdentities.insert identity id }

/-- A deletion of an account takes its identities along. -/
def execute (server : SsoServer) (statement : Statement) : SsoServer :=
  { server with
    accounts := statement.execute server.accounts
    ssoIdentities :=
      match statement with
      | .deleteUser id => server.ssoIdentities.delete fun _ user => user = id
      | _ => server.ssoIdentities }

variable (toLowerCase : String → String)

/-- One statement of a callback, with what the callback does up to its next one. -/
def statement (server : SsoServer) (callback : SsoCallback) :
    CallbackPhase → Option (SsoServer × CallbackPhase)
  | .findBySsoIdentity =>
      match server.findBySsoIdentity callback.identity with
      | some (id, user) =>
          -- the account may have been switched back to local login since
          if user.authSource = .«local» then some (server, callback.refused .localAccount)
          else some (server, callback.resolved id user)
      | none =>
          if callback.profile.emailVerified then some (server, .findByEmail)
          else
            some (server, .failed (.unauthorized
              "The identity provider did not confirm a verified email address"))
  | .findByEmail =>
      match server.accounts.findByEmailRaw (toLowerCase callback.profile.email) with
      | some (id, user) =>
          if user.authSource = .«local» then some (server, callback.refused .localAccount)
          else some (server, .linkSsoIdentity id user)
      | none => some (server, .findConflict)
  | .linkSsoIdentity id user =>
      if (server.accounts.users.get? id).isSome then
        some ({ server.link callback.identity id with
          journal := server.journal ++ [.bound callback.identity callback.profile id] },
          callback.resolved id user)
      else
        some (server, .failed (.error
          "insert or update on table \"sso_identities\" violates foreign key constraint"))
  | .findConflict =>
      if (server.accounts.findByEmailRaw (toLowerCase callback.profile.email)).isSome then
        some (server, .failed (.conflict "Email already in use"))
      else some (server, .insertUser)
  | .insertUser =>
      if (server.accounts.findByEmailRaw (toLowerCase callback.profile.email)).isSome then
        some (server, .failed (.error
          "duplicate key value violates unique constraint \"users_email_key\""))
      else
        some (server.insertUser {
          email := toLowerCase callback.profile.email
          displayName := callback.profile.name
          authSource := .sso
          disabled := true }, .findCreated)
  | .findCreated =>
      match server.accounts.findByEmailRaw (toLowerCase callback.profile.email) with
      | some (id, user) => some (server, .linkSsoIdentity id user)
      | none => some (server, .failed (.unauthorized "Failed to provision user"))
  | .sessionEpoch id user =>
      some (server, .findById id user (server.accounts.sessionEpoch id))
  | .findById id user epoch =>
      match server.accounts.users.get? id with
      | some account =>
          some ({ server with
            journal := server.journal ++ [.signedIn callback.identity id account] },
            callback.signedIn id user epoch)
      | none => some (server, .failed (.notFound "User not found"))
  | .returned _ | .failed _ => none

def step (server : SsoServer) : SsoAction → Option SsoServer
  | .callback provider profile =>
      some { server with
        callbacks := server.callbacks ++ [{ provider, profile, phase := profile.entry }] }
  | .proceed index =>
      (server.callbacks[index]?).bind fun callback =>
        (server.statement toLowerCase callback callback.phase).map fun (next, phase) =>
          { next with callbacks := server.callbacks.set index { callback with phase } }
  | .refuse index =>
      (server.callbacks[index]?).map fun callback =>
        { server with
          callbacks := server.callbacks.set index { callback with
            phase := .failed (.error "Connection terminated unexpectedly") } }
  | .createUser email displayName passwordHash isAdmin =>
      if (server.accounts.findByEmailRaw (toLowerCase email)).isSome then none
      else
        some (server.insertUser {
          email := toLowerCase email
          displayName := displayName
          passwordHash := some passwordHash
          isAdmin := isAdmin })
  | .execute statement => some (server.execute statement)

end SsoServer

/-- The server, from a database without accounts on. -/
def sso (toLowerCase : String → String) : System SsoServer SsoAction where
  initial := fun server => server = {}
  step := SsoServer.step toLowerCase

end AmberBackup.Auth
