import AmberBackup.Auth.Accounts
import AmberBackup.Lib.Pool

/-! # Authentication calls in flight

A call to the authentication services is described by where it stands between two of its
awaits, with the values it has read so far. One step of it executes at most one statement;
what it does without awaiting anything, such as counting an attempt against a challenge, is
part of the same step.
-/

namespace AmberBackup.Auth

open Relational

/-- What a session is issued on, with the epoch of the account in which its password was
proven. -/
inductive Grounds where
  | password (epoch : Nat)
  | challenge (challenge : Uuid) (epoch : Nat)
  | changedPassword (epoch : Nat)
  | passkey (credential : Uuid)
  deriving DecidableEq, Repr

/-- The epoch whose password a session is issued on. -/
def Grounds.epoch : Grounds → Option Nat
  | .password epoch | .challenge _ epoch | .changedPassword epoch => some epoch
  | .passkey _ => none

/-- `AuthService.issueForUser`, `AuthService.issue` and the controller's check of the
administrator's address. -/
inductive IssuePhase where
  | readUser
  | epoch
  | sign (generation : Nat)
  | findUser (session : Session)
  | assertAllowed (session : Session) (isAdmin : Bool)
  deriving DecidableEq

/-- `AuthService.login`. -/
inductive LoginPhase where
  | assertEnabled
  | findUser
  | verifyPassword (id : Uuid) (user : User)
  | signChallenge (id : Uuid) (user : User)
  deriving DecidableEq

/-- `AuthService.loginTotp`. -/
inductive LoginTotpPhase where
  | assertEnabled
  | verifyToken
  | consumeAttempt
  | verifyCode (user : User)
  /-- `TotpService.consumeRecoveryCode`: the code at its place in the list read is used. -/
  | useRecoveryCode (codes : List RecoveryHash) (used : RecoveryHash)
      (remaining : List RecoveryHash)
  | findUser
  /-- The code was valid. -/
  | burnChallenge
  deriving DecidableEq

/-- `UsersService.changePassword`. -/
inductive ChangePasswordPhase where
  | readUser
  | verifyPassword (user : User)
  | hashPassword
  | write (hash : PasswordHash)
  deriving DecidableEq

/-- `UsersService.update`. -/
inductive UpdatePhase where
  | readUser
  /-- `isLastActiveAdmin`: its read of the account, and its look for another one. -/
  | readTarget (user : User)
  | readOthers (user : User)
  | hasUsableSso (user : User)
  | deletePasskeys (user : User)
  | hashPassword (patch : UserPatch)
  | write (patch : UserPatch)
  deriving DecidableEq

/-- `UsersService.remove`. -/
inductive RemovePhase where
  | readTarget | readOthers | delete
  deriving DecidableEq

/-- `TotpService.setup`. -/
inductive SetupTotpPhase where
  | readUser
  | write (secret : TotpSecret)
  deriving DecidableEq

/-- `TotpService.enable`. -/
inductive EnableTotpPhase where
  | readUser
  | verifyToken (secret : TotpSecret)
  | hashCodes (secret : TotpSecret)
  | write (secret : TotpSecret) (hashes : List RecoveryHash)
  deriving DecidableEq

/-- `TotpService.disable`. -/
inductive DisableTotpPhase where
  | readUser
  | verifyPassword (user : User)
  | write
  deriving DecidableEq

/-- `PasskeysService.registrationOptions`. -/
inductive RegisterOptionsPhase where
  | readAccount | readExisting | signChallenge
  deriving DecidableEq

/-- `PasskeysService.verifyRegistration`. -/
inductive RegisterPhase where
  | readChallenge | verifyResponse
  | insert (counter : Nat)
  deriving DecidableEq

/-- `PasskeysService.authenticationOptions`, behind the check of the login setting. -/
inductive LoginOptionsPhase where
  | assertEnabled | signChallenge
  deriving DecidableEq

/-- `PasskeysService.verifyAuthentication`, behind the check of the login setting. -/
inductive PasskeyLoginPhase where
  | assertEnabled
  | readChallenge
  | findCredential
  | verifyResponse (id : Uuid) (credential : WebauthnCredential)
  | touch (id : Uuid) (credential : WebauthnCredential) (counter : Nat)
  deriving DecidableEq

/-- A call in flight. -/
inductive Call where
  | login (email password : String) (phase : LoginPhase)
  | loginTotp (token : Uuid) (code : String) (phase : LoginTotpPhase)
  | issue (user : Uuid) (grounds : Grounds) (phase : IssuePhase)
  | changePassword (user : Uuid) (current new : String) (phase : ChangePasswordPhase)
  | updateUser (id : Uuid) (dto : UpdateUserDto) (phase : UpdatePhase)
  | removeUser (id : Uuid) (phase : RemovePhase)
  | setupTotp (user : Uuid) (phase : SetupTotpPhase)
  | enableTotp (user : Uuid) (code : String) (phase : EnableTotpPhase)
  | disableTotp (user : Uuid) (password : String) (phase : DisableTotpPhase)
  | registrationOptions (user : Uuid) (phase : RegisterOptionsPhase)
  | verifyRegistration (user token : Uuid) (credentialId name : String) (phase : RegisterPhase)
  | passkeyLoginOptions (phase : LoginOptionsPhase)
  | passkeyLogin (token : Uuid) (credentialId : String) (phase : PasskeyLoginPhase)
  | done
  deriving DecidableEq

/-- The server's configuration, and the code check of the authenticator library. -/
structure Settings where
  jwtExpiresInSeconds : Nat
  verifyTotp : TotpSecret → String → Nat → Bool

/-- What an awaited operation outside the server's own state comes to. -/
inductive Outcome where
  | returns
  | throws
  /-- Random texts are drawn. -/
  | generates (texts : List String)
  /-- A verification returns the authenticator's counter. -/
  | counts (counter : Nat)
  deriving DecidableEq

/-- What happens, in the order it happens. -/
inductive Event where
  /-- A password of the account is replaced, the one of the epoch. -/
  | passwordReplaced (user : Uuid) (epoch : Nat)
  /-- A code is verified against a challenge. -/
  | codeVerified (challenge : Uuid) (at' : Nat)
  | challengeBurned (challenge : Uuid)
  | recoveryCodeAccepted (user : Uuid) (used : RecoveryHash)
  /-- A code was verified against the secret in order to enable it. -/
  | totpConfirmed (user : Uuid) (secret : TotpSecret)
  | sessionIssued (session : Session) (grounds : Grounds)
  deriving DecidableEq

/-- A signed TOTP challenge: its account, when it was signed, and the epoch in which the
password was verified it was signed for. -/
structure TotpChallenge where
  user : Uuid
  issuedAt : Nat
  epoch : Nat

/-- A signed WebAuthn challenge; `user` is present in one of a registration. -/
structure WebauthnChallenge where
  user : Option Uuid
  issuedAt : Nat

/-- An entry of `challengeState`. -/
structure ChallengeEntry where
  attempts : Nat
  expiresAt : Nat
  deriving DecidableEq

/-- The map `challengeState`. -/
abbrev ChallengeState := Uuid → Option ChallengeEntry

structure Server where
  accounts : Accounts
  now : Nat := 0
  calls : List Call := []
  challengeState : ChallengeState := fun _ => none
  /-- The tokens signed so far; a token that was never signed is not verified. -/
  totpChallenges : Table Uuid TotpChallenge := .empty
  webauthnChallenges : Table Uuid WebauthnChallenge := .empty
  /-- Salts and secrets from here on are still to be drawn. -/
  fresh : Nat := 0
  journal : List Event := []

/-- What one step of a call does. -/
structure Effect where
  next : Call
  statement : Statement := .nothing
  challengeState : Option ChallengeState := none
  totpChallenge : Option TotpChallenge := none
  webauthnChallenge : Option WebauthnChallenge := none
  drawn : Nat := 0
  events : List Event := []

/-- A table after a token was signed, if one was. -/
def signed {ρ : Type} (table : Table Uuid ρ) : Option ρ → Table Uuid ρ
  | none => table
  | some row => table.insert (freshId table) row

/-- The server after a step of the call. -/
def Server.after (server : Server) (call : Nat) (effect : Effect) : Server where
  accounts := effect.statement.execute server.accounts
  now := server.now
  calls := Pool.advance server.calls call effect.next []
  challengeState := effect.challengeState.getD server.challengeState
  totpChallenges := signed server.totpChallenges effect.totpChallenge
  webauthnChallenges := signed server.webauthnChallenges effect.webauthnChallenge
  fresh := server.fresh + effect.drawn
  journal := server.journal ++ effect.events

end AmberBackup.Auth
