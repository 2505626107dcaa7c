import AmberBackup.Auth.AuthService

/-! # Passkeys

A registration is a ceremony of two requests: the first is refused to an account that is
not local, the second only reads the challenge signed by the first. A login finds the
account through the credential. The signature checks are the library's, so that either may
come to any result here.
-/

namespace AmberBackup.Auth

open Relational

def RegisterOptionsPhase.step (server : Server) (user : Uuid) :
    RegisterOptionsPhase → Outcome → Option Effect
  | .readAccount, .returns =>
      if (server.accounts.users.get? user).all fun row => row.authSource = .«local» then
        some { next := .registrationOptions user .readExisting }
      else some { next := .done }
  | .readExisting, .returns => some { next := .registrationOptions user .signChallenge }
  | .signChallenge, .returns =>
      some { next := .done, webauthnChallenge := some { user := some user, issuedAt := server.now } }
  | _, _ => none

/-- The device label. -/
def passkeyName (name : String) : String :=
  String.ofList ((if trim name = "" then "Passkey" else trim name).toList.take 64)

def RegisterPhase.step (server : Server) (user token : Uuid) (credentialId name : String) :
    RegisterPhase → Outcome → Option Effect
  | .readChallenge, .returns =>
      match server.webauthnChallenges.get? token with
      | none => some { next := .done }
      | some challenge =>
          if withinLifetime challengeSeconds challenge.issuedAt server.now &&
              challenge.user = some user then
            some { next := .verifyRegistration user token credentialId name .verifyResponse }
          else some { next := .done }
  | .verifyResponse, .counts counter =>
      some { next := .verifyRegistration user token credentialId name (.insert counter) }
  | .verifyResponse, .throws => some { next := .done }
  | .insert counter, .returns =>
      -- the credential is unique, and its account exists
      if (server.accounts.users.get? user).isSome &&
          !server.accounts.webauthnCredentials.anyWhere fun _ row =>
            row.credentialId = credentialId then
        some {
          next := .done
          statement := .insertCredential {
            userId := user, credentialId, counter, name := passkeyName name } }
      else some { next := .done }
  | _, _ => none

def LoginOptionsPhase.step (server : Server) : LoginOptionsPhase → Outcome → Option Effect
  | .assertEnabled, .returns =>
      if server.accounts.localLoginEnabled then
        some { next := .passkeyLoginOptions .signChallenge }
      else some { next := .done }
  | .signChallenge, .returns =>
      some { next := .done, webauthnChallenge := some { user := none, issuedAt := server.now } }
  | _, _ => none

/-- The credential of a response. -/
def Accounts.credential (accounts : Accounts) (credentialId : String) :
    Option (Uuid × WebauthnCredential) :=
  accounts.webauthnCredentials.rows.find? fun entry => entry.2.credentialId = credentialId

def PasskeyLoginPhase.step (server : Server) (token : Uuid) (credentialId : String) :
    PasskeyLoginPhase → Outcome → Option Effect
  | .assertEnabled, .returns =>
      if server.accounts.localLoginEnabled then
        some { next := .passkeyLogin token credentialId .readChallenge }
      else some { next := .done }
  | .readChallenge, .returns =>
      match server.webauthnChallenges.get? token with
      | none => some { next := .done }
      | some challenge =>
          if withinLifetime challengeSeconds challenge.issuedAt server.now &&
              challenge.user = none then
            some { next := .passkeyLogin token credentialId .findCredential }
          else some { next := .done }
  | .findCredential, .returns =>
      match server.accounts.credential credentialId with
      | none => some { next := .done }
      | some (id, row) => some { next := .passkeyLogin token credentialId (.verifyResponse id row) }
  | .verifyResponse id row, .counts counter =>
      some { next := .passkeyLogin token credentialId (.touch id row counter) }
  | .verifyResponse .., .throws => some { next := .done }
  | .touch id row counter, .returns =>
      some {
        next := .issue row.userId (.passkey id) .readUser
        statement := .touchCredential id counter }
  | _, _ => none

end AmberBackup.Auth
