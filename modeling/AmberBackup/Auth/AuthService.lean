import AmberBackup.Auth.TotpService

/-! # Signing in

A login verifies the password of the row it has read, and issues a session at once or signs
a challenge for the second factor. The session carries the epoch of the account that is
read when it is issued. The attempts against a challenge are counted in memory, in a map
whose entries outlive the challenge.
-/

namespace AmberBackup.Auth

open Relational

def maxTotpAttempts : Nat := 5

/-- A challenge is valid for 5 minutes; its entry is dropped a little after. -/
def challengeTtlMs : Nat := 6 * 60000

def challengeSeconds : Nat := 300

/-- The map without the entries that have expired. -/
def purged (now : Nat) (state : ChallengeState) : ChallengeState := fun challenge =>
  (state challenge).filter fun entry => !(entry.expiresAt ≤ now)

/-- The entry an attempt against the challenge finds. -/
def entryOf (now : Nat) (state : ChallengeState) (challenge : Uuid) : ChallengeEntry :=
  (purged now state challenge).getD { attempts := 0, expiresAt := now + challengeTtlMs }

/-- `consumeAttempt`: the map afterwards, and whether the challenge is spent. -/
def consumeAttempt (now : Nat) (state : ChallengeState) (challenge : Uuid) :
    ChallengeState × Bool :=
  let entry := entryOf now state challenge
  if maxTotpAttempts ≤ entry.attempts then (purged now state, false)
  else
    (Function.update (purged now state) challenge
      (some { entry with attempts := entry.attempts + 1 }), true)

def burnChallenge (now : Nat) (state : ChallengeState) (challenge : Uuid) : ChallengeState :=
  Function.update state challenge
    (some { attempts := maxTotpAttempts, expiresAt := now + challengeTtlMs })

def IssuePhase.step (settings : Settings) (server : Server) (user : Uuid) (grounds : Grounds) :
    IssuePhase → Outcome → Option Effect
  | .readUser, .returns =>
      match server.accounts.users.get? user with
      | none => some { next := .done }
      | some row =>
          if row.disabled then some { next := .done }
          else some { next := .issue user grounds .epoch }
  | .epoch, .returns =>
      some { next := .issue user grounds (.sign (server.accounts.sessionEpoch user)) }
  | .sign generation, .returns =>
      some {
        next := .issue user grounds (.findUser {
          user, epoch := generation, expiresAt := server.now / 1000 + settings.jwtExpiresInSeconds }) }
  | .findUser session, .returns =>
      match server.accounts.users.get? user with
      | none => some { next := .done }
      | some row =>
          match grounds with
          -- a session that is replaced is not checked against the address again
          | .changedPassword _ =>
              some { next := .done, events := [.sessionIssued session grounds] }
          | .password _ | .challenge .. | .passkey _ =>
              some { next := .issue user grounds (.assertAllowed session row.isAdmin) }
  | .assertAllowed session _, .returns =>
      some { next := .done, events := [.sessionIssued session grounds] }
  | .assertAllowed _ isAdmin, .throws => if isAdmin then some { next := .done } else none
  | _, _ => none

def LoginPhase.step (server : Server) (email password : String) :
    LoginPhase → Outcome → Option Effect
  | .assertEnabled, .returns =>
      if server.accounts.localLoginEnabled then some { next := .login email password .findUser }
      else some { next := .done }
  | .findUser, .returns =>
      match server.accounts.findByEmailRaw email with
      | none => some { next := .done }
      | some (id, user) =>
          if user.authSource = .«local» && !user.disabled then
            some { next := .login email password (.verifyPassword id user) }
          else some { next := .done }
  | .verifyPassword id user, .returns =>
      if Auth.verifyPassword user password then
        if user.totpEnabled then some { next := .login email password (.signChallenge id user) }
        else some { next := .issue id (.password user.sessionEpoch) .epoch }
      else some { next := .done }
  | .signChallenge id user, .returns =>
      some {
        next := .done
        totpChallenge :=
          some { user := id, issuedAt := server.now, epoch := user.sessionEpoch } }
  | _, _ => none

def LoginTotpPhase.step (settings : Settings) (server : Server) (token : Uuid) (code : String) :
    LoginTotpPhase → Outcome → Option Effect
  | .assertEnabled, .returns =>
      if server.accounts.localLoginEnabled then
        some { next := .loginTotp token code .verifyToken }
      else some { next := .done }
  | .verifyToken, .returns =>
      match server.totpChallenges.get? token with
      | none => some { next := .done }
      | some challenge =>
          if withinLifetime challengeSeconds challenge.issuedAt server.now then
            some { next := .loginTotp token code .consumeAttempt }
          else some { next := .done }
  | .consumeAttempt, .returns =>
      let (state, accepted) := Auth.consumeAttempt server.now server.challengeState token
      if accepted then
        some { next := .loginTotp token code .findUser, challengeState := some state }
      else some { next := .done, challengeState := some state }
  | .findUser, .returns =>
      match server.totpChallenges.get? token with
      | none => none
      | some challenge =>
          match server.accounts.users.get? challenge.user with
          | none => some { next := .done }
          | some user =>
              if !user.disabled && user.totpEnabled then
                some { next := .loginTotp token code (.verifyCode user) }
              else some { next := .done }
  | .verifyCode user, .returns =>
      match verifyLogin settings server.now user code with
      | .invalid => some { next := .done, events := [.codeVerified token server.now] }
      | .valid =>
          some {
            next := .loginTotp token code .burnChallenge
            events := [.codeVerified token server.now] }
      | .recovery codes used remaining =>
          some {
            next := .loginTotp token code (.useRecoveryCode codes used remaining)
            events := [.codeVerified token server.now] }
  | .useRecoveryCode _ used remaining, .returns =>
      match server.totpChallenges.get? token with
      | none => none
      | some challenge =>
          some {
            next := .loginTotp token code .burnChallenge
            statement := .updateUser challenge.user (.useRecoveryCode remaining)
            events := [.recoveryCodeAccepted challenge.user used] }
  | .burnChallenge, .returns =>
      match server.totpChallenges.get? token with
      | none => none
      | some challenge =>
          some {
            next := .issue challenge.user (.challenge token challenge.epoch) .epoch
            challengeState := some (Auth.burnChallenge server.now server.challengeState token)
            events := [.challengeBurned token] }
  | _, _ => none

end AmberBackup.Auth
