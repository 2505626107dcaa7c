import AmberBackup.Auth.UsersService
import AmberBackup.Lib.Transition

/-! # The authentication server

All authentication requests interleave at their awaits: a step lets time pass, changes the
login settings, starts a request, or takes one step of one request in flight.
-/

namespace AmberBackup.Auth

open Relational

/-- The requests, with the account that is signed in where a route asks for one. -/
inductive Entry where
  | login (email password : String)
  | loginTotp (token : Uuid) (code : String)
  | changePassword (user : Uuid) (current new : String)
  | updateUser (id : Uuid) (dto : UpdateUserDto)
  | removeUser (id : Uuid)
  | setupTotp (user : Uuid)
  | enableTotp (user : Uuid) (code : String)
  | disableTotp (user : Uuid) (password : String)
  | registrationOptions (user : Uuid)
  | verifyRegistration (user token : Uuid) (credentialId name : String)
  | passkeyLoginOptions
  | passkeyLogin (token : Uuid) (credentialId : String)

/-- Where a request begins. -/
def Entry.call : Entry → Call
  | .login email password => .login email password .assertEnabled
  | .loginTotp token code => .loginTotp token code .assertEnabled
  | .changePassword user current new => .changePassword user current new .readUser
  | .updateUser id dto => .updateUser id dto .readUser
  | .removeUser id => .removeUser id .readTarget
  | .setupTotp user => .setupTotp user .readUser
  | .enableTotp user code => .enableTotp user code .readUser
  | .disableTotp user password => .disableTotp user password .readUser
  | .registrationOptions user => .registrationOptions user .readAccount
  | .verifyRegistration user token credentialId name =>
      .verifyRegistration user token credentialId name .readChallenge
  | .passkeyLoginOptions => .passkeyLoginOptions .assertEnabled
  | .passkeyLogin token credentialId => .passkeyLogin token credentialId .assertEnabled

/-- One step of a call. -/
def Call.step (settings : Settings) (server : Server) : Call → Outcome → Option Effect
  | .login email password phase, outcome => phase.step server email password outcome
  | .loginTotp token code phase, outcome => phase.step settings server token code outcome
  | .issue user grounds phase, outcome => phase.step settings server user grounds outcome
  | .changePassword user current new phase, outcome => phase.step server user current new outcome
  | .updateUser id dto phase, outcome => phase.step server id dto outcome
  | .removeUser id phase, outcome => phase.step server id outcome
  | .setupTotp user phase, outcome => phase.step server user outcome
  | .enableTotp user code phase, outcome => phase.step settings server user code outcome
  | .disableTotp user password phase, outcome => phase.step server user password outcome
  | .registrationOptions user phase, outcome => phase.step server user outcome
  | .verifyRegistration user token credentialId name phase, outcome =>
      phase.step server user token credentialId name outcome
  | .passkeyLoginOptions phase, outcome => phase.step server outcome
  | .passkeyLogin token credentialId phase, outcome => phase.step server token credentialId outcome
  | .done, _ => none

inductive Action where
  | tick (elapsed : Nat)
  /-- The login settings change. -/
  | configure (localLoginEnabled usableSso : Bool)
  | begin (entry : Entry)
  | resume (call : Nat) (outcome : Outcome)

def Server.step (settings : Settings) (server : Server) : Action → Option Server
  | .tick elapsed => some { server with now := server.now + elapsed }
  | .configure localLoginEnabled usableSso =>
      some { server with accounts := { server.accounts with localLoginEnabled, usableSso } }
  | .begin entry => some { server with calls := server.calls ++ [entry.call] }
  | .resume call outcome =>
      (server.calls[call]?).bind fun current =>
        (current.step settings server outcome).map (server.after call)

/-- A condition on the steps of calls, as one on the steps of the server. -/
def onSteps (condition : Server → Call → Outcome → Bool) (server : Server) : Action → Bool
  | .resume index outcome => (server.calls[index]?).all fun call => condition server call outcome
  | .tick _ | .configure .. | .begin _ => true

theorem onSteps_resume {condition : Server → Call → Outcome → Bool} {server : Server}
    {index : Nat} {outcome : Outcome} {call : Call}
    (permitted : onSteps condition server (.resume index outcome) = true)
    (present : server.calls[index]? = some call) : condition server call outcome = true := by
  change ((server.calls[index]?).all fun call => condition server call outcome) = true at permitted
  rw [present] at permitted
  exact permitted

/-- A server that has just been started, on accounts of which something is known. -/
structure Server.Started (known : Accounts → Prop) (server : Server) : Prop where
  accounts : known server.accounts
  calls : server.calls = []
  challengeState : ∀ challenge, server.challengeState challenge = none
  totpChallenges : server.totpChallenges = .empty
  webauthnChallenges : server.webauthnChallenges = .empty
  journal : server.journal = []

/-- The authentication server as a transition system. -/
def authServer (settings : Settings) (known : Accounts → Prop) :
    Transition.System Server Action where
  initial := Server.Started known
  step := Server.step settings

/-- What a step of the server is. -/
theorem Server.step_cases {settings : Settings} {server next : Server} {action : Action}
    (stepped : server.step settings action = some next) :
    (∃ elapsed, action = .tick elapsed ∧ next = { server with now := server.now + elapsed }) ∨
      (∃ localLoginEnabled usableSso, action = .configure localLoginEnabled usableSso ∧
        next = { server with
          accounts := { server.accounts with localLoginEnabled, usableSso } }) ∨
      (∃ entry, action = .begin entry ∧
        next = { server with calls := server.calls ++ [entry.call] }) ∨
      ∃ index outcome current effect, action = .resume index outcome ∧
        server.calls[index]? = some current ∧ current.step settings server outcome = some effect ∧
        next = server.after index effect := by
  cases action with
  | tick elapsed =>
      cases stepped
      exact Or.inl ⟨elapsed, rfl, rfl⟩
  | configure localLoginEnabled usableSso =>
      cases stepped
      exact Or.inr (Or.inl ⟨_, _, rfl, rfl⟩)
  | begin entry =>
      cases stepped
      exact Or.inr (Or.inr (Or.inl ⟨entry, rfl, rfl⟩))
  | resume index outcome =>
      obtain ⟨current, present, taken⟩ := Option.bind_eq_some_iff.mp stepped
      obtain ⟨effect, steps, same⟩ := Option.map_eq_some_iff.mp taken
      exact Or.inr (Or.inr (Or.inr ⟨index, outcome, current, effect, rfl, present, steps, same.symm⟩))

end AmberBackup.Auth
