import AmberBackup.Auth.LastAdmin
import AmberBackup.Auth.Sessions

/-! # Accounts of the identity provider

The switch of an account to single sign-on strips its password, its second factor and its
passkeys once. In a run of the server where no factor is written to an account that has been
switched, none is registered between the two statements of a switch, and the epoch of a
session is read from a local account, such accounts have no factor and no accepted session
(`sso_without_factors`). The second step of a registration that was begun before the switch
does not look (`passkey_after_switch`).
-/

namespace AmberBackup.Auth

open Relational Transition

/-- The account is local, if it exists. -/
def isLocal (server : Server) (user : Uuid) : Bool :=
  (server.accounts.users.get? user).all fun row => row.authSource = .«local»

/-- What a step of a call must meet: a factor is written to a local account, a switch to
single sign-on finds no passkey when it is written, and the epoch of a session is read from
a local account. -/
def Call.sparesSso (server : Server) : Call → Bool
  | .issue user _ .epoch | .changePassword user _ _ (.write _) | .enableTotp user _ (.write ..)
  | .verifyRegistration user _ _ _ (.insert _) => isLocal server user
  | .updateUser id _ (.write patch) =>
      match patch.authSource with
      | none => patch.passwordHash.isNone || isLocal server id
      | some .sso => !server.accounts.webauthnCredentials.anyWhere fun _ row => row.userId = id
      | some .«local» => true
  | _ => true

abbrev SparesSso (server : Server) (action : Action) : Prop :=
  onSteps (fun server call _ => call.sparesSso server) server action = true

/-- An account of the identity provider has no password, no enabled TOTP and no passkey. -/
def NoLocalFactor (accounts : Accounts) : Prop :=
  ∀ id user, accounts.users.get? id = some user → user.authSource = .sso →
    user.passwordHash = none ∧ user.totpEnabled = false ∧
      ∀ key row, accounts.webauthnCredentials.get? key = some row → row.userId ≠ id

theorem isLocal_source {server : Server} {id : Uuid} {user : User}
    (here : isLocal server id = true) (found : server.accounts.users.get? id = some user) :
    user.authSource = .«local» := by
  simpa [isLocal, found] using here

section Step

variable {settings : Settings} {server : Server} {current : Call} {outcome : Outcome}
  {effect : Effect}

/-- What an update leaves of an account of the identity provider. -/
theorem NoLocalFactor.updated (factors : NoLocalFactor server.accounts)
    (formed : current.Formed) (permitted : current.sparesSso server = true)
    (source : effect.statement.Source server current) {id : Uuid} {update : UserUpdate}
    (issues : effect.statement = .updateUser id update) {user : User}
    (found : server.accounts.users.get? id = some user)
    (sso : (update.set user).authSource = .sso) :
    (update.set user).passwordHash = none ∧ (update.set user).totpEnabled = false ∧
      ∀ key row, server.accounts.webauthnCredentials.get? key = some row → row.userId ≠ id := by
  rw [issues] at source
  have stays : isLocal server id = true → (update.set user).authSource = user.authSource →
      False := by
    intro here same
    rw [isLocal_source here found, sso] at same
    cases same
  cases update with
  | edit patch =>
      obtain ⟨dto, writes⟩ := source
      subst writes
      cases switched : patch.authSource with
      | none =>
          simp only [Call.sparesSso, switched, Bool.or_eq_true] at permitted
          have unchanged : (UserUpdate.set user (.edit patch)).authSource = user.authSource := by
            simp [UserUpdate.set, switched]
          rcases permitted with none | here
          · obtain ⟨password, totp, passkeys⟩ := factors id user found (unchanged ▸ sso)
            refine ⟨?_, ?_, passkeys⟩
            · rw [Option.isNone_iff_eq_none] at none
              simp [UserUpdate.set, none, password]
            · simp [UserUpdate.set, totp]
          · exact (stays here unchanged).elim
      | some target =>
          cases target with
          | «local» =>
              simp only [UserUpdate.set, switched, Option.getD_some] at sso
              cases sso
          | sso =>
              have cleared : patch.passwordHash = some none ∧ patch.clearTotp = true := by
                rcases formed with shape | shape | ⟨before, hash, shape, other | other⟩
                · rw [shape] at switched
                  cases switched
                · exact shape ▸ ⟨rfl, rfl⟩
                · rw [shape, other] at switched
                  cases switched
                · rw [shape, other] at switched
                  cases switched
              refine ⟨by simp [UserUpdate.set, cleared.1], by simp [UserUpdate.set, cleared.2], ?_⟩
              simp only [Call.sparesSso, switched, Bool.not_eq_true'] at permitted
              intro key row present
              simpa using Table.anyWhere_eq_false.mp permitted key row present
  | changePassword hash =>
      obtain ⟨_, _, writes⟩ := source
      subst writes
      exact (stays permitted rfl).elim
  | enableTotp hashes =>
      obtain ⟨_, _, writes⟩ := source
      subst writes
      exact (stays permitted rfl).elim
  | disableTotp =>
      obtain ⟨password, -, passkeys⟩ := factors id user found sso
      exact ⟨password, rfl, passkeys⟩
  | setupTotp | useRecoveryCode => exact factors id user found sso

theorem NoLocalFactor.after (factors : NoLocalFactor server.accounts)
    (formed : current.Formed) (permitted : current.sparesSso server = true)
    (steps : current.step settings server outcome = some effect) :
    NoLocalFactor (effect.statement.execute server.accounts) := by
  intro id user present sso
  have source := Call.step_source steps
  have before : ∃ old, server.accounts.users.get? id = some old ∧
      user.passwordHash = none ∧ user.totpEnabled = false ∧
      (∀ key row, server.accounts.webauthnCredentials.get? key = some row → row.userId ≠ id) ∧
      ∀ row, effect.statement = .insertCredential row → row.userId = id → old = user := by
    rcases Statement.user_after present with same | ⟨old, update, found, issues, same⟩
    · obtain ⟨password, totp, passkeys⟩ := factors id user same sso
      exact ⟨user, same, password, totp, passkeys, fun _ _ _ => rfl⟩
    · subst same
      obtain ⟨password, totp, passkeys⟩ :=
        factors.updated formed permitted source issues found sso
      refine ⟨old, found, password, totp, passkeys, fun row inserts => ?_⟩
      rw [issues] at inserts
      cases inserts
  obtain ⟨old, found, password, totp, passkeys, inserted⟩ := before
  refine ⟨password, totp, fun key row listed => ?_⟩
  rcases Statement.credential_after listed with ⟨former, was, same, -⟩ | inserts
  · exact same ▸ passkeys key former was
  · intro owner
    rw [inserts] at source
    obtain ⟨token, credentialId, name, counter, registers⟩ := source
    subst registers
    have here : isLocal server row.userId = true := permitted
    rw [owner] at here
    have «local» := isLocal_source here found
    rw [inserted row inserts owner, sso] at «local»
    cases «local»

end Step

theorem noLocalFactor_of_reachable {settings : Settings} {server : Server}
    (reached : (authServer settings NoLocalFactor).Reachable SparesSso server) :
    NoLocalFactor server.accounts := by
  refine System.Invariant.onTopOf (fun server => ∀ call ∈ server.calls, call.Formed)
    (fun server => NoLocalFactor server.accounts)
    (fun _ here => formed_of_reachable here) ?_ ?_ reached
  · intro state started
    exact Server.Started.accounts started
  · intro state action next formed _ factors permitted stepped
    rcases Server.step_cases stepped with ⟨_, -, same⟩ | ⟨_, _, -, same⟩ | ⟨_, -, same⟩ |
      ⟨index, outcome, current, effect, resumes, present, steps, same⟩
    · exact same ▸ factors
    · exact same ▸ factors
    · exact same ▸ factors
    · subst resumes
      subst same
      exact factors.after (formed current (List.mem_of_getElem? present))
        (onSteps_resume permitted present) steps

/-- **Accounts of the identity provider have no local factor.** As long as factors are
written to local accounts only, a switch leaves no passkey, and the epoch of a session is
read from a local account, such an account has no password, no enabled TOTP and no passkey,
and no session that a password or a passkey yielded is accepted for it. -/
theorem sso_without_factors {settings : Settings} {server : Server}
    (reached : (authServer settings NoLocalFactor).Reachable SparesSso server) :
    NoLocalFactor server.accounts ∧
      ∀ session grounds, .sessionIssued session grounds ∈ server.journal →
        server.accounts.accepts server.now session = true →
        ∃ row, server.accounts.users.get? session.user = some row ∧
          row.authSource = .«local» := by
  refine ⟨noLocalFactor_of_reachable reached, fun session grounds issued accepted => ?_⟩
  have sessions : Sessions (fun _ row => row.authSource = .«local») server := by
    refine sessions_of_reachable (fun _ _ _ _ _ same before => same.trans before) ?_ reached
    intro server index outcome user grounds row permitted present found
    exact isLocal_source (onSteps_resume permitted present) found
  obtain ⟨row, found, -, here⟩ := sessions.accepted issued accepted
  exact ⟨row, found, here⟩

/-- The account is switched to single sign-on between the two requests of a registration,
and the passkey signs in afterwards. -/
def registeredAcrossSwitch : List Action :=
  [.begin (.registrationOptions 2)] ++ returns 3 0 ++
    [.begin (.updateUser 2 { authSource := some .sso })] ++ returns 4 1 ++
    [.begin (.verifyRegistration 2 0 "key" "Laptop"), .resume 2 .returns,
      .resume 2 (.counts 0), .resume 2 .returns] ++
    [.begin .passkeyLoginOptions] ++ returns 2 3 ++
    [.begin (.passkeyLogin 1 "key")] ++ returns 3 4 ++ [.resume 4 (.counts 1)] ++ returns 6 4

theorem office_noLocalFactor : NoLocalFactor office.accounts := by
  intro id user found sso
  have cases' : (id = 1 ∨ id = 2) ∨ id = 3 := by
    have listed := Table.mem_rows.mpr found
    change (id, user) ∈ [(1, _), (2, _), (3, _)] at listed
    simp only [List.mem_cons, Prod.mk.injEq, List.not_mem_nil, or_false] at listed
    rcases listed with ⟨same, -⟩ | ⟨same, -⟩ | ⟨same, -⟩
    · exact Or.inl (Or.inl same)
    · exact Or.inl (Or.inr same)
    · exact Or.inr same
  rcases cases' with (same | same) | same
  all_goals
    subst same
    cases found
  · cases sso
  · cases sso
  · exact ⟨rfl, rfl, fun key row present => by cases present⟩

/-- Then an account of the identity provider has a passkey, which has signed in. -/
theorem passkey_after_switch : ∃ server user row session,
    (authServer codeSettings NoLocalFactor).Reachable (fun _ _ => True) server ∧
      server.accounts.users.get? 2 = some user ∧ user.authSource = .sso ∧
      server.accounts.webauthnCredentials.get? 0 = some row ∧ row.userId = 2 ∧
      .sessionIssued session (.passkey 0) ∈ server.journal ∧ session.user = 2 ∧
      server.accounts.accepts server.now session = true := by
  have ends : ((authServer codeSettings NoLocalFactor).runWithin (fun _ _ => True) office
      registeredAcrossSwitch).any (fun server =>
        (server.accounts.users.get? 2).any (fun user => user.authSource = .sso) &&
          ((server.accounts.webauthnCredentials.get? 0).any (fun row => row.userId = 2) &&
            (.sessionIssued ⟨2, 1, 605800⟩ (.passkey 0) ∈ server.journal &&
              server.accounts.accepts server.now ⟨2, 1, 605800⟩))) = true := by decide
  obtain ⟨server, reached, all⟩ := System.exists_reachable (office_started office_noLocalFactor) ends
  simp only [Bool.and_eq_true, Option.any_eq_true, decide_eq_true_eq] at all
  obtain ⟨⟨user, found, sso⟩, ⟨row, registered, owner⟩, issued, accepted⟩ := all
  exact ⟨server, user, row, ⟨2, 1, 605800⟩, reached, found, sso, registered, owner, issued, rfl,
    accepted⟩

/-- A registration that is finished before the switch is undone by it. -/
theorem switched_without_factors : ∃ (server : Server) (user : User),
    server.accounts.users.get? 2 = some user ∧ user.authSource = .sso ∧
      user.passwordHash = none ∧ NoLocalFactor server.accounts := by
  have ends : ((authServer codeSettings NoLocalFactor).runWithin SparesSso office
      ([.begin (.registrationOptions 2)] ++ returns 3 0 ++
        [.begin (.verifyRegistration 2 0 "key" "Laptop"), .resume 1 .returns,
          .resume 1 (.counts 0), .resume 1 .returns] ++
        [.begin (.updateUser 2 { authSource := some .sso })] ++ returns 4 2)).any (fun server =>
          (server.accounts.users.get? 2).any fun user => user.authSource = .sso) = true := by
    decide
  obtain ⟨server, reached, switched⟩ :=
    System.exists_reachable (office_started office_noLocalFactor) ends
  rw [Option.any_eq_true] at switched
  obtain ⟨user, found, source⟩ := switched
  have sso : user.authSource = .sso := by simpa using source
  have factors := (sso_without_factors reached).1
  exact ⟨server, user, found, sso, (factors 2 user found sso).1, factors⟩

end AmberBackup.Auth
