import AmberBackup.Auth.AuthServer

/-! # Where statements, events and calls come from

Each statement of a step, each event it reports and the call it goes on as, traced back to
the call that takes the step.
-/

namespace AmberBackup.Auth

open Relational

/-- Which call executes a statement. -/
def Statement.Source (server : Server) (current : Call) : Statement → Prop
  | .updateUser id (.edit patch) => ∃ dto, current = .updateUser id dto (.write patch)
  | .updateUser id (.changePassword hash) =>
      ∃ old new, current = .changePassword id old new (.write hash)
  | .updateUser id (.setupTotp secret) => current = .setupTotp id (.write secret)
  | .updateUser id (.enableTotp hashes) =>
      ∃ code secret, current = .enableTotp id code (.write secret hashes)
  | .updateUser id .disableTotp => ∃ password, current = .disableTotp id password .write
  | .updateUser id (.useRecoveryCode remaining) =>
      ∃ token code codes used challenge,
        current = .loginTotp token code (.useRecoveryCode codes used remaining) ∧
          server.totpChallenges.get? token = some challenge ∧ challenge.user = id
  | .deleteUser id => current = .removeUser id .delete
  | .insertCredential row =>
      ∃ token credentialId name counter,
        current = .verifyRegistration row.userId token credentialId name (.insert counter)
  | .deleteCredentials id => ∃ dto user, current = .updateUser id dto (.deletePasskeys user)
  | .nothing | .touchCredential .. => True

/-- Which call reports an event. -/
def Event.Source (server : Server) (current : Call) : Event → Prop
  | .passwordReplaced user epoch =>
      epoch = server.accounts.sessionEpoch user ∧
        ((∃ dto patch, current = .updateUser user dto (.write patch) ∧
            patch.passwordHash.isSome = true) ∨
          ∃ old new hash, current = .changePassword user old new (.write hash))
  | .codeVerified token time =>
      time = server.now ∧ ∃ code user, current = .loginTotp token code (.verifyCode user)
  | .challengeBurned token => ∃ code, current = .loginTotp token code .burnChallenge
  | .recoveryCodeAccepted user used =>
      ∃ token code codes remaining challenge,
        current = .loginTotp token code (.useRecoveryCode codes used remaining) ∧
          server.totpChallenges.get? token = some challenge ∧ challenge.user = user
  | .totpConfirmed user secret => ∃ code, current = .enableTotp user code (.verifyToken secret)
  | .sessionIssued session grounds =>
      ∃ user, current = .issue user grounds (.findUser session) ∨
        ∃ isAdmin, current = .issue user grounds (.assertAllowed session isAdmin)

/-- Where an update stands just before what follows its guard. -/
def UpdatePhase.guarded (user : User) : UpdatePhase → Bool
  | .readUser => true
  | .readTarget read | .readOthers read => read = user
  | _ => false

/-- Which call goes on as a call. -/
def Call.Source (call : Call) (server : Server) (current : Call) (effect : Effect) : Prop :=
  match call with
  | .issue user grounds phase =>
      match phase with
      | .readUser =>
          (∃ token credentialId id row counter,
              current = .passkeyLogin token credentialId (.touch id row counter) ∧
                row.userId = user ∧ grounds = .passkey id) ∨
            ∃ old new hash, current = .changePassword user old new (.write hash) ∧
              grounds = .changedPassword (server.accounts.sessionEpoch user + 1)
      | .epoch =>
          current = .issue user grounds .readUser ∨
            (∃ email password row, current = .login email password (.verifyPassword user row) ∧
              grounds = .password row.sessionEpoch) ∨
            ∃ token code challenge, current = .loginTotp token code .burnChallenge ∧
              server.totpChallenges.get? token = some challenge ∧ challenge.user = user ∧
              grounds = .challenge token challenge.epoch ∧
              effect.events = [.challengeBurned token]
      | .sign generation =>
          current = .issue user grounds .epoch ∧ generation = server.accounts.sessionEpoch user
      | .findUser session =>
          session.user = user ∧ current = .issue user grounds (.sign session.epoch)
      | .assertAllowed session _ => current = .issue user grounds (.findUser session)
  | .login email password phase =>
      match phase with
      | .assertEnabled => False
      | .findUser => current = .login email password .assertEnabled
      | .verifyPassword id user =>
          current = .login email password .findUser ∧
            server.accounts.findByEmailRaw email = some (id, user)
      | .signChallenge id user => current = .login email password (.verifyPassword id user)
  | .loginTotp token code phase =>
      match phase with
      | .assertEnabled => False
      | .verifyToken => current = .loginTotp token code .assertEnabled
      | .consumeAttempt =>
          current = .loginTotp token code .verifyToken ∧ ∃ challenge,
            server.totpChallenges.get? token = some challenge ∧
              withinLifetime challengeSeconds challenge.issuedAt server.now = true
      | .findUser =>
          current = .loginTotp token code .consumeAttempt ∧
            (consumeAttempt server.now server.challengeState token).2 = true ∧
            effect.challengeState =
              some (consumeAttempt server.now server.challengeState token).1
      | .verifyCode user =>
          current = .loginTotp token code .findUser ∧ ∃ challenge,
            server.totpChallenges.get? token = some challenge ∧
              server.accounts.users.get? challenge.user = some user ∧ user.totpEnabled = true
      | .useRecoveryCode codes used remaining =>
          ∃ user, current = .loginTotp token code (.verifyCode user) ∧
            matching (canonical code) codes = some (used, remaining) ∧
            codes = user.totpRecoveryCodes.getD [] ∧ effect.events = [.codeVerified token server.now]
      | .burnChallenge =>
          (∃ user, current = .loginTotp token code (.verifyCode user) ∧
              effect.events = [.codeVerified token server.now]) ∨
            ∃ codes used remaining,
              current = .loginTotp token code (.useRecoveryCode codes used remaining)
  | .changePassword user old new phase =>
      match phase with
      | .readUser => False
      | .verifyPassword row =>
          current = .changePassword user old new .readUser ∧
            server.accounts.users.get? user = some row
      | .hashPassword => ∃ row, current = .changePassword user old new (.verifyPassword row)
      | .write hash =>
          current = .changePassword user old new .hashPassword ∧ hash = ⟨new, server.fresh⟩
  | .updateUser id dto phase =>
      match phase with
      | .readUser => False
      | .readTarget user =>
          current = .updateUser id dto .readUser ∧ server.accounts.users.get? id = some user
      | .readOthers user => current = .updateUser id dto (.readTarget user)
      | .hasUsableSso user =>
          ∃ before, current = .updateUser id dto before ∧ before.guarded user = true
      | .deletePasskeys user => current = .updateUser id dto (.hasUsableSso user)
      | .hashPassword patch =>
          ∃ before user, current = .updateUser id dto before ∧ before.guarded user = true ∧
            (patch = dto.patch ∨ patch = { dto.patch with authSource := some .«local» })
      | .write patch =>
          (∃ before user, current = .updateUser id dto before ∧ before.guarded user = true ∧
              patch = dto.patch) ∨
            (∃ user, current = .updateUser id dto (.deletePasskeys user) ∧
              patch = dto.patch.switchedToSso) ∨
            ∃ before hash, current = .updateUser id dto (.hashPassword before) ∧
              patch = { before with passwordHash := some (some hash) }
  | .removeUser id phase =>
      match phase with
      | .readTarget => False
      | .readOthers => current = .removeUser id .readTarget
      | .delete => current = .removeUser id .readTarget ∨ current = .removeUser id .readOthers
  | .setupTotp user phase =>
      match phase with
      | .readUser => False
      | .write secret =>
          current = .setupTotp user .readUser ∧ secret = server.fresh ∧ effect.drawn = 1
  | .enableTotp user code phase =>
      match phase with
      | .readUser => False
      | .verifyToken secret =>
          current = .enableTotp user code .readUser ∧ ∃ row,
            server.accounts.users.get? user = some row ∧ row.totpSecret = some secret
      | .hashCodes secret =>
          current = .enableTotp user code (.verifyToken secret) ∧
            effect.events = [.totpConfirmed user secret]
      | .write secret hashes =>
          current = .enableTotp user code (.hashCodes secret) ∧ ∃ codes,
            hashes = recoveryHashes server.fresh codes ∧ effect.drawn = codes.length
  | .disableTotp user password phase =>
      match phase with
      | .readUser => False
      | .verifyPassword row =>
          current = .disableTotp user password .readUser ∧
            server.accounts.users.get? user = some row
      | .write => ∃ row, current = .disableTotp user password (.verifyPassword row)
  | .verifyRegistration user token credentialId name phase =>
      match phase with
      | .readChallenge => False
      | .verifyResponse =>
          current = .verifyRegistration user token credentialId name .readChallenge
      | .insert _ => current = .verifyRegistration user token credentialId name .verifyResponse
  | .registrationOptions .. | .passkeyLoginOptions _ | .passkeyLogin .. | .done => True

section Steps

variable {settings : Settings} {server : Server} {current : Call} {outcome : Outcome}
  {effect : Effect}

/-- A recovery code is one of the list that was read. -/
theorem verifyLogin_recovery {now : Nat} {user : User} {code : String}
    {codes remaining : List RecoveryHash} {used : RecoveryHash}
    (verdict : verifyLogin settings now user code = .recovery codes used remaining) :
    matching (canonical code) codes = some (used, remaining) ∧
      codes = user.totpRecoveryCodes.getD [] := by
  unfold verifyLogin at verdict
  simp only at verdict
  repeat' split at verdict
  all_goals cases verdict
  next found => exact ⟨found, rfl⟩

/-- What follows the guard of an update executes nothing and reports nothing. -/
theorem pastGuard_quiet (id : Uuid) (dto : UpdateUserDto) (user : User) :
    (pastGuard id dto user).statement = .nothing ∧ (pastGuard id dto user).events = [] := by
  unfold pastGuard
  repeat' split
  all_goals exact ⟨rfl, rfl⟩

theorem pastGuard_source {id : Uuid} {dto : UpdateUserDto} {user : User} {before : UpdatePhase}
    (guarded : before.guarded user = true) (same : effect = pastGuard id dto user) :
    effect.next.Source server (.updateUser id dto before) effect := by
  subst same
  unfold pastGuard
  repeat' split
  · exact Or.inl ⟨before, user, rfl, guarded, rfl⟩
  · exact ⟨before, user, rfl, guarded, Or.inl rfl⟩
  · trivial
  · trivial
  · exact ⟨before, user, rfl, guarded, Or.inr rfl⟩
  · exact ⟨before, rfl, guarded⟩

theorem Call.step_source (steps : current.step settings server outcome = some effect) :
    effect.statement.Source server current := by
  cases current
  case done => cases steps
  all_goals
    rename_i phase
    cases phase <;> cases outcome <;>
      simp only [step, LoginPhase.step, LoginTotpPhase.step, IssuePhase.step, UpdatePhase.step,
        ChangePasswordPhase.step, RemovePhase.step, SetupTotpPhase.step, EnableTotpPhase.step,
        DisableTotpPhase.step, RegisterOptionsPhase.step, RegisterPhase.step,
        LoginOptionsPhase.step, PasskeyLoginPhase.step, reduceCtorEq] at steps
  case loginTotp.useRecoveryCode.returns token code codes used remaining =>
    split at steps
    case h_1 => cases steps
    case h_2 challenge found =>
      cases steps
      exact ⟨token, code, codes, used, challenge, rfl, found, rfl⟩
  case changePassword.write.returns user old new hash =>
    cases steps
    exact ⟨old, new, rfl⟩
  case updateUser.deletePasskeys.returns id dto user =>
    split at steps <;> cases steps <;> exact ⟨dto, user, rfl⟩
  case updateUser.write.returns id dto patch =>
    cases steps
    exact ⟨dto, rfl⟩
  case enableTotp.write.returns user code secret hashes =>
    cases steps
    exact ⟨code, secret, rfl⟩
  case disableTotp.write.returns user password =>
    cases steps
    exact ⟨password, rfl⟩
  case verifyRegistration.insert.returns user token credentialId name counter =>
    split at steps <;> cases steps
    · exact ⟨token, credentialId, name, counter, rfl⟩
    · trivial
  all_goals
    repeat' split at steps
    all_goals cases steps
    all_goals first
      | trivial
      | rw [(pastGuard_quiet _ _ _).1]; trivial

theorem Call.event_source (steps : current.step settings server outcome = some effect)
    {event : Event} (listed : event ∈ effect.events) : event.Source server current := by
  cases current
  case done => cases steps
  all_goals
    rename_i phase
    cases phase <;> cases outcome <;>
      simp only [step, LoginPhase.step, LoginTotpPhase.step, IssuePhase.step, UpdatePhase.step,
        ChangePasswordPhase.step, RemovePhase.step, SetupTotpPhase.step, EnableTotpPhase.step,
        DisableTotpPhase.step, RegisterOptionsPhase.step, RegisterPhase.step,
        LoginOptionsPhase.step, PasskeyLoginPhase.step, reduceCtorEq] at steps
  case loginTotp.verifyCode.returns token code user =>
    split at steps <;> cases steps <;> rw [List.mem_singleton.mp listed] <;>
      exact ⟨rfl, code, user, rfl⟩
  case loginTotp.useRecoveryCode.returns token code codes used remaining =>
    split at steps
    case h_1 => cases steps
    case h_2 challenge found =>
      cases steps
      rw [List.mem_singleton.mp listed]
      exact ⟨token, code, codes, remaining, challenge, rfl, found, rfl⟩
  case loginTotp.burnChallenge.returns token code =>
    split at steps
    case h_1 => cases steps
    case h_2 =>
      cases steps
      rw [List.mem_singleton.mp listed]
      exact ⟨code, rfl⟩
  case issue.findUser.returns user grounds session =>
    split at steps
    · cases steps
      cases listed
    · cases grounds with
      | changedPassword epoch =>
          cases steps
          rw [List.mem_singleton.mp listed]
          exact ⟨user, Or.inl rfl⟩
      | password | challenge | passkey =>
          cases steps
          cases listed
  case issue.assertAllowed.returns user grounds session isAdmin =>
    cases steps
    rw [List.mem_singleton.mp listed]
    exact ⟨user, Or.inr ⟨isAdmin, rfl⟩⟩
  case changePassword.write.returns user old new hash =>
    cases steps
    rw [List.mem_singleton.mp listed]
    exact ⟨rfl, Or.inr ⟨old, new, hash, rfl⟩⟩
  case updateUser.write.returns id dto patch =>
    cases steps
    dsimp only at listed
    split at listed
    case isTrue given =>
      rw [List.mem_singleton.mp listed]
      exact ⟨rfl, Or.inl ⟨dto, patch, rfl, given⟩⟩
    case isFalse => cases listed
  case enableTotp.verifyToken.returns user code secret =>
    split at steps <;> cases steps
    · rw [List.mem_singleton.mp listed]
      exact ⟨code, rfl⟩
    · cases listed
  all_goals
    repeat' split at steps
    all_goals cases steps
    all_goals first
      | cases listed
      | rw [(pastGuard_quiet _ _ _).2] at listed; cases listed

theorem Call.next_source (steps : current.step settings server outcome = some effect) :
    effect.next.Source server current effect := by
  cases current
  case done => cases steps
  all_goals
    rename_i phase
    cases phase <;> cases outcome <;>
      simp only [step, LoginPhase.step, LoginTotpPhase.step, IssuePhase.step, UpdatePhase.step,
        ChangePasswordPhase.step, RemovePhase.step, SetupTotpPhase.step, EnableTotpPhase.step,
        DisableTotpPhase.step, RegisterOptionsPhase.step, RegisterPhase.step,
        LoginOptionsPhase.step, PasskeyLoginPhase.step, reduceCtorEq] at steps
  case login.findUser.returns email password =>
    split at steps
    · cases steps
      trivial
    · next found =>
      split at steps <;> cases steps
      · exact ⟨rfl, found⟩
      · trivial
  case login.verifyPassword.returns email password id user =>
    repeat' split at steps
    all_goals cases steps
    · rfl
    · exact Or.inr (Or.inl ⟨email, password, user, rfl, rfl⟩)
    · trivial
  case loginTotp.verifyToken.returns token code =>
    split at steps
    · cases steps
      trivial
    · next challenge found =>
      split at steps
      case isTrue alive =>
        cases steps
        exact ⟨rfl, challenge, found, alive⟩
      case isFalse =>
        cases steps
        trivial
  case loginTotp.consumeAttempt.returns token code =>
    split at steps
    case isTrue accepted =>
      cases steps
      exact ⟨rfl, accepted, rfl⟩
    case isFalse =>
      cases steps
      trivial
  case loginTotp.findUser.returns token code =>
    split at steps
    · cases steps
    · next challenge found =>
      split at steps
      · cases steps
        trivial
      · next user present =>
        split at steps
        case isTrue active =>
          cases steps
          rw [Bool.and_eq_true] at active
          exact ⟨rfl, challenge, found, present, active.2⟩
        case isFalse =>
          cases steps
          trivial
  case loginTotp.verifyCode.returns token code user =>
    split at steps
    · cases steps
      trivial
    · cases steps
      exact Or.inl ⟨user, rfl, rfl⟩
    · next codes used remaining verdict =>
      cases steps
      obtain ⟨found, same⟩ := verifyLogin_recovery verdict
      exact ⟨user, rfl, found, same, rfl⟩
  case loginTotp.useRecoveryCode.returns token code codes used remaining =>
    split at steps <;> cases steps
    exact Or.inr ⟨codes, used, remaining, rfl⟩
  case loginTotp.burnChallenge.returns token code =>
    split at steps
    · cases steps
    · next challenge found =>
      cases steps
      exact Or.inr (Or.inr ⟨token, code, challenge, rfl, found, rfl, rfl, rfl⟩)
  case issue.readUser.returns user grounds =>
    repeat' split at steps
    all_goals cases steps
    · trivial
    · trivial
    · exact Or.inl rfl
  case issue.findUser.returns user grounds session =>
    split at steps
    · cases steps
      trivial
    · cases grounds <;> cases steps <;> trivial
  case changePassword.readUser.returns user old new =>
    split at steps
    · cases steps
      trivial
    · next found =>
      split at steps <;> cases steps
      · exact ⟨rfl, found⟩
      · trivial
  case changePassword.write.returns user old new hash =>
    cases steps
    exact Or.inr ⟨old, new, hash, rfl, rfl⟩
  case updateUser.readUser.returns id dto =>
    split at steps
    · cases steps
      trivial
    · next user found =>
      split at steps <;> cases steps
      · exact ⟨rfl, found⟩
      · exact pastGuard_source rfl rfl
  case updateUser.readTarget.returns id dto user =>
    split at steps <;> cases steps
    · rfl
    · exact pastGuard_source (decide_eq_true rfl) rfl
  case updateUser.readOthers.returns id dto user =>
    split at steps <;> cases steps
    · exact pastGuard_source (decide_eq_true rfl) rfl
    · trivial
  case updateUser.deletePasskeys.returns id dto user =>
    split at steps <;> cases steps
    · exact Or.inr (Or.inl ⟨user, rfl, rfl⟩)
    · trivial
  case updateUser.hashPassword.returns id dto patch =>
    cases steps
    exact Or.inr (Or.inr ⟨patch, _, rfl, rfl⟩)
  case removeUser.readTarget.returns id =>
    split at steps <;> cases steps
    · rfl
    · exact Or.inl rfl
  case removeUser.readOthers.returns id =>
    split at steps <;> cases steps
    · exact Or.inr rfl
    · trivial
  case passkeyLogin.touch.returns token credentialId id row counter =>
    cases steps
    exact Or.inl ⟨token, credentialId, id, row, counter, rfl, rfl, rfl⟩
  case enableTotp.readUser.returns user code =>
    split at steps
    · cases steps
      trivial
    · next row found =>
      split at steps
      · cases steps
        trivial
      · next secret pending =>
        split at steps <;> cases steps
        · exact ⟨rfl, row, found, pending⟩
        · trivial
  case enableTotp.hashCodes.generates user code secret codes =>
    cases steps
    exact ⟨rfl, codes, rfl, rfl⟩
  case disableTotp.readUser.returns user password =>
    split at steps
    · cases steps
      trivial
    · next found =>
      split at steps <;> cases steps
      · exact ⟨rfl, found⟩
      · trivial
  all_goals
    repeat' split at steps
    all_goals cases steps
    all_goals first
      | trivial
      | exact ⟨rfl, rfl⟩
      | exact ⟨rfl, rfl, rfl⟩
      | exact ⟨_, rfl⟩

end Steps

/-- What an update is about to write follows from its request. -/
def Call.Formed : Call → Prop
  | .updateUser _ dto (.hashPassword patch) =>
      patch = dto.patch ∨ patch = { dto.patch with authSource := some .«local» }
  | .updateUser _ dto (.write patch) =>
      patch = dto.patch ∨ patch = dto.patch.switchedToSso ∨
        ∃ before hash, patch = { before with passwordHash := some (some hash) } ∧
          (before = dto.patch ∨ before = { dto.patch with authSource := some .«local» })
  | _ => True

theorem Call.next_formed {settings : Settings} {server : Server} {current : Call}
    {outcome : Outcome} {effect : Effect}
    (steps : current.step settings server outcome = some effect) (formed : current.Formed) :
    effect.next.Formed := by
  have source := Call.next_source steps
  cases next : effect.next with
  | updateUser id dto phase =>
      rw [next] at source
      cases phase with
      | hashPassword patch =>
          obtain ⟨before, user, -, -, shape⟩ := source
          exact shape
      | write patch =>
          rcases source with ⟨before, user, -, -, shape⟩ | ⟨user, -, shape⟩ |
            ⟨before, hash, same, shape⟩
          · exact Or.inl shape
          · exact Or.inr (Or.inl shape)
          · subst same
            exact Or.inr (Or.inr ⟨before, hash, shape, formed⟩)
      | readUser | readTarget | readOthers | hasUsableSso | deletePasskeys => trivial
  | _ => trivial

theorem Entry.call_formed (entry : Entry) : entry.call.Formed := by
  cases entry <;> trivial

/-- A property of calls that requests begin with and steps keep holds of all calls. -/
theorem calls_of_reachable {settings : Settings} {known : Accounts → Prop}
    {allowed : Server → Action → Prop} {holds : Call → Prop}
    (begins : ∀ entry : Entry, holds entry.call)
    (goesOn : ∀ (server : Server) (current : Call) (outcome : Outcome) (effect : Effect),
      current.step settings server outcome = some effect → holds current → holds effect.next)
    {server : Server} (reached : (authServer settings known).Reachable allowed server) :
    ∀ call ∈ server.calls, holds call := by
  have invariant : (authServer settings known).Invariant allowed
      fun server => ∀ call ∈ server.calls, holds call := by
    constructor
    · intro state started call member
      rw [Server.Started.calls started] at member
      cases member
    · intro state action next all _ stepped
      rcases Server.step_cases stepped with ⟨_, -, same⟩ | ⟨_, _, -, same⟩ | ⟨entry, -, same⟩ |
        ⟨index, outcome, current, effect, -, present, steps, same⟩
      · subst same
        exact all
      · subst same
        exact all
      · subst same
        intro call member
        rcases List.mem_append.mp member with old | new
        · exact all call old
        · rw [List.mem_singleton.mp new]
          exact begins entry
      · subst same
        intro call member
        rcases Pool.mem_advance member with old | same | started
        · exact all call old
        · rw [same]
          exact goesOn state current outcome effect steps (all current (List.mem_of_getElem? present))
        · cases started
  exact invariant.holds reached

theorem formed_of_reachable {settings : Settings} {known : Accounts → Prop}
    {allowed : Server → Action → Prop} {server : Server}
    (reached : (authServer settings known).Reachable allowed server) :
    ∀ call ∈ server.calls, call.Formed :=
  calls_of_reachable Entry.call_formed (fun _ _ _ _ steps => Call.next_formed steps) reached

end AmberBackup.Auth
