import AmberBackup.Auth.RecoveryCodes
import AmberBackup.Common.AuthGuard
import Mathlib.Data.Fintype.EquivFin

/-! # Requests with an API key

The holder of a key sends requests that are public, and requests as the key's account that
the guard admits. The routes that change a password, TOTP or passkeys of the signed-in
account carry no decorator, so that a key with any action beyond `read` registers a passkey
and signs in with it. No sequence of such requests ends with a session of the account
exactly when the key, the account or the login settings bar the registration or the login
(`key_yields_no_session`).
-/

namespace AmberBackup.Auth

open Relational Transition

/-- What the guard reads of a key. -/
structure ApiKey where
  userId : Uuid
  scopes : Option ApiKeyScopes
  expiresAt : Option Nat := none

/-- `AuthGuard.fromApiKey` of a key that is stored. -/
def Accounts.fromApiKey (accounts : Accounts) (now : Nat) (key : ApiKey) :
    Except Refusal Principal :=
  match accounts.users.get? key.userId with
  | none => .error (.unauthorized "Invalid API key")
  | some user =>
      if key.expiresAt.any fun expires => expires < now then
        .error (.unauthorized "API key expired")
      else if user.disabled then .error (.unauthorized "Account disabled")
      else
        .ok {
          user := { id := key.userId, isAdmin := user.isAdmin, apiKeyScopes := key.scopes }
          authVia := .apiKey }

/-- The route of a request. -/
def Entry.route : Entry → Route
  | .login .. | .loginTotp .. | .passkeyLoginOptions | .passkeyLogin .. =>
      { method := .post, isPublic := true }
  | .changePassword .. | .setupTotp _ | .enableTotp .. | .disableTotp ..
  | .registrationOptions _ | .verifyRegistration .. => { method := .post }
  | .updateUser .. => { method := .patch, requireAdmin := true }
  | .removeUser _ => { method := .delete, requireAdmin := true }

/-- The account a request acts on as the one that sends it. -/
def Entry.currentUser : Entry → Option Uuid
  | .changePassword user .. | .setupTotp user | .enableTotp user _ | .disableTotp user _
  | .registrationOptions user | .verifyRegistration user .. => some user
  | .login .. | .loginTotp .. | .passkeyLoginOptions | .passkeyLogin .. | .updateUser ..
  | .removeUser _ => none

/-- Who has a key, and whether administrators may act from the address. -/
structure KeyHolder where
  key : ApiKey
  addressAllowed : Bool

/-- The requests the holder can send. -/
def KeyHolder.admits (holder : KeyHolder) (server : Server) (entry : Entry) : Bool :=
  entry.route.isPublic ||
    match server.accounts.fromApiKey server.now holder.key with
    | .error _ => false
    | .ok principal =>
        (canActivate entry.route principal holder.addressAllowed).isOk &&
          entry.currentUser.all fun user => user = principal.user.id

/-- The holder proves neither the password of the account nor a passkey it had at the start,
and signs in as an administrator from an allowed address only. -/
def Call.provesNothing (holder : KeyHolder) (start : Accounts) : Call → Outcome → Bool
  | .login _ password (.verifyPassword id user), _ =>
      id ≠ holder.key.userId || !Auth.verifyPassword user password
  | .changePassword id password _ (.verifyPassword user), _
  | .disableTotp id password (.verifyPassword user), _ =>
      id ≠ holder.key.userId || !Auth.verifyPassword user password
  | .passkeyLogin _ _ (.verifyResponse id row), .counts _ =>
      row.userId ≠ holder.key.userId || (start.webauthnCredentials.get? id).isNone
  | .issue _ _ (.assertAllowed _ isAdmin), .returns => !isAdmin || holder.addressAllowed
  | _, _ => true

/-- A step of a run in which all requests are the holder's. -/
def ByKey (holder : KeyHolder) (start : Accounts) (server : Server) : Action → Bool
  | .tick _ => true
  | .configure .. => false
  | .begin entry => holder.admits server entry
  | .resume index outcome =>
      (server.calls[index]?).all fun call => call.provesNothing holder start outcome

/-- The key, the account or the login settings bar the registration of a passkey or a login
with it. -/
def KeyHolder.barred (holder : KeyHolder) (scopes : ApiKeyScopes) (server : Server) : Bool :=
  (scopes.actions.all fun action => action = "read") ||
    (holder.key.expiresAt.any fun expires => expires < server.now) ||
    !server.accounts.localLoginEnabled ||
    (server.accounts.users.get? holder.key.userId).all fun row =>
      row.authSource ≠ .«local» || row.disabled || (row.isAdmin && !holder.addressAllowed)

/-- The holder can register a passkey of the account. -/
def KeyHolder.registers (holder : KeyHolder) (server : Server) : Bool :=
  holder.admits server (.registrationOptions holder.key.userId) &&
    (server.accounts.users.get? holder.key.userId).any fun row => row.authSource = .«local»

section Guard

variable {holder : KeyHolder} {scopes : ApiKeyScopes} {server : Server} {entry : Entry}

/-- Which requests of the signed-in account the holder of a key with the scopes can send. -/
theorem KeyHolder.admits_post (limits : holder.key.scopes = some scopes)
    (undecorated : entry.route = { method := .post })
    (addressed : entry.currentUser = some holder.key.userId) :
    holder.admits server entry = (server.accounts.users.get? holder.key.userId).any fun row =>
      !(holder.key.expiresAt.any fun expires => expires < server.now) && !row.disabled &&
        (!row.isAdmin || holder.addressAllowed) &&
        (scopes.actions.contains "*" || scopes.actions.any fun action => action ≠ "read") := by
  unfold admits Accounts.fromApiKey
  rw [undecorated, addressed]
  cases server.accounts.users.get? holder.key.userId with
  | none => rfl
  | some row =>
      cases holder.key.expiresAt.any fun expires => expires < server.now
      · cases off : row.disabled
        · simp [canActivate_undecorated, coarseScope_isOk, limits, Method.mutating, off]
        · simp [off]
      · simp

/-- A key is not admitted to another account, nor to the routes of administrators. -/
theorem KeyHolder.admits_source (admitted : holder.admits server entry = true) :
    entry.route.isPublic = true ∨ entry.currentUser = some holder.key.userId := by
  unfold admits Accounts.fromApiKey at admitted
  cases isPublic : entry.route.isPublic
  · right
    rw [isPublic, Bool.false_or] at admitted
    repeat' split at admitted
    · cases admitted
    · rename_i principal found
      split at found
      · cases found
      · split at found
        · cases found
        · split at found
          · cases found
          · cases found
            rw [Bool.and_eq_true] at admitted
            obtain ⟨active, addressed⟩ := admitted
            cases entry with
            | updateUser id dto =>
                rw [canActivate_of_admin _ rfl rfl rfl] at active
                cases active
            | removeUser id =>
                rw [canActivate_of_admin _ rfl rfl rfl] at active
                cases active
            | login | loginTotp | passkeyLoginOptions | passkeyLogin => cases isPublic
            | changePassword | setupTotp | enableTotp | disableTotp | registrationOptions
            | verifyRegistration =>
                have same := of_decide_eq_true addressed
                exact congrArg some same
  · exact Or.inl rfl

end Guard

/-- How far a call of the holder comes. -/
def Call.Harmless (holder : KeyHolder) (start : Server) : Call → Prop
  | .issue user _ (.findUser session) | .issue user _ (.assertAllowed session _) =>
      user ≠ holder.key.userId ∧ session.user ≠ holder.key.userId
  | .issue user _ _ => user ≠ holder.key.userId
  | .login _ _ (.signChallenge id _) => id ≠ holder.key.userId
  | .changePassword id _ _ (.hashPassword) | .changePassword id _ _ (.write _) =>
      id ≠ holder.key.userId
  | .updateUser .. | .removeUser .. => False
  | .registrationOptions id .readAccount =>
      id = holder.key.userId → holder.admits start (.registrationOptions id) = true
  | .registrationOptions id _ | .verifyRegistration id _ _ _ .verifyResponse
  | .verifyRegistration id _ _ _ (.insert _) =>
      id = holder.key.userId → holder.registers start = true
  | .passkeyLogin _ _ .assertEnabled => True
  | .passkeyLogin _ _ .readChallenge | .passkeyLogin _ _ .findCredential =>
      start.accounts.localLoginEnabled = true
  | .passkeyLogin _ _ (.verifyResponse id row) =>
      row.userId = holder.key.userId → (start.accounts.webauthnCredentials.get? id).isSome = true
  | .passkeyLogin _ _ (.touch _ row _) => row.userId ≠ holder.key.userId
  | _ => True

/-- What a run of the holder's requests keeps, as long as a passkey cannot be both
registered and used. -/
structure Withstands (holder : KeyHolder) (start server : Server) : Prop where
  config : server.accounts.localLoginEnabled = start.accounts.localLoginEnabled
  since : start.now ≤ server.now
  row : ∀ row, server.accounts.users.get? holder.key.userId = some row →
    ∃ old, start.accounts.users.get? holder.key.userId = some old ∧
      row.authSource = old.authSource ∧ row.disabled = old.disabled ∧ row.isAdmin = old.isAdmin
  present : (start.accounts.users.get? holder.key.userId).isSome = true →
    (server.accounts.users.get? holder.key.userId).isSome = true
  calls : ∀ call ∈ server.calls, call.Harmless holder start
  totpChallenges : ∀ token challenge, server.totpChallenges.get? token = some challenge →
    challenge.user ≠ holder.key.userId
  registration : ∀ token challenge, server.webauthnChallenges.get? token = some challenge →
    challenge.user = some holder.key.userId → holder.registers start = true
  credentials : ∀ id row, server.accounts.webauthnCredentials.get? id = some row →
    row.userId = holder.key.userId →
      holder.registers start = true ∨ (start.accounts.webauthnCredentials.get? id).isSome = true
  sessions : ∀ session grounds, .sessionIssued session grounds ∈ server.journal →
    session.user ≠ holder.key.userId

section Step

variable {settings : Settings} {holder : KeyHolder} {scopes : ApiKeyScopes}
  {start server : Server} {index : Nat} {current : Call} {outcome : Outcome} {effect : Effect}

/-- What is admitted later was admitted at the start. -/
theorem Withstands.admitted (withstands : Withstands holder start server)
    (limits : holder.key.scopes = some scopes) {id : Uuid}
    (admitted : holder.admits server (.registrationOptions id) = true) :
    holder.admits start (.registrationOptions id) = true := by
  have same : id = holder.key.userId := by
    rcases KeyHolder.admits_source admitted with isPublic | same
    · cases isPublic
    · exact Option.some.inj same
  subst same
  rw [KeyHolder.admits_post limits rfl rfl] at admitted ⊢
  obtain ⟨row, found, active⟩ := (Option.any_eq_true _ _).mp admitted
  obtain ⟨old, was, -, disabled, isAdmin⟩ := withstands.row row found
  rw [was, Option.any_some]
  rw [disabled, isAdmin] at active
  simp only [Bool.and_eq_true, Bool.not_eq_true'] at active ⊢
  refine ⟨⟨⟨?_, active.1.1.2⟩, active.1.2⟩, active.2⟩
  have later := active.1.1.1
  cases expires : holder.key.expiresAt with
  | none => rfl
  | some instant =>
      rw [expires] at later
      have alive : ¬instant < server.now := of_decide_eq_false later
      have since := withstands.since
      exact decide_eq_false (by omega)

theorem credential_source {accounts : Accounts} {credentialId : String} {id : Uuid}
    {row : WebauthnCredential} (found : accounts.credential credentialId = some (id, row)) :
    accounts.webauthnCredentials.get? id = some row :=
  Table.mem_rows.mp (List.mem_of_find?_eq_some found)

theorem Call.next_harmless (withstands : Withstands holder start server)
    (limits : holder.key.scopes = some scopes)
    (apart : holder.registers start = true → start.accounts.localLoginEnabled = false)
    (steps : current.step settings server outcome = some effect)
    (permitted : current.provesNothing holder start.accounts outcome = true)
    (harmless : current.Harmless holder start) : effect.next.Harmless holder start := by
  cases current
  case done => cases steps
  all_goals
    rename_i phase
    cases phase <;> cases outcome <;>
      simp only [step, LoginPhase.step, LoginTotpPhase.step, IssuePhase.step, UpdatePhase.step,
        ChangePasswordPhase.step, RemovePhase.step, SetupTotpPhase.step, EnableTotpPhase.step,
        DisableTotpPhase.step, RegisterOptionsPhase.step, RegisterPhase.step,
        LoginOptionsPhase.step, PasskeyLoginPhase.step, reduceCtorEq] at steps
  case issue.sign.returns user grounds generation =>
    cases steps
    exact ⟨harmless, harmless⟩
  case login.verifyPassword.returns email password id user =>
    have unproven : ¬Auth.verifyPassword user password = true ∨ id ≠ holder.key.userId := by
      simpa [provesNothing, or_comm, Decidable.imp_iff_not_or] using permitted
    split at steps
    case isFalse =>
      cases steps
      trivial
    case isTrue verified =>
      have other := unproven.resolve_left fun unverified => unverified verified
      split at steps <;> cases steps
      · exact other
      · exact other
  case loginTotp.burnChallenge.returns token code =>
    split at steps
    case h_1 => cases steps
    case h_2 challenge found =>
      cases steps
      exact withstands.totpChallenges token challenge found
  case changePassword.verifyPassword.returns id old new user =>
    have unproven : ¬Auth.verifyPassword user old = true ∨ id ≠ holder.key.userId := by
      simpa [provesNothing, or_comm, Decidable.imp_iff_not_or] using permitted
    split at steps <;> cases steps
    case isTrue verified => exact unproven.resolve_left fun unverified => unverified verified
    case isFalse => trivial
  case registrationOptions.readAccount.returns id =>
    split at steps <;> cases steps
    case isFalse => trivial
    case isTrue here =>
      intro same
      have admitted := harmless same
      subst same
      unfold KeyHolder.registers
      rw [admitted, Bool.true_and]
      rw [KeyHolder.admits_post limits rfl rfl] at admitted
      obtain ⟨old, was, -⟩ := (Option.any_eq_true _ _).mp admitted
      obtain ⟨row, found⟩ := Option.isSome_iff_exists.mp (withstands.present (by rw [was]; rfl))
      obtain ⟨other, same, source, -⟩ := withstands.row row found
      rw [was] at same
      cases same
      rw [found] at here
      have «local» : row.authSource = .«local» := of_decide_eq_true here
      rw [was, Option.any_some]
      exact decide_eq_true (source ▸ «local»)
  case verifyRegistration.readChallenge.returns id token credentialId name =>
    split at steps
    case h_1 =>
      cases steps
      trivial
    case h_2 challenge found =>
      split at steps <;> cases steps
      case isFalse => trivial
      case isTrue valid =>
        simp only [Bool.and_eq_true, decide_eq_true_eq] at valid
        intro same
        exact withstands.registration token challenge found (same ▸ valid.2)
  case passkeyLogin.assertEnabled.returns token credentialId =>
    split at steps <;> cases steps
    case isTrue enabled =>
      change start.accounts.localLoginEnabled = true
      rw [← withstands.config]
      exact enabled
    case isFalse => trivial
  case passkeyLogin.findCredential.returns token credentialId =>
    split at steps <;> cases steps
    case h_1 => trivial
    case h_2 id row found =>
      intro same
      have enabled : start.accounts.localLoginEnabled = true := harmless
      rcases withstands.credentials id row (credential_source found) same with registers | had
      · rw [apart registers] at enabled
        cases enabled
      · exact had
  case passkeyLogin.verifyResponse.counts token credentialId id row counter =>
    cases steps
    intro same
    have had : (start.accounts.webauthnCredentials.get? id).isSome = true := harmless same
    have unproven : row.userId ≠ holder.key.userId ∨
        (start.accounts.webauthnCredentials.get? id).isNone = true := by
      simpa [provesNothing, Decidable.imp_iff_not_or] using permitted
    rcases unproven with other | none
    · exact other same
    · rw [Option.isNone_iff_eq_none] at none
      rw [none] at had
      cases had
  all_goals
    repeat' split at steps
    all_goals cases steps
    all_goals trivial

/-- What a step of a harmless call makes of the account's row. -/
theorem Withstands.row_after (withstands : Withstands holder start server)
    (steps : current.step settings server outcome = some effect)
    (harmless : current.Harmless holder start) {row : User}
    (found : (effect.statement.execute server.accounts).users.get? holder.key.userId = some row) :
    ∃ old, start.accounts.users.get? holder.key.userId = some old ∧
      row.authSource = old.authSource ∧ row.disabled = old.disabled ∧
      row.isAdmin = old.isAdmin := by
  rcases Statement.user_after found with same | ⟨before, update, was, updates, equal⟩
  · exact withstands.row row same
  · subst equal
    have source := Call.step_source steps
    rw [updates] at source
    obtain ⟨old, here, unchanged⟩ := withstands.row before was
    refine ⟨old, here, ?_⟩
    cases update with
    | edit patch =>
        obtain ⟨dto, writes⟩ := source
        subst writes
        exact harmless.elim
    | changePassword | setupTotp | enableTotp | disableTotp | useRecoveryCode => exact unchanged

theorem Withstands.present_after (withstands : Withstands holder start server)
    (steps : current.step settings server outcome = some effect)
    (harmless : current.Harmless holder start)
    (was : (start.accounts.users.get? holder.key.userId).isSome = true) :
    ((effect.statement.execute server.accounts).users.get? holder.key.userId).isSome = true := by
  obtain ⟨row, found⟩ := Option.isSome_iff_exists.mp (withstands.present was)
  have kept : effect.statement ≠ .deleteUser holder.key.userId := by
    intro deletes
    have source := Call.step_source steps
    rw [deletes] at source
    subst source
    exact harmless
  obtain ⟨after, same, -⟩ := Statement.user_kept found kept
  rw [same]
  rfl

theorem pastGuard_unsigned (id : Uuid) (dto : UpdateUserDto) (user : User) :
    (pastGuard id dto user).webauthnChallenge = none := by
  unfold pastGuard
  repeat' split
  all_goals rfl

/-- A challenge for a registration is signed by the request for its options. -/
theorem Call.webauthnChallenge_source
    (steps : current.step settings server outcome = some effect) {challenge : WebauthnChallenge}
    (signs : effect.webauthnChallenge = some challenge) :
    (∃ id, current = .registrationOptions id .signChallenge ∧
        challenge = { user := some id, issuedAt := server.now }) ∨
      (current = .passkeyLoginOptions .signChallenge ∧
        challenge = { user := none, issuedAt := server.now }) := by
  cases current
  case done => cases steps
  all_goals
    rename_i phase
    cases phase <;> cases outcome <;>
      simp only [step, LoginPhase.step, LoginTotpPhase.step, IssuePhase.step, UpdatePhase.step,
        ChangePasswordPhase.step, RemovePhase.step, SetupTotpPhase.step, EnableTotpPhase.step,
        DisableTotpPhase.step, RegisterOptionsPhase.step, RegisterPhase.step,
        LoginOptionsPhase.step, PasskeyLoginPhase.step, reduceCtorEq] at steps
  case registrationOptions.signChallenge.returns id =>
    cases steps
    cases signs
    exact Or.inl ⟨id, rfl, rfl⟩
  case passkeyLoginOptions.signChallenge.returns =>
    cases steps
    cases signs
    exact Or.inr ⟨rfl, rfl⟩
  all_goals
    repeat' split at steps
    all_goals cases steps
    all_goals first
      | cases signs
      | rw [pastGuard_unsigned] at signs; cases signs

/-- A challenge of a login is signed for the account whose password was verified. -/
theorem Call.totpChallenge_user (steps : current.step settings server outcome = some effect)
    {challenge : TotpChallenge} (signs : effect.totpChallenge = some challenge) :
    ∃ email password user, current = .login email password (.signChallenge challenge.user user) := by
  cases current
  case done => cases steps
  all_goals
    rename_i phase
    cases phase <;> cases outcome <;>
      simp only [step, LoginPhase.step, LoginTotpPhase.step, IssuePhase.step, UpdatePhase.step,
        ChangePasswordPhase.step, RemovePhase.step, SetupTotpPhase.step, EnableTotpPhase.step,
        DisableTotpPhase.step, RegisterOptionsPhase.step, RegisterPhase.step,
        LoginOptionsPhase.step, PasskeyLoginPhase.step, reduceCtorEq] at steps
  case login.signChallenge.returns email password id user =>
    cases steps
    cases signs
    exact ⟨email, password, user, rfl⟩
  all_goals
    repeat' split at steps
    all_goals cases steps
    all_goals first
      | cases signs
      | rw [(pastGuard_state _ _ _).2] at signs; cases signs

theorem Withstands.after (withstands : Withstands holder start server)
    (limits : holder.key.scopes = some scopes)
    (apart : holder.registers start = true → start.accounts.localLoginEnabled = false)
    (present : server.calls[index]? = some current)
    (steps : current.step settings server outcome = some effect)
    (permitted : current.provesNothing holder start.accounts outcome = true) :
    Withstands holder start (server.after index effect) := by
  have harmless := withstands.calls current (List.mem_of_getElem? present)
  have source := Call.step_source steps
  refine ⟨?_, withstands.since, fun row found => withstands.row_after steps harmless found,
    withstands.present_after steps harmless, fun call member => ?_, fun token challenge found => ?_,
    fun token challenge found mine => ?_, fun id row found mine => ?_,
    fun session grounds issued => ?_⟩
  · have same : (effect.statement.execute server.accounts).localLoginEnabled =
        server.accounts.localLoginEnabled := by
      cases effect.statement <;> rfl
    exact same.trans withstands.config
  · rcases Pool.mem_advance member with old | same | started
    · exact withstands.calls call old
    · rw [same]
      exact Call.next_harmless withstands limits apart steps permitted harmless
    · cases started
  · rcases signed_cases found with old | ⟨-, new⟩
    · exact withstands.totpChallenges token challenge old
    · obtain ⟨email, password, user, was⟩ := Call.totpChallenge_user steps new
      rw [was] at harmless
      exact harmless
  · rcases signed_cases found with old | ⟨-, new⟩
    · exact withstands.registration token challenge old mine
    · rcases Call.webauthnChallenge_source steps new with ⟨id, was, same⟩ | ⟨was, same⟩
      · rw [was] at harmless
        rw [same] at mine
        exact harmless (Option.some.inj mine)
      · rw [same] at mine
        cases mine
  · rcases Statement.credential_after found with ⟨old, was, same, -⟩ | inserts
    · exact withstands.credentials id old was (same.trans mine)
    · rw [inserts] at source
      obtain ⟨token, credentialId, name, counter, was⟩ := source
      rw [was] at harmless
      exact Or.inl (harmless mine)
  · rcases List.mem_append.mp issued with old | new
    · exact withstands.sessions session grounds old
    · obtain ⟨user, was | ⟨isAdmin, was⟩⟩ := Call.event_source steps new
      · rw [was] at harmless
        exact harmless.2
      · rw [was] at harmless
        exact harmless.2

end Step

section Runs

variable {settings : Settings} {holder : KeyHolder} {scopes : ApiKeyScopes}
  {start server : Server}

theorem Entry.call_harmless (withstands : Withstands holder start server)
    (limits : holder.key.scopes = some scopes) {entry : Entry}
    (admitted : holder.admits server entry = true) : entry.call.Harmless holder start := by
  cases entry with
  | updateUser | removeUser => rcases KeyHolder.admits_source admitted with other | other <;> cases other
  | registrationOptions user => exact fun _ => withstands.admitted limits admitted
  | _ => trivial

theorem Withstands.initially (started : Server.Started (fun _ => True) start) :
    Withstands holder start start := by
  refine ⟨rfl, Nat.le_refl _, fun row found => ⟨row, found, rfl, rfl, rfl⟩, id,
    fun call member => ?_, fun token challenge found => ?_, fun token challenge found => ?_,
    fun id row found _ => Or.inr (by rw [found]; rfl), fun session grounds issued => ?_⟩
  · rw [Server.Started.calls started] at member
    cases member
  · rw [Server.Started.totpChallenges started] at found
    cases found
  · rw [Server.Started.webauthnChallenges started] at found
    cases found
  · rw [Server.Started.journal started] at issued
    cases issued

theorem withstands_of_steps (limits : holder.key.scopes = some scopes)
    (apart : holder.registers start = true → start.accounts.localLoginEnabled = false)
    (started : Server.Started (fun _ => True) start)
    (steps : (authServer settings fun _ => True).Steps
      (fun server action => ByKey holder start.accounts server action = true) start server) :
    Withstands holder start server := by
  induction steps with
  | refl => exact .initially started
  | tail before permitted stepped ih =>
      rcases Server.step_cases stepped with ⟨elapsed, -, same⟩ | ⟨_, _, configures, -⟩ |
        ⟨entry, begins, same⟩ | ⟨index, outcome, current, effect, resumes, present, steps, same⟩
      · subst same
        exact ⟨ih.config, Nat.le_trans ih.since (Nat.le_add_right ..), ih.row, ih.present, ih.calls,
          ih.totpChallenges, ih.registration, ih.credentials, ih.sessions⟩
      · subst configures
        cases permitted
      · subst begins
        subst same
        refine ⟨ih.config, ih.since, ih.row, ih.present, fun call member => ?_, ih.totpChallenges,
          ih.registration, ih.credentials, ih.sessions⟩
        rcases List.mem_append.mp member with old | new
        · exact ih.calls call old
        · rw [List.mem_singleton.mp new]
          exact Entry.call_harmless ih limits permitted
      · subst resumes
        subst same
        refine ih.after limits apart present steps ?_
        simpa [ByKey, present] using permitted

/-- The runs of the holder's requests. -/
abbrev KeyHolder.Runs (holder : KeyHolder) (settings : Settings) (start server : Server) : Prop :=
  (authServer settings fun _ => True).Steps
    (fun server action => ByKey holder start.accounts server action = true) start server

/-- A run goes on with a step of a call. -/
theorem KeyHolder.Runs.resume {index : Nat} {current : Call} {outcome : Outcome}
    {effect : Effect} (run : holder.Runs settings start server)
    (present : server.calls[index]? = some current)
    (permitted : current.provesNothing holder start.accounts outcome = true)
    (steps : current.step settings server outcome = some effect) :
    holder.Runs settings start (server.after index effect) ∧
      (server.after index effect).calls[index]? = some effect.next := by
  have moves : ByKey holder start.accounts server (.resume index outcome) = true := by
    simpa [ByKey, present] using permitted
  refine ⟨System.Steps.tail run moves ?_, Pool.getElem?_advance_self present⟩
  change (server.calls[index]?).bind _ = _
  rw [present, Option.bind_some, steps]
  rfl

/-- A run goes on with a request. -/
theorem KeyHolder.Runs.begin {entry : Entry} (run : holder.Runs settings start server)
    (admitted : holder.admits server entry = true) :
    holder.Runs settings start { server with calls := server.calls ++ [entry.call] } ∧
      (server.calls ++ [entry.call])[server.calls.length]? = some entry.call := by
  have begins : ByKey holder start.accounts server (.begin entry) = true := admitted
  exact ⟨System.Steps.tail run begins rfl, by simp⟩

theorem withinLifetime_self (now : Nat) : withinLifetime challengeSeconds now now = true :=
  decide_eq_true (by unfold challengeSeconds; omega)

section Ceremony

variable {user token : Uuid} {credentialId name : String} {challenge : WebauthnChallenge}

theorem step_readAccount
    (here : ((server.accounts.users.get? user).all fun row => row.authSource = .«local») = true) :
    Call.step settings server (.registrationOptions user .readAccount) .returns =
      some { next := .registrationOptions user .readExisting } := if_pos here

theorem step_registrationChallenge
    (found : server.webauthnChallenges.get? token = some challenge)
    (alive : withinLifetime challengeSeconds challenge.issuedAt server.now = true)
    (mine : challenge.user = some user) :
    Call.step settings server (.verifyRegistration user token credentialId name .readChallenge)
      .returns = some { next :=
        .verifyRegistration user token credentialId name .verifyResponse } := by
  simp [Call.step, RegisterPhase.step, found, alive, mine]

theorem step_insert (counter : Nat) (known : (server.accounts.users.get? user).isSome = true)
    (unused : (server.accounts.webauthnCredentials.anyWhere
      fun _ row => row.credentialId = credentialId) = false) :
    Call.step settings server (.verifyRegistration user token credentialId name (.insert counter))
      .returns = some {
        next := .done
        statement := .insertCredential {
          userId := user, credentialId, counter, name := passkeyName name } } := by
  simp [Call.step, RegisterPhase.step, known, unused]

theorem step_loginChallenge
    (found : server.webauthnChallenges.get? token = some challenge)
    (alive : withinLifetime challengeSeconds challenge.issuedAt server.now = true)
    (anyone : challenge.user = none) :
    Call.step settings server (.passkeyLogin token credentialId .readChallenge) .returns =
      some { next := .passkeyLogin token credentialId .findCredential } := by
  simp [Call.step, PasskeyLoginPhase.step, found, alive, anyone]

theorem step_findCredential {id : Uuid} {row : WebauthnCredential}
    (found : server.accounts.credential credentialId = some (id, row)) :
    Call.step settings server (.passkeyLogin token credentialId .findCredential) .returns =
      some { next := .passkeyLogin token credentialId (.verifyResponse id row) } := by
  simp [Call.step, PasskeyLoginPhase.step, found]

theorem step_issue {id : Uuid} {row : User} (found : server.accounts.users.get? user = some row)
    (active : row.disabled = false) :
    Call.step settings server (.issue user (.passkey id) .readUser) .returns =
      some { next := .issue user (.passkey id) .epoch } := by
  simp [Call.step, IssuePhase.step, found, active]

theorem step_findUser {id : Uuid} {row : User} {session : Session}
    (found : server.accounts.users.get? user = some row) :
    Call.step settings server (.issue user (.passkey id) (.findUser session)) .returns =
      some { next := .issue user (.passkey id) (.assertAllowed session row.isAdmin) } := by
  simp [Call.step, IssuePhase.step, found]

end Ceremony

/-- The holder gets the options of a registration. -/
theorem KeyHolder.Runs.registrationOptions (run : holder.Runs settings start server)
    (same : server.accounts = start.accounts) (now : server.now = start.now)
    (registers : holder.registers start = true) :
    ∃ later token, holder.Runs settings start later ∧ later.accounts = start.accounts ∧
      later.now = start.now ∧ later.webauthnChallenges.get? token =
        some { user := some holder.key.userId, issuedAt := start.now } := by
  obtain ⟨admitted, here⟩ := Bool.and_eq_true_iff.mp registers
  have admitted : holder.admits server (.registrationOptions holder.key.userId) = true := by
    unfold KeyHolder.admits at admitted ⊢
    rw [same, now]
    exact admitted
  have «local» : ((server.accounts.users.get? holder.key.userId).all
      fun row => row.authSource = .«local») = true := by
    rw [same]
    obtain ⟨row, found, source⟩ := (Option.any_eq_true _ _).mp here
    rw [found]
    exact source
  obtain ⟨run, present⟩ := run.begin admitted
  obtain ⟨run, present⟩ := run.resume present rfl (step_readAccount «local»)
  have reads : ∀ server, Call.step settings server
      (.registrationOptions holder.key.userId .readExisting) .returns =
        some { next := .registrationOptions holder.key.userId .signChallenge } := fun _ => rfl
  have signs : ∀ server, Call.step settings server
      (.registrationOptions holder.key.userId .signChallenge) .returns = some {
        next := .done
        webauthnChallenge :=
          some { user := some holder.key.userId, issuedAt := server.now } } := fun _ => rfl
  obtain ⟨run, present⟩ := run.resume present rfl (reads _)
  obtain ⟨run, -⟩ := run.resume present rfl (signs _)
  refine ⟨_, freshId server.webauthnChallenges, run, same, now, ?_⟩
  rw [← now]
  exact Table.get?_insert_self (get?_freshId _)

/-- The holder registers a passkey. -/
theorem KeyHolder.Runs.register (run : holder.Runs settings start server)
    (same : server.accounts = start.accounts) (now : server.now = start.now)
    (registers : holder.registers start = true) {token : Uuid}
    (signed : server.webauthnChallenges.get? token =
      some { user := some holder.key.userId, issuedAt := start.now })
    {credentialId : String} (unused : (start.accounts.webauthnCredentials.anyWhere
      fun _ row => row.credentialId = credentialId) = false) :
    ∃ later, holder.Runs settings start later ∧ later.now = start.now ∧
      later.accounts = (Statement.insertCredential {
        userId := holder.key.userId, credentialId, counter := 0, name := passkeyName "" }).execute
          start.accounts := by
  obtain ⟨admitted, here⟩ := Bool.and_eq_true_iff.mp registers
  obtain ⟨row, found, -⟩ := (Option.any_eq_true _ _).mp here
  rw [← same] at found unused
  have admitted : holder.admits server
      (.verifyRegistration holder.key.userId token credentialId "") = true := by
    unfold KeyHolder.admits at admitted ⊢
    rw [same, now]
    exact admitted
  obtain ⟨run, present⟩ := run.begin admitted
  have alive : withinLifetime challengeSeconds start.now server.now = true := by
    rw [now]
    exact withinLifetime_self _
  obtain ⟨run, present⟩ :=
    run.resume present rfl (step_registrationChallenge signed alive rfl)
  have verified : ∀ server, Call.step settings server (.verifyRegistration holder.key.userId token
      credentialId "" .verifyResponse) (.counts 0) = some {
        next := .verifyRegistration holder.key.userId token credentialId "" (.insert 0) } :=
    fun _ => rfl
  obtain ⟨run, present⟩ := run.resume present rfl (verified _)
  have known : (server.accounts.users.get? holder.key.userId).isSome = true := by
    rw [found]
    rfl
  obtain ⟨run, -⟩ := run.resume present rfl (step_insert 0 known unused)
  refine ⟨_, run, now, ?_⟩
  rw [← same]
  rfl

/-- The holder gets the options of a login. -/
theorem KeyHolder.Runs.loginOptions (run : holder.Runs settings start server)
    (enabled : server.accounts.localLoginEnabled = true) :
    ∃ later token, holder.Runs settings start later ∧ later.accounts = server.accounts ∧
      later.now = server.now ∧ later.webauthnChallenges.get? token =
        some { user := none, issuedAt := server.now } := by
  have admitted : holder.admits server .passkeyLoginOptions = true := rfl
  obtain ⟨run, present⟩ := run.begin admitted
  have begins : ∀ server : Server, server.accounts.localLoginEnabled = true →
      Call.step settings server (.passkeyLoginOptions .assertEnabled) .returns =
        some { next := .passkeyLoginOptions .signChallenge } := fun _ enabled => if_pos enabled
  have signs : ∀ server, Call.step settings server (.passkeyLoginOptions .signChallenge) .returns =
      some {
        next := .done
        webauthnChallenge := some { user := none, issuedAt := server.now } } := fun _ => rfl
  obtain ⟨run, present⟩ := run.resume present rfl (begins _ enabled)
  obtain ⟨run, -⟩ := run.resume present rfl (signs _)
  exact ⟨_, freshId server.webauthnChallenges, run, rfl, rfl,
    Table.get?_insert_self (get?_freshId _)⟩

/-- The holder signs in with a passkey that was not there at the start. -/
theorem KeyHolder.Runs.signIn (run : holder.Runs settings start server)
    (enabled : server.accounts.localLoginEnabled = true) {token : Uuid}
    (signed : server.webauthnChallenges.get? token =
      some { user := none, issuedAt := server.now })
    {credentialId : String} {id : Uuid} {row : WebauthnCredential}
    (found : server.accounts.credential credentialId = some (id, row))
    (new : start.accounts.webauthnCredentials.get? id = none) {user : User}
    (known : server.accounts.users.get? row.userId = some user)
    (active : user.disabled = false)
    (allowed : (!user.isAdmin || holder.addressAllowed) = true) :
    ∃ later session grounds, holder.Runs settings start later ∧
      .sessionIssued session grounds ∈ later.journal ∧ session.user = row.userId := by
  have admitted : holder.admits server (.passkeyLogin token credentialId) = true := rfl
  obtain ⟨run, present⟩ := run.begin admitted
  have begins : ∀ server : Server, server.accounts.localLoginEnabled = true →
      Call.step settings server (.passkeyLogin token credentialId .assertEnabled) .returns =
        some { next := .passkeyLogin token credentialId .readChallenge } :=
    fun _ enabled => if_pos enabled
  obtain ⟨run, present⟩ := run.resume present rfl (begins _ enabled)
  obtain ⟨run, present⟩ :=
    run.resume present rfl (step_loginChallenge signed (withinLifetime_self _) rfl)
  obtain ⟨run, present⟩ := run.resume present rfl (step_findCredential found)
  have verified : ∀ server, Call.step settings server
      (.passkeyLogin token credentialId (.verifyResponse id row)) (.counts 0) =
        some { next := .passkeyLogin token credentialId (.touch id row 0) } := fun _ => rfl
  have unproven : Call.provesNothing holder start.accounts
      (.passkeyLogin token credentialId (.verifyResponse id row)) (.counts 0) = true := by
    simp [Call.provesNothing, new]
  obtain ⟨run, present⟩ := run.resume present unproven (verified _)
  have touched : ∀ server, Call.step settings server
      (.passkeyLogin token credentialId (.touch id row 0)) .returns = some {
        next := .issue row.userId (.passkey id) .readUser
        statement := .touchCredential id 0 } := fun _ => rfl
  obtain ⟨run, present⟩ := run.resume present rfl (touched _)
  obtain ⟨run, present⟩ := run.resume present rfl (step_issue known active)
  have reads : ∀ server : Server, Call.step settings server
      (.issue row.userId (.passkey id) .epoch) .returns = some {
        next := .issue row.userId (.passkey id)
          (.sign (server.accounts.sessionEpoch row.userId)) } := fun _ => rfl
  have signs : ∀ (server : Server) (generation : Nat), Call.step settings server
      (.issue row.userId (.passkey id) (.sign generation)) .returns = some {
        next := .issue row.userId (.passkey id) (.findUser {
          user := row.userId
          epoch := generation
          expiresAt := server.now / 1000 + settings.jwtExpiresInSeconds }) } := fun _ _ => rfl
  obtain ⟨run, present⟩ := run.resume present rfl (reads _)
  obtain ⟨run, present⟩ := run.resume present rfl (signs _ _)
  obtain ⟨run, present⟩ := run.resume present rfl (step_findUser known)
  have issues : ∀ (server : Server) (session : Session), Call.step settings server
      (.issue row.userId (.passkey id) (.assertAllowed session user.isAdmin)) .returns = some {
        next := .done, events := [.sessionIssued session (.passkey id)] } := fun _ _ => rfl
  have permits : ∀ session, Call.provesNothing holder start.accounts
      (.issue row.userId (.passkey id) (.assertAllowed session user.isAdmin)) .returns = true :=
    fun _ => allowed
  obtain ⟨run, -⟩ := run.resume present (permits _) (issues _ _)
  exact ⟨_, _, _, run, List.mem_append_right _ (List.mem_singleton.mpr rfl), rfl⟩

/-- Some credential id is not in use yet. -/
theorem exists_unused (accounts : Accounts) : ∃ credentialId,
    (accounts.webauthnCredentials.anyWhere fun _ row => row.credentialId = credentialId) =
      false := by
  obtain ⟨chars, unused⟩ := Infinite.exists_notMem_finset
    ((accounts.webauthnCredentials.rows.map fun entry => entry.2.credentialId.toList).toFinset)
  refine ⟨String.ofList chars, Table.anyWhere_eq_false.mpr fun key row found => ?_⟩
  refine decide_eq_false fun same => unused ?_
  rw [List.mem_toFinset, List.mem_map]
  exact ⟨(key, row), Table.mem_rows.mpr found, by rw [same, String.toList_ofList]⟩

/-- The credential that was just inserted is found by its id. -/
theorem credential_inserted {accounts : Accounts} {row : WebauthnCredential}
    (unused : (accounts.webauthnCredentials.anyWhere
      fun _ other => other.credentialId = row.credentialId) = false) :
    ((Statement.insertCredential row).execute accounts).credential row.credentialId =
      some (freshId accounts.webauthnCredentials, row) := by
  unfold Accounts.credential
  change (accounts.webauthnCredentials.insert (freshId accounts.webauthnCredentials) row).rows.find?
    _ = _
  rw [Table.rows_insert (get?_freshId _), List.find?_append]
  have none : accounts.webauthnCredentials.rows.find?
      (fun entry => entry.2.credentialId = row.credentialId) = none := by
    rw [List.find?_eq_none]
    rintro ⟨key, other⟩ listed
    simpa using Table.anyWhere_eq_false.mp unused key other (Table.mem_rows.mp listed)
  rw [none]
  simp

/-- Where nothing bars it, the holder gets a session of the account. -/
theorem KeyHolder.exists_session (registers : holder.registers start = true)
    (enabled : start.accounts.localLoginEnabled = true)
    (limits : holder.key.scopes = some scopes) :
    ∃ server session grounds, holder.Runs settings start server ∧
      .sessionIssued session grounds ∈ server.journal ∧ session.user = holder.key.userId := by
  obtain ⟨credentialId, unused⟩ := exists_unused start.accounts
  obtain ⟨admitted, -⟩ := Bool.and_eq_true_iff.mp registers
  rw [KeyHolder.admits_post limits rfl rfl] at admitted
  obtain ⟨user, known, active⟩ := (Option.any_eq_true _ _).mp admitted
  simp only [Bool.and_eq_true, Bool.not_eq_true'] at active
  have begun : holder.Runs settings start start := .refl _
  obtain ⟨first, token, run, same, now, signed⟩ := begun.registrationOptions rfl rfl registers
  obtain ⟨second, run, later, inserted⟩ := run.register same now registers signed unused
  have still : second.accounts.localLoginEnabled = true := by
    rw [inserted]
    exact enabled
  obtain ⟨third, other, run, unchanged, since, loginSigned⟩ := run.loginOptions still
  refine run.signIn (by rw [unchanged]; exact still) (by rw [since]; exact loginSigned)
    (by rw [unchanged, inserted]; exact credential_inserted unused) (get?_freshId _)
    (by rw [unchanged, inserted]; exact known) active.1.1.2 active.1.2

theorem KeyHolder.not_barred_iff (limits : holder.key.scopes = some scopes)
    (restricted : "*" ∉ scopes.actions) :
    holder.barred scopes start = false ↔
      holder.registers start = true ∧ start.accounts.localLoginEnabled = true := by
  have star : scopes.actions.contains "*" = false := by simpa using restricted
  have reads : (scopes.actions.all fun action => action = "read") =
      !scopes.actions.any fun action => action ≠ "read" := by
    rw [List.all_eq_not_any_not]
    simp
  unfold barred registers
  rw [KeyHolder.admits_post limits rfl rfl, star, reads]
  cases start.accounts.users.get? holder.key.userId with
  | none => simp
  | some row =>
      simp only [Option.all_some, Option.any_some]
      cases scopes.actions.any fun action => action ≠ "read" <;>
        cases holder.key.expiresAt.any fun expires => expires < start.now <;>
        cases start.accounts.localLoginEnabled <;> cases row.disabled <;> cases row.isAdmin <;>
        cases holder.addressAllowed <;> simp

/-- **A key yields no session exactly when something bars it.** No sequence of public
requests and of requests with the key ends with a session of its account if and only if its
scopes name no action beyond `read`, it has expired, local logins are off, or the account is
missing, not local, disabled, or an administrator's that may not act from the address. -/
theorem key_yields_no_session (limits : holder.key.scopes = some scopes)
    (restricted : "*" ∉ scopes.actions) (started : Server.Started (fun _ => True) start) :
    (∀ server, holder.Runs settings start server → ∀ session grounds,
      .sessionIssued session grounds ∈ server.journal → session.user ≠ holder.key.userId) ↔
      holder.barred scopes start = true := by
  constructor
  · intro none
    by_contra open'
    obtain ⟨registers, enabled⟩ :=
      (KeyHolder.not_barred_iff limits restricted).mp (Bool.eq_false_iff.mpr open')
    obtain ⟨server, session, grounds, run, issued, owner⟩ :=
      KeyHolder.exists_session registers enabled limits
    exact none server run session grounds issued owner
  · intro barred server run session grounds issued
    have apart : holder.registers start = true → start.accounts.localLoginEnabled = false := by
      intro registers
      by_contra enabled
      have open' := (KeyHolder.not_barred_iff limits restricted).mpr
        ⟨registers, Bool.not_eq_false _ ▸ enabled⟩
      rw [open'] at barred
      cases barred
    exact (withstands_of_steps limits apart started run).sessions session grounds issued

end Runs

/-- A key of an administrator. -/
def adminKey (actions : List String) : KeyHolder where
  key := { userId := 1, scopes := some { actions } }
  addressAllowed := true

/-- The key registers a passkey, and the passkey signs in. -/
def registeredByKey : List Action :=
  [.begin (.registrationOptions 1)] ++ returns 3 0 ++
    [.begin (.verifyRegistration 1 0 "key" "Laptop"), .resume 1 .returns,
      .resume 1 (.counts 0), .resume 1 .returns] ++
    [.begin .passkeyLoginOptions] ++ returns 2 2 ++
    [.begin (.passkeyLogin 1 "key")] ++ returns 3 3 ++ [.resume 3 (.counts 1)] ++ returns 6 3

/-- A key that may only operate jobs yields a session of the administrator. -/
theorem session_by_key : ∃ server session grounds,
    (adminKey ["operate"]).Runs codeSettings office server ∧
      .sessionIssued session grounds ∈ server.journal ∧ session.user = 1 ∧
      server.accounts.accepts server.now session = true := by
  have ends : ((authServer codeSettings fun _ => True).runWithin
      (fun server action => ByKey (adminKey ["operate"]) office.accounts server action = true)
      office registeredByKey).any (fun server =>
        .sessionIssued ⟨1, 0, 605800⟩ (.passkey 0) ∈ server.journal &&
          server.accounts.accepts server.now ⟨1, 0, 605800⟩) = true := by decide +kernel
  obtain ⟨server, ran, both⟩ := (Option.any_eq_true _ _).mp ends
  rw [Bool.and_eq_true, decide_eq_true_eq] at both
  exact ⟨server, ⟨1, 0, 605800⟩, .passkey 0, System.steps_of_runWithin ran, both.1, rfl, both.2⟩

/-- A key that may only read yields none. -/
theorem no_session_by_reading_key :
    (adminKey ["read"]).barred { actions := ["read"] } office = true ∧
      ∀ server, (adminKey ["read"]).Runs codeSettings office server → ∀ session grounds,
        .sessionIssued session grounds ∈ server.journal → session.user ≠ 1 := by
  have barred : (adminKey ["read"]).barred { actions := ["read"] } office = true := by decide
  exact ⟨barred,
    (key_yields_no_session rfl (by decide) (office_started trivial)).mpr barred⟩

end AmberBackup.Auth
