import AmberBackup.Auth.Inversions

/-! # The last administrator

An update that takes an administrator's rights, and a removal, look for another enabled
administrator in one statement and write in a later one. In a run of the server where, for
each call that gets past its look, an enabled administrator is left that no other call is
about to take, there always is one (`admin_remains`). Two demotions that look before either
writes leave none (`admins_demoted`).
-/

namespace AmberBackup.Auth

open Relational Transition

/-- The phases past the check of the last administrator. -/
def UpdatePhase.checked : UpdatePhase → Bool
  | .readUser | .readTarget _ | .readOthers _ => false
  | .hasUsableSso _ | .deletePasskeys _ | .hashPassword _ | .write _ => true

/-- The account a call is about to demote, disable or delete without looking again. -/
def Call.demoting : Call → Option Uuid
  | .updateUser id dto phase => if dto.demotes && phase.checked then some id else none
  | .removeUser id .delete => some id
  | _ => none

/-- The account for which the step of a call gets past the check of the last
administrator. -/
def Call.passing (server : Server) : Call → Option Uuid
  | .updateUser id dto phase =>
      let passes :=
        match phase with
        | .readUser => (server.accounts.users.get? id).any fun user => !user.isAdmin
        | .readTarget _ => !(server.accounts.users.get? id).any User.activeAdmin
        | .readOthers _ => server.accounts.otherActiveAdmin id
        | _ => false
      if dto.demotes && passes then some id else none
  | .removeUser id .readTarget =>
      if (server.accounts.users.get? id).any User.activeAdmin then none else some id
  | .removeUser id .readOthers => if server.accounts.otherActiveAdmin id then some id else none
  | _ => none

/-- An enabled administrator other than the account that no call is about to take. -/
def spareAdmin (server : Server) (id : Uuid) : Bool :=
  server.accounts.users.anyWhere fun key user =>
    user.activeAdmin && key ≠ id && server.calls.all fun call => call.demoting ≠ some key

/-- What a step of a call must meet: it gets past the check only where a spare
administrator is left. -/
abbrev SparesAdmin (server : Server) (action : Action) : Prop :=
  onSteps (fun server call _ => (call.passing server).all (spareAdmin server)) server action = true

/-- An enabled administrator whom no call is about to take. -/
def Safe (server : Server) : Prop :=
  ∃ id user, server.accounts.users.get? id = some user ∧ user.activeAdmin = true ∧
    ∀ call ∈ server.calls, call.demoting ≠ some id

theorem spareAdmin_iff {server : Server} {id : Uuid} :
    spareAdmin server id = true ↔ ∃ other user, server.accounts.users.get? other = some user ∧
      user.activeAdmin = true ∧ other ≠ id ∧
      ∀ call ∈ server.calls, call.demoting ≠ some other := by
  simp [spareAdmin, Table.anyWhere_iff, and_assoc]

section Step

variable {settings : Settings} {server : Server} {index : Nat} {current : Call}
  {outcome : Outcome} {effect : Effect}

theorem pastGuard_demoting {id : Uuid} {dto : UpdateUserDto} {user : User} {other : Uuid}
    (demotes : (pastGuard id dto user).next.demoting = some other) :
    other = id ∧ dto.demotes = true := by
  have ofDone : Call.done.demoting ≠ some other := nofun
  have ofUpdate : ∀ phase, (Call.updateUser id dto phase).demoting = some other →
      other = id ∧ dto.demotes = true := by
    intro phase taken
    change (if dto.demotes && phase.checked then some id else none) = some other at taken
    split at taken
    case isTrue both =>
      rw [Bool.and_eq_true] at both
      exact ⟨(Option.some.inj taken).symm, both.1⟩
    case isFalse => cases taken
  unfold pastGuard at demotes
  repeat' split at demotes
  all_goals first
    | exact ofUpdate _ demotes
    | exact absurd demotes ofDone

/-- A call that is about to take an account already was, or its step gets past the check. -/
theorem Call.demoting_from (steps : current.step settings server outcome = some effect)
    {id : Uuid} (demotes : effect.next.demoting = some id) :
    current.demoting = some id ∨ current.passing server = some id := by
  cases current with
  | updateUser key dto phase =>
      cases phase <;> cases outcome <;>
        simp only [step, UpdatePhase.step, reduceCtorEq] at steps
      case readUser.returns =>
        split at steps
        · cases steps
          cases demotes
        · next user found =>
          split at steps
          case isTrue =>
            cases steps
            simp [demoting, UpdatePhase.checked] at demotes
          case isFalse unguarded =>
            cases steps
            obtain ⟨same, demotion⟩ := pastGuard_demoting demotes
            refine Or.inr ?_
            have ordinary : user.isAdmin = false := by simpa [demotion] using unguarded
            simp [passing, demotion, found, ordinary, same]
      case readTarget.returns user =>
        split at steps
        case isTrue =>
          cases steps
          simp [demoting, UpdatePhase.checked] at demotes
        case isFalse inactive =>
          cases steps
          obtain ⟨same, demotion⟩ := pastGuard_demoting demotes
          exact Or.inr (by simp [passing, demotion, inactive, same])
      case readOthers.returns user =>
        split at steps
        case isTrue other =>
          cases steps
          obtain ⟨same, demotion⟩ := pastGuard_demoting demotes
          exact Or.inr (by simp [passing, demotion, other, same])
        case isFalse =>
          cases steps
          cases demotes
      all_goals
        repeat' split at steps
        all_goals cases steps
        all_goals first
          | cases demotes
          | exact Or.inl demotes
  | removeUser key phase =>
      cases phase <;> cases outcome <;>
        simp only [step, RemovePhase.step, reduceCtorEq] at steps
      case readTarget.returns =>
        split at steps
        case isTrue =>
          cases steps
          cases demotes
        case isFalse inactive =>
          cases steps
          cases demotes
          exact Or.inr (by simp [passing, inactive])
      case readOthers.returns =>
        split at steps
        case isTrue other =>
          cases steps
          cases demotes
          exact Or.inr (by simp [passing, other])
        case isFalse =>
          cases steps
          cases demotes
      case delete.returns =>
        cases steps
        cases demotes
  | _ =>
      have source := Call.next_source steps
      cases next : effect.next with
      | updateUser key dto phase =>
          rw [next] at source
          cases phase with
          | readUser => exact source.elim
          | readTarget => cases source.1
          | readOthers | deletePasskeys => cases source
          | hasUsableSso =>
              obtain ⟨_, same, -⟩ := source
              cases same
          | hashPassword =>
              obtain ⟨_, _, same, -⟩ := source
              cases same
          | write =>
              rcases source with ⟨_, _, same, -⟩ | ⟨_, same, -⟩ | ⟨_, _, same, -⟩ <;> cases same
      | removeUser key phase =>
          rw [next] at source
          cases phase with
          | readTarget => exact source.elim
          | readOthers => cases source
          | delete => rcases source with same | same <;> cases same
      | _ =>
          rw [next] at demotes
          cases demotes

/-- A write that takes the rights of an enabled administrator is of a call that is about to. -/
theorem Call.keeps_admin (steps : current.step settings server outcome = some effect)
    (formed : current.Formed) {id : Uuid} {user : User}
    (present : server.accounts.users.get? id = some user) (admin : user.activeAdmin = true)
    (spared : current.demoting ≠ some id) :
    ∃ after, (effect.statement.execute server.accounts).users.get? id = some after ∧
      after.activeAdmin = true := by
  have source := Call.step_source steps
  have kept : effect.statement ≠ .deleteUser id := by
    intro deletes
    rw [deletes] at source
    subst source
    exact spared rfl
  obtain ⟨after, found, same | ⟨update, issues, same⟩⟩ := Statement.user_kept present kept
  · exact ⟨after, found, same ▸ admin⟩
  · refine ⟨after, found, ?_⟩
    subst same
    rw [issues] at source
    cases update with
    | edit patch =>
        obtain ⟨dto, same⟩ := source
        subst same
        have harmless : dto.demotes = false := by
          by_contra demotes
          have takes : dto.demotes = true := by simpa using demotes
          exact spared (by simp [demoting, UpdatePhase.checked, takes])
        have columns : patch.isAdmin = dto.isAdmin ∧ patch.disabled = dto.disabled := by
          rcases formed with shape | shape | ⟨before, hash, shape, other | other⟩
          · exact shape ▸ ⟨rfl, rfl⟩
          · exact shape ▸ ⟨rfl, rfl⟩
          · subst other
            exact shape ▸ ⟨rfl, rfl⟩
          · subst other
            exact shape ▸ ⟨rfl, rfl⟩
        simp only [UpdateUserDto.demotes, Bool.or_eq_false_iff, decide_eq_false_iff_not] at harmless
        simp only [User.activeAdmin, Bool.and_eq_true, Bool.not_eq_true'] at admin ⊢
        change patch.isAdmin.getD user.isAdmin = true ∧ patch.disabled.getD user.disabled = false
        rw [columns.1, columns.2]
        constructor
        · cases role : dto.isAdmin with
          | none => exact admin.1
          | some value => simpa [role] using harmless.1
        · cases flag : dto.disabled with
          | none => exact admin.2
          | some value => simpa [flag] using harmless.2
    | changePassword | setupTotp | enableTotp | disableTotp | useRecoveryCode => exact admin

theorem Safe.after (safe : Safe server) (formed : current.Formed)
    (present : server.calls[index]? = some current)
    (steps : current.step settings server outcome = some effect)
    (permitted : (current.passing server).all (spareAdmin server) = true) :
    Safe (server.after index effect) := by
  -- whom no call was about to take, and the step does not get past the check for
  have remains : ∃ id user, server.accounts.users.get? id = some user ∧
      user.activeAdmin = true ∧ (∀ call ∈ server.calls, call.demoting ≠ some id) ∧
      current.passing server ≠ some id := by
    cases passes : current.passing server with
    | none =>
        obtain ⟨id, user, found, admin, spared⟩ := safe
        exact ⟨id, user, found, admin, spared, nofun⟩
    | some target =>
        rw [passes] at permitted
        obtain ⟨id, user, found, admin, other, spared⟩ := spareAdmin_iff.mp permitted
        exact ⟨id, user, found, admin, spared, fun same => other (Option.some.inj same).symm⟩
  obtain ⟨id, user, found, admin, spared, passed⟩ := remains
  have mine := spared current (List.mem_of_getElem? present)
  obtain ⟨after, later, still⟩ := Call.keeps_admin steps formed found admin mine
  refine ⟨id, after, later, still, ?_⟩
  intro call member
  rcases Pool.mem_advance member with old | same | started
  · exact spared call old
  · subst same
    intro demotes
    rcases Call.demoting_from steps demotes with before | passes
    · exact mine before
    · exact passed passes
  · cases started

end Step

/-- Some account is an enabled administrator. -/
def HasAdmin (accounts : Accounts) : Prop :=
  ∃ id user, accounts.users.get? id = some user ∧ user.activeAdmin = true

/-- **There is always an enabled administrator.** From every state with one, as long as each
call gets past its check only where an enabled administrator is left that no other call is
about to take. -/
theorem admin_remains {settings : Settings} {server : Server}
    (reached : (authServer settings HasAdmin).Reachable SparesAdmin server) :
    HasAdmin server.accounts := by
  have safe : Safe server := by
    refine System.Invariant.onTopOf (fun server => ∀ call ∈ server.calls, call.Formed) _
      (fun _ here => formed_of_reachable here) ?_ ?_ reached
    · intro state started
      obtain ⟨id, user, found, admin⟩ := Server.Started.accounts started
      refine ⟨id, user, found, admin, fun call member => ?_⟩
      rw [Server.Started.calls started] at member
      cases member
    · intro state action next formed _ safe permitted stepped
      rcases Server.step_cases stepped with ⟨_, -, same⟩ | ⟨_, _, -, same⟩ | ⟨entry, -, same⟩ |
        ⟨index, outcome, current, effect, resumes, present, steps, same⟩
      · subst same
        exact safe
      · subst same
        exact safe
      · subst same
        obtain ⟨id, user, found, admin, spared⟩ := safe
        refine ⟨id, user, found, admin, fun call member => ?_⟩
        rcases List.mem_append.mp member with old | new
        · exact spared call old
        · rw [List.mem_singleton.mp new]
          cases entry <;> simp [Entry.call, Call.demoting, UpdatePhase.checked]
      · subst resumes
        subst same
        exact safe.after (formed current (List.mem_of_getElem? present)) present steps
          (onSteps_resume permitted present)
  obtain ⟨id, user, found, admin, -⟩ := safe
  exact ⟨id, user, found, admin⟩

/-- An installation with two local administrators and a user of the identity provider. The
authenticator library is taken to accept the secret itself as the code. -/
def office : Server where
  accounts :=
    { users := .ofList [
        (1, { email := "ada@example.com", isAdmin := true, passwordHash := some ⟨"first", 0⟩ }),
        (2, { email := "bob@example.com", isAdmin := true, passwordHash := some ⟨"second", 1⟩ }),
        (3, { email := "eve@example.com", authSource := .sso })]
      usableSso := true }
  now := 1000000
  fresh := 100000

def codeSettings : Settings where
  jwtExpiresInSeconds := 604800
  verifyTotp secret token _ := toString secret = token

theorem office_started {known : Accounts → Prop} (holds : known office.accounts) :
    Server.Started known office := ⟨holds, rfl, fun _ => rfl, rfl, rfl, rfl⟩

/-- The steps of a call that returns from each of its awaits. -/
def returns (count call : Nat) : List Action := List.replicate count (.resume call .returns)

/-- Two administrators demote each other, and both look before either writes. -/
def demotedAtOnce : List Action :=
  [.begin (.updateUser 1 { isAdmin := some false }),
    .begin (.updateUser 2 { isAdmin := some false })] ++
    returns 3 0 ++ returns 3 1 ++ returns 1 0 ++ returns 1 1

theorem office_hasAdmin : HasAdmin office.accounts :=
  ⟨1, _, rfl, rfl⟩

theorem hasAdmin_iff {accounts : Accounts} :
    HasAdmin accounts ↔ accounts.users.anyWhere (fun _ user => user.activeAdmin) = true := by
  rw [Table.anyWhere_iff]
  rfl

/-- Then no enabled administrator is left. -/
theorem admins_demoted : ∃ server,
    (authServer codeSettings HasAdmin).Reachable (fun _ _ => True) server ∧
      ¬HasAdmin server.accounts := by
  have ends : ((authServer codeSettings HasAdmin).runWithin (fun _ _ => True) office
      demotedAtOnce).any (fun server =>
        !server.accounts.users.anyWhere fun _ user => user.activeAdmin) = true := by decide
  obtain ⟨server, reached, none⟩ :=
    System.exists_reachable (office_started office_hasAdmin) ends
  refine ⟨server, reached, fun admin => ?_⟩
  rw [hasAdmin_iff.mp admin] at none
  cases none

/-- One administrator demotes the other and tries to demote himself afterwards. -/
theorem demoted_in_turn : ∃ server : Server,
    (server.accounts.users.get? 2).any (fun user => !user.isAdmin) = true ∧
      HasAdmin server.accounts := by
  have ends : ((authServer codeSettings HasAdmin).runWithin SparesAdmin office
      ([.begin (.updateUser 2 { isAdmin := some false })] ++ returns 4 0 ++
        [.begin (.updateUser 1 { isAdmin := some false })] ++ returns 3 1)).any (fun server =>
          (server.accounts.users.get? 2).any fun user => !user.isAdmin) = true := by decide
  obtain ⟨server, reached, demoted⟩ :=
    System.exists_reachable (office_started office_hasAdmin) ends
  exact ⟨server, demoted, admin_remains reached⟩

end AmberBackup.Auth
