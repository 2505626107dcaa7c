import AmberBackup.Lib.Rollback
import AmberBackup.Settings.AdminAccess

/-! # Updates of accounts that throw

The passkeys of an account that moves to single sign-on are deleted before the password of
the request is looked at and before the account is written. An update that throws has changed
nothing exactly if it has no passkeys to delete, or is refused before the deletion, or cannot
throw after it; and one that returns starts a new session epoch exactly if it has changed the
password or the authentication source (`user_updates_all_or_nothing`).
-/

namespace AmberBackup.Auth

open Relational Procedure

/-- The statements of `UsersService.update`, in the order of the code, and the hashing of the
password. A column that is null fails the last one. -/
inductive UpdateStatement where
  | user
  | otherAdmins
  | usableSso
  | passkeys
  | hash
  | write
  deriving DecidableEq, Repr

namespace Installation

section Statements

variable (faults : UpdateStatement → Option Failure) (id : Uuid) (dto : UpdateUserDto)

def findUser (state : Installation) : Except Failure User :=
  match state.users.get? id with
  | none => .error (.notFound "User not found")
  | some user => .ok user

def refuseLastAdmin (state : Installation) : Except Failure Unit :=
  if state.isLastActiveAdmin id then
    .error (.badRequest "Cannot demote or disable the last remaining administrator")
  else .ok ()

/-- Up to the switch of the source. -/
def checkUpdate : Procedure Installation Failure User := do
  failing faults .user
  let user ← .lift (findUser id)
  if user.isAdmin && dto.demotes then do
    failing faults .otherAdmins
    .lift (refuseLastAdmin id)
    return user
  else return user

def requireUsableSso (state : Installation) : Except Failure Unit :=
  if state.hasUsableSso then .ok ()
  else .error (.badRequest
    ("Enable SSO with at least one fully configured provider before switching accounts " ++
      "to it"))

/-- Single sign-on has to be usable before the passkeys are deleted. -/
def switchToSso : Procedure Installation Failure UserPatch := do
  failing faults .usableSso
  .lift requireUsableSso
  failing faults .passkeys
  .write fun state => state.execute (.deleteCredentials id)
  return dto.patch.switchedToSso

def switchSource (user : User) : Procedure Installation Failure UserPatch :=
  if dto.willBeLocal user = decide (user.authSource = .«local») then return dto.patch
  else if dto.willBeLocal user then
    if dto.password.getD "" = "" then
      .raise (.badRequest "A password is required to switch this account to local login")
    else return { dto.patch with authSource := some .«local» }
  else switchToSso faults id dto

def hashPassword (user : User) (salt : Nat) (patch : UserPatch) :
    Procedure Installation Failure UserPatch :=
  match dto.password with
  | none => return patch
  | some password =>
      if dto.willBeLocal user then do
        failing faults .hash
        return { patch with passwordHash := some (some ⟨password, salt⟩) }
      else .raise (.badRequest "Cannot set password on SSO account")

def writeUser (columns : UserPatch) : Procedure Installation Failure Unit := do
  failing faults .write
  .write fun state => state.execute (.updateUser id (.edit columns))

/-- `UsersService.update`, where the statements with a fault fail. -/
def updateUserUnder (salt : Nat) : Procedure Installation Failure Unit := do
  let user ← checkUpdate faults id dto
  let patch ← switchSource faults id dto user
  let columns ← hashPassword faults dto user salt patch
  writeUser faults id columns

end Statements

/-- The accounts and the passkeys. -/
def factors (state : Installation) : Table Uuid User × Table Uuid WebauthnCredential :=
  (state.users, state.webauthnCredentials)

/-- The update moves a local account to single sign-on. -/
def movesToSso (dto : UpdateUserDto) (user : User) : Bool :=
  !dto.willBeLocal user && user.authSource = .«local»

/-- The account has passkeys, and the update gets to delete them. -/
structure DeletesPasskeys (faults : UpdateStatement → Option Failure) (id : Uuid)
    (dto : UpdateUserDto) (state : Installation) (user : User) : Prop where
  passes : ((checkUpdate faults id dto).run state).1 = .ok user
  moves : movesToSso dto user = true
  lookup : faults .usableSso = none
  usable : state.hasUsableSso = true
  deletes : faults .passkeys = none
  passkeys : state.webauthnCredentials.anyWhere (fun _ row => row.userId = id) = true

section Rollback

variable {faults : UpdateStatement → Option Failure} {id : Uuid} {dto : UpdateUserDto}
  {state before : Installation} {user : User} {patch : UserPatch} {salt : Nat}

theorem checkUpdate_within {relation : Installation → Installation → Prop}
    [Std.Refl relation] [IsTrans Installation relation] :
    (checkUpdate faults id dto).Within relation := by
  unfold checkUpdate
  refine Within.bind (failing_within _ _) fun _ => ?_
  refine Within.bind (Within.lift _) fun user => ?_
  split
  · refine Within.bind (failing_within _ _) fun _ => ?_
    refine Within.bind (Within.lift _) fun _ => ?_
    exact Within.pure user
  · exact Within.pure user

theorem rollsBack_writeUser :
    (writeUser faults id patch).RollsBack factors before.factors state ↔
      (faults .write ≠ none → state.factors = before.factors) := by
  rw [writeUser, rollsBack_bind_failing]
  exact and_iff_left fun _ => rollsBack_of_returns rfl

/-- Nothing has been written before the password. -/
theorem rollsBack_unwritten (same : state.factors = before.factors) :
    (hashPassword faults dto user salt patch >>= writeUser faults id).RollsBack factors
      before.factors state := by
  have quiet : (hashPassword faults dto user salt patch).Within Eq := by
    unfold hashPassword
    cases dto.password with
    | none => exact Within.pure patch
    | some password =>
        dsimp only
        split
        · exact Within.bind (failing_within _ _) fun _ => Within.pure _
        · exact Within.raise _
  rw [rollsBack_bind_quiet quiet]
  exact ⟨fun _ _ => same, fun columns _ => rollsBack_writeUser.mpr fun _ => same⟩

/-- An account that is not local takes no password. -/
theorem rollsBack_remote (remote : dto.willBeLocal user = false) :
    (hashPassword faults dto user salt patch >>= writeUser faults id).RollsBack factors
        before.factors state ↔
      state.factors = before.factors ∨ dto.password = none ∧ faults .write = none := by
  unfold hashPassword
  cases dto.password with
  | none =>
      change (writeUser faults id patch).RollsBack factors before.factors state ↔ _
      rw [rollsBack_writeUser]
      by_cases passes : faults .write = none <;> simp [passes]
  | some password =>
      dsimp only
      rw [remote, if_neg Bool.false_ne_true]
      simp [RollsBack, run_bind]

/-- The deletion of the passkeys changes what is seen, if there are any. -/
theorem factors_deleteCredentials :
    (state.execute (.deleteCredentials id)).factors = state.factors ↔
      state.webauthnCredentials.anyWhere (fun _ row => row.userId = id) = false := by
  rw [← Table.delete_eq_self_iff]
  constructor
  · intro same
    exact (Prod.mk.inj same).2
  · intro same
    exact Prod.ext rfl same

/-- The way of a local account to single sign-on. -/
theorem rollsBack_switchToSso (remote : dto.willBeLocal user = false) :
    (switchToSso faults id dto >>= fun patch =>
        hashPassword faults dto user salt patch >>= writeUser faults id).RollsBack factors
          state.factors state ↔
      (faults .usableSso = none → state.hasUsableSso = true → faults .passkeys = none →
        state.webauthnCredentials.anyWhere (fun _ row => row.userId = id) = true →
          dto.password = none ∧ faults .write = none) := by
  have deleted : (hashPassword faults dto user salt dto.patch.switchedToSso >>=
      writeUser faults id).RollsBack factors state.factors
        (state.execute (.deleteCredentials id)) ↔
      (state.webauthnCredentials.anyWhere (fun _ row => row.userId = id) = true →
        dto.password = none ∧ faults .write = none) := by
    rw [rollsBack_remote remote, factors_deleteCredentials]
    cases state.webauthnCredentials.anyWhere fun _ row => row.userId = id <;> simp
  unfold switchToSso
  simp only [bind_bind]
  rw [rollsBack_bind_failing, rollsBack_bind_lift]
  simp only [implies_true, true_and, rollsBack_bind_failing]
  change (faults .usableSso = none → ∀ result, requireUsableSso state = .ok result →
    faults .passkeys = none → (hashPassword faults dto user salt dto.patch.switchedToSso >>=
      writeUser faults id).RollsBack factors state.factors
        (state.execute (.deleteCredentials id))) ↔ _
  rw [deleted, requireUsableSso]
  cases state.hasUsableSso <;> simp

theorem rollsBack_updateUser :
    (updateUserUnder faults id dto salt).RollsBack factors state.factors state ↔
      ∀ user, DeletesPasskeys faults id dto state user →
        dto.password = none ∧ faults .write = none := by
  rw [updateUserUnder, rollsBack_bind_quiet checkUpdate_within]
  constructor
  · rintro ⟨-, following⟩ user deletes
    obtain ⟨remote, here⟩ : dto.willBeLocal user = false ∧ user.authSource = .«local» := by
      simpa [movesToSso] using deletes.moves
    have rolls := following user deletes.passes
    rw [switchSource, if_neg (by simp [remote, here]), if_neg (by simp [remote])] at rolls
    exact (rollsBack_switchToSso remote).mp rolls deletes.lookup deletes.usable deletes.deletes
      deletes.passkeys
  · intro keeps
    refine ⟨fun _ _ => rfl, ?_⟩
    intro user passes
    unfold switchSource
    split
    case isTrue => exact rollsBack_unwritten rfl
    case isFalse changes =>
      split
      case isTrue =>
        split
        case isTrue => exact (rollsBack_bind_of_throws rfl).mpr rfl
        case isFalse => exact rollsBack_unwritten rfl
      case isFalse remote =>
        have moves : movesToSso dto user = true := by
          have remote : dto.willBeLocal user = false := by simpa using remote
          rw [remote] at changes
          simpa [movesToSso, remote] using changes
        refine (rollsBack_switchToSso (by simpa using remote)).mpr ?_
        intro lookup usable deletes passkeys
        exact keeps user ⟨passes, moves, lookup, usable, deletes, passkeys⟩

end Rollback

section Returns

variable {faults : UpdateStatement → Option Failure} {id : Uuid} {dto : UpdateUserDto}
  {state next : Installation} {user : User} {patch columns : UserPatch} {salt : Nat}

theorem checkUpdate_returns
    (returned : ((checkUpdate faults id dto).run state).1 = .ok user) :
    state.users.get? id = some user ∧
      (user.isAdmin && dto.demotes && state.isLastActiveAdmin id) = false := by
  have ran : (checkUpdate faults id dto).run state = (.ok user, state) :=
    Prod.ext returned (show state = _ from checkUpdate_within state).symm
  unfold checkUpdate at ran
  obtain ⟨_, -, ran⟩ := bind_returns_quiet (failing_within _ _) ran
  obtain ⟨found, here, ran⟩ := bind_returns_quiet (Within.lift _) ran
  have present : state.users.get? id = some found := by
    rw [run_lift, findUser] at here
    split at here
    case h_1 => cases here
    case h_2 other present =>
      obtain rfl := Except.ok.inj here
      exact present
  split at ran
  case isTrue guarded =>
    obtain ⟨_, -, ran⟩ := bind_returns_quiet (failing_within _ _) ran
    obtain ⟨_, admitted, ran⟩ := bind_returns_quiet (Within.lift _) ran
    obtain rfl := Except.ok.inj (Prod.mk.inj ran).1
    refine ⟨present, ?_⟩
    rw [run_lift, refuseLastAdmin] at admitted
    split at admitted
    case isTrue => cases admitted
    case isFalse other => simpa using fun _ _ => Bool.eq_false_iff.mpr other
  case isFalse unguarded =>
    obtain rfl := Except.ok.inj (Prod.mk.inj ran).1
    refine ⟨present, ?_⟩
    rw [Bool.eq_false_iff.mpr unguarded]
    rfl

theorem switchSource_returns
    (returned : (switchSource faults id dto user).run state = (.ok patch, next)) :
    ∃ before, state.switched id dto user = .ok (patch, before) ∧ next = state.execute before := by
  unfold switchSource at returned
  unfold switched
  split at returned
  case isTrue same =>
    cases returned
    exact ⟨.nothing, if_pos same, rfl⟩
  case isFalse changes =>
    rw [if_neg changes]
    split at returned
    case isTrue toLocal =>
      rw [if_pos toLocal]
      split at returned
      case isTrue => cases returned
      case isFalse given =>
        cases returned
        exact ⟨.nothing, if_neg given, rfl⟩
    case isFalse remote =>
      rw [if_neg remote]
      unfold switchToSso at returned
      obtain ⟨_, -, returned⟩ := bind_returns_quiet (failing_within _ _) returned
      obtain ⟨_, admitted, returned⟩ := bind_returns_quiet (Within.lift _) returned
      obtain ⟨_, -, returned⟩ := bind_returns_quiet (failing_within _ _) returned
      cases returned
      rw [run_lift, requireUsableSso] at admitted
      split at admitted
      case isTrue usable => exact ⟨.deleteCredentials id, if_pos usable, rfl⟩
      case isFalse => cases admitted

theorem hashPassword_returns
    (returned : (hashPassword faults dto user salt patch).run state = (.ok columns, next)) :
    withPassword dto user salt patch = .ok columns ∧ next = state := by
  unfold hashPassword at returned
  unfold withPassword
  cases given : dto.password with
  | none =>
      rw [given] at returned
      cases returned
      exact ⟨rfl, rfl⟩
  | some password =>
      rw [given] at returned
      dsimp only at returned ⊢
      split at returned
      case isTrue stays =>
        obtain ⟨_, -, returned⟩ := bind_returns_quiet (failing_within _ _) returned
        cases returned
        exact ⟨if_pos stays, rfl⟩
      case isFalse => cases returned

/-- An update that returns is the one that does not fail. -/
theorem updateUserUnder_returns
    (returned : (updateUserUnder faults id dto salt).run state = (.ok (), next)) :
    ∃ user patch before columns, state.users.get? id = some user ∧
      (user.isAdmin && dto.demotes && state.isLastActiveAdmin id) = false ∧
      state.switched id dto user = .ok (patch, before) ∧
      withPassword dto user salt patch = .ok columns ∧
      next = (state.execute before).execute (.updateUser id (.edit columns)) := by
  unfold updateUserUnder at returned
  obtain ⟨user, checked, returned⟩ := bind_returns_quiet checkUpdate_within returned
  obtain ⟨patch, middle, switches, returned⟩ := bind_returns.mp returned
  obtain ⟨columns, last, hashed, returned⟩ := bind_returns.mp returned
  obtain ⟨found, admitted⟩ := checkUpdate_returns checked
  obtain ⟨before, switched, rfl⟩ := switchSource_returns switches
  obtain ⟨columned, rfl⟩ := hashPassword_returns hashed
  obtain ⟨_, -, written⟩ := bind_returns_quiet (failing_within _ _) returned
  exact ⟨user, patch, before, columns, found, admitted, switched, columned,
    (Prod.mk.inj written).2.symm⟩

theorem checkUpdate_none (found : state.users.get? id = some user)
    (admitted : ¬ (user.isAdmin && dto.demotes && state.isLastActiveAdmin id) = true) :
    (checkUpdate (fun _ => none) id dto).run state = (.ok user, state) := by
  have here : (lift (findUser id) : Procedure Installation Failure User).run state =
      (.ok user, state) := by
    rw [run_lift, findUser, found]
  change (lift (findUser id) >>= _).run state = _
  rw [run_bind_of_ok here]
  split
  case isTrue guarded =>
    rw [guarded, Bool.true_and] at admitted
    have passes : (lift (refuseLastAdmin id) : Procedure Installation Failure Unit).run state =
        (.ok (), state) := by
      rw [run_lift, refuseLastAdmin, if_neg admitted]
    change (lift (refuseLastAdmin id) >>= _).run state = _
    rw [run_bind_of_ok passes]
    rfl
  case isFalse => rfl

theorem switchSource_none {before : Statement}
    (switches : state.switched id dto user = .ok (patch, before)) :
    (switchSource (fun _ => none) id dto user).run state = (.ok patch, state.execute before) := by
  unfold switched at switches
  unfold switchSource
  split at switches
  case isTrue same =>
    cases switches
    rw [if_pos same]
    rfl
  case isFalse changes =>
    rw [if_neg changes]
    split at switches
    case isTrue toLocal =>
      rw [if_pos toLocal]
      split at switches
      case isTrue => cases switches
      case isFalse given =>
        cases switches
        rw [if_neg given]
        rfl
    case isFalse remote =>
      rw [if_neg remote]
      split at switches
      case isTrue usable =>
        cases switches
        have passes : (lift requireUsableSso : Procedure Installation Failure Unit).run state =
            (.ok (), state) := by
          rw [run_lift, requireUsableSso, if_pos usable]
        change (lift requireUsableSso >>= _).run state = _
        rw [run_bind_of_ok passes]
        rfl
      case isFalse => cases switches

theorem hashPassword_none (hashed : withPassword dto user salt patch = .ok columns) :
    (hashPassword (fun _ => none) dto user salt patch).run state = (.ok columns, state) := by
  unfold withPassword at hashed
  unfold hashPassword
  cases given : dto.password with
  | none =>
      rw [given] at hashed
      cases hashed
      rfl
  | some password =>
      rw [given] at hashed
      dsimp only at hashed ⊢
      split at hashed
      case isTrue stays =>
        cases hashed
        rw [if_pos stays]
        rfl
      case isFalse => cases hashed

/-- If no statement fails, the update is the one of the users service. -/
theorem updateUserUnder_none :
    (updateUserUnder (fun _ => none) id dto salt).run state = (.ok (), next) ↔
      state.updateUser id dto salt = .ok next := by
  constructor
  · intro returned
    obtain ⟨user, patch, before, columns, found, admitted, switches, hashed, rfl⟩ :=
      updateUserUnder_returns returned
    rw [updateUser, found]
    dsimp only
    rw [admitted, if_neg Bool.false_ne_true, switches]
    change (withPassword dto user salt patch >>= _) = _
    rw [hashed]
    rfl
  · intro updates
    unfold updateUser at updates
    split at updates
    case h_1 => cases updates
    case h_2 user found =>
      split at updates
      case isTrue => cases updates
      case isFalse admitted =>
        obtain ⟨⟨patch, before⟩, switches, rest⟩ := of_bind_eq_ok updates
        obtain ⟨columns, hashed, same⟩ := of_bind_eq_ok rest
        obtain rfl := Except.ok.inj same
        unfold updateUserUnder
        rw [run_bind_of_ok (checkUpdate_none found admitted),
          run_bind_of_ok (switchSource_none switches), run_bind_of_ok (hashPassword_none hashed)]
        rfl

/-- A switch writes another source, and the password only with it. -/
theorem switched_source {before : Statement}
    (switches : state.switched id dto user = .ok (patch, before)) :
    (patch.authSource.isSome = true → patch.authSource.getD user.authSource ≠ user.authSource) ∧
      (patch.passwordHash.isSome = true → patch.authSource.isSome = true) := by
  unfold switched at switches
  split at switches
  case isTrue =>
    cases switches
    exact ⟨fun named => absurd named Bool.false_ne_true,
      fun named => absurd named Bool.false_ne_true⟩
  case isFalse changes =>
    split at switches
    case isTrue toLocal =>
      split at switches
      case isTrue => cases switches
      case isFalse =>
        cases switches
        refine ⟨fun _ => ?_, fun _ => rfl⟩
        intro same
        rw [toLocal] at changes
        exact changes (decide_eq_true same.symm).symm
    case isFalse remote =>
      split at switches
      case isTrue =>
        cases switches
        refine ⟨fun _ => ?_, fun _ => rfl⟩
        intro same
        have elsewhere : user.authSource ≠ .«local» := by
          intro here
          have equal : AuthSource.sso = .«local» := same.trans here
          cases equal
        rw [Bool.eq_false_iff.mpr remote, decide_eq_false elsewhere] at changes
        exact changes rfl
      case isFalse => cases switches

/-- The password that is written is hashed with the salt. -/
theorem withPassword_hash (hashed : withPassword dto user salt patch = .ok columns) :
    columns.authSource = patch.authSource ∧ (columns.passwordHash = patch.passwordHash ∨
      ∃ password, columns.passwordHash = some (some ⟨password, salt⟩)) := by
  unfold withPassword at hashed
  split at hashed
  case h_1 =>
    cases hashed
    exact ⟨rfl, .inl rfl⟩
  case h_2 password _ =>
    split at hashed
    case isTrue =>
      cases hashed
      exact ⟨rfl, .inr ⟨password, rfl⟩⟩
    case isFalse => cases hashed

/-- The epoch grows exactly with a change of the password or of the source. -/
theorem epoch_grows {before : Statement}
    (fresh : ∀ hash, user.passwordHash = some hash → hash.salt ≠ salt)
    (switches : state.switched id dto user = .ok (patch, before))
    (hashed : withPassword dto user salt patch = .ok columns) :
    user.sessionEpoch < (UserUpdate.set user (.edit columns)).sessionEpoch ↔
      (UserUpdate.set user (.edit columns)).passwordHash ≠ user.passwordHash ∨
        (UserUpdate.set user (.edit columns)).authSource ≠ user.authSource := by
  obtain ⟨grown, same⟩ := UserUpdate.set_epoch (.edit columns) user
  obtain ⟨source, password⟩ := withPassword_hash hashed
  obtain ⟨moved, cleared⟩ := switched_source switches
  constructor
  · intro grows
    have revokes : columns.revokes = true := by
      by_contra keeps
      exact absurd grows (by simp [UserUpdate.set, keeps])
    by_cases named : columns.authSource.isSome = true
    · refine .inr ?_
      change columns.authSource.getD user.authSource ≠ user.authSource
      rw [source] at named ⊢
      exact moved named
    · rw [UserPatch.revokes, Bool.or_eq_true] at revokes
      have given := revokes.resolve_right named
      refine .inl ?_
      change columns.passwordHash.getD user.passwordHash ≠ user.passwordHash
      rcases password with unchanged | ⟨password, written⟩
      · rw [unchanged] at given
        rw [source] at named
        exact absurd (cleared given) named
      · rw [written]
        intro kept
        exact fresh _ kept.symm rfl
  · intro changed
    refine Nat.lt_of_le_of_ne grown fun equal => ?_
    obtain ⟨password, source⟩ := same equal.symm
    exact changed.elim (fun differs => differs password) fun differs => differs source

end Returns

end Installation

open Installation

/-- **Updates of accounts are all or nothing.** An update that throws leaves the accounts and
the passkeys as they were, exactly if one that deletes passkeys names no password and its last
statement does not fail; and an update that returns raises the session epoch exactly if the
password or the source has changed. -/
theorem user_updates_all_or_nothing {faults : UpdateStatement → Option Failure} {id : Uuid}
    {dto : UpdateUserDto} {salt : Nat} {state : Installation}
    (fresh : ∀ user hash, state.users.get? id = some user → user.passwordHash = some hash →
      hash.salt ≠ salt) :
    ((∀ failure next, (updateUserUnder faults id dto salt).run state = (.error failure, next) →
        next.factors = state.factors) ∧
      ∀ next, (updateUserUnder faults id dto salt).run state = (.ok (), next) →
        ∃ user after, state.users.get? id = some user ∧ next.users.get? id = some after ∧
          (user.sessionEpoch < after.sessionEpoch ↔
            after.passwordHash ≠ user.passwordHash ∨ after.authSource ≠ user.authSource)) ↔
      ∀ user, DeletesPasskeys faults id dto state user →
        dto.password = none ∧ faults .write = none := by
  constructor
  · rintro ⟨kept, -⟩
    exact rollsBack_updateUser.mp kept
  · intro keeps
    refine ⟨rollsBack_updateUser.mpr keeps, ?_⟩
    intro next returned
    obtain ⟨user, patch, before, columns, found, -, switches, hashed, rfl⟩ :=
      updateUserUnder_returns returned
    have stands : (state.execute before).users.get? id = some user := by
      obtain ⟨-, -, -, -, rfl | rfl⟩ := switched_columns switches
      · exact found
      · exact found
    refine ⟨user, UserUpdate.set user (.edit columns), found, ?_,
      epoch_grows (fun hash => fresh user hash found) switches hashed⟩
    change ((state.execute before).users.update _ _).get? id = _
    rw [Table.get?_update_self, stands]
    rfl

/-- A local account with a passkey, and a provider that can serve a login. -/
def withPasskey : Installation where
  users := .ofList [(1, { email := "ada@example.org", passwordHash := some ⟨"first", 0⟩ })]
  webauthnCredentials := .ofList [(0, {
    userId := 1, credentialId := "key", counter := 0, name := "laptop" })]
  sso := {
    enabled := true
    providers := [{
      id := "p", type := .google, label := "Google", clientId := "id", issuerUrl := ""
      tenantId := "", secret := some ⟨"shh"⟩ }] }

/-- The account is moved to single sign-on with a password, which it cannot have: its passkeys
are gone all the same. -/
theorem refused_move_deletes_passkeys :
    ¬ ∀ (faults : UpdateStatement → Option Failure) (id : Uuid) (dto : UpdateUserDto) (salt : Nat)
      (state : Installation) failure next,
      (updateUserUnder faults id dto salt).run state = (.error failure, next) →
        next.factors = state.factors := by
  intro claim
  have ends : ((updateUserUnder (fun _ => none) 1
      { authSource := some .sso, password := some "second" } 7).thrown withPasskey).any (fun next =>
        (next.webauthnCredentials.get? 0).isNone) = true := by
    decide +kernel
  obtain ⟨next, threw, deleted⟩ := (Option.any_eq_true _ _).mp ends
  obtain ⟨failure, ran⟩ := thrown_eq_some.mp threw
  have same : next.webauthnCredentials = withPasskey.webauthnCredentials :=
    (Prod.mk.inj (claim _ _ _ _ _ failure next ran)).2
  rw [same] at deleted
  exact absurd deleted (by decide)

/-- The account is moved without a password, and starts a new epoch. -/
theorem move_starts_epoch :
    ∃ next after, (updateUserUnder (fun _ => none) 1 { authSource := some .sso } 7).run
        withPasskey = (.ok (), next) ∧
      next.users.get? 1 = some after ∧ 0 < after.sessionEpoch := by
  have ends : ((withPasskey.updateUser 1 { authSource := some .sso } 7).toOption).any (fun next =>
      (next.users.get? 1).any fun after => after.authSource = .sso) = true := by
    decide +kernel
  obtain ⟨next, updated, found⟩ := (Option.any_eq_true _ _).mp ends
  obtain ⟨after, present, moved⟩ := (Option.any_eq_true _ _).mp found
  have ran := updateUserUnder_none.mpr (of_toOption_eq_some updated)
  have only : ∀ user, withPasskey.users.get? 1 = some user →
      user = { email := "ada@example.org", passwordHash := some ⟨"first", 0⟩ } := by
    intro user here
    exact (Option.some.inj here).symm
  have fresh : ∀ user hash, withPasskey.users.get? 1 = some user →
      user.passwordHash = some hash → hash.salt ≠ 7 := by
    intro user hash here stored
    rw [only user here] at stored
    obtain rfl := Option.some.inj stored
    decide
  obtain ⟨user, row, here, there, grows⟩ :=
    ((user_updates_all_or_nothing fresh).mpr fun _ _ => ⟨rfl, rfl⟩).2 next ran
  obtain rfl := Option.some.inj (present.symm.trans there)
  obtain rfl := only user here
  refine ⟨next, after, ran, present, grows.mpr (.inr ?_)⟩
  rw [of_decide_eq_true moved]
  simp

end AmberBackup.Auth
