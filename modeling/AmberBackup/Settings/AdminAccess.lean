import AmberBackup.Auth.UsersService
import AmberBackup.Settings.SettingsService

/-! # Administrators that can sign in

Four calls can take an administrator's way in: the two settings and the edits of accounts,
here each from its start to its end. Each guards one part of it: a setting does not look for
an administrator, and an edit counts every enabled one, whether or not it can sign in. What
each call needs besides to keep a way in is exact (`admins_keep_access`).
-/

namespace AmberBackup.Auth

open Relational Transition

namespace Installation

/-- True when `id` is an enabled admin and no other enabled admin exists. -/
def isLastActiveAdmin (state : Installation) (id : Uuid) : Bool :=
  (state.users.get? id).any User.activeAdmin && !state.accounts.otherActiveAdmin id

/-- The switch of the authentication source an update asks for, if any: the columns it
writes, and the statement it executes before. -/
def switched (state : Installation) (id : Uuid) (dto : UpdateUserDto) (user : User) :
    Except Failure (UserPatch × Statement) :=
  if dto.willBeLocal user = decide (user.authSource = .«local») then .ok (dto.patch, .nothing)
  else if dto.willBeLocal user then
    -- without a password the account would have no way in
    if dto.password.getD "" = "" then
      .error (.badRequest "A password is required to switch this account to local login")
    else .ok ({ dto.patch with authSource := some .«local» }, .nothing)
  else if state.hasUsableSso then .ok (dto.patch.switchedToSso, .deleteCredentials id)
  else
    .error (.badRequest
      ("Enable SSO with at least one fully configured provider before switching accounts " ++
        "to it"))

/-- The columns with the new password, hashed with the salt. -/
def withPassword (dto : UpdateUserDto) (user : User) (salt : Nat) (patch : UserPatch) :
    Except Failure UserPatch :=
  match dto.password with
  | none => .ok patch
  | some password =>
      if dto.willBeLocal user then .ok { patch with passwordHash := some (some ⟨password, salt⟩) }
      else .error (.badRequest "Cannot set password on SSO account")

/-- `UsersService.update`. -/
def updateUser (state : Installation) (id : Uuid) (dto : UpdateUserDto) (salt : Nat) :
    Except Failure Installation :=
  match state.users.get? id with
  | none => .error (.notFound "User not found")
  | some user =>
      if user.isAdmin && dto.demotes && state.isLastActiveAdmin id then
        .error (.badRequest "Cannot demote or disable the last remaining administrator")
      else do
        let (patch, before) ← state.switched id dto user
        let columns ← withPassword dto user salt patch
        return (state.execute before).execute (.updateUser id (.edit columns))

/-- `UsersService.remove`. -/
def removeUser (state : Installation) (id : Uuid) : Except Failure Installation :=
  if state.isLastActiveAdmin id then
    .error (.badRequest "Cannot delete the last remaining administrator")
  else .ok (state.execute (.deleteUser id))

end Installation

inductive AccessAction where
  | setLocalLoginEnabled (enabled : Bool)
  | updateSso (update : SsoUpdate) (drawn : Nat → String)
  | updateUser (id : Uuid) (dto : UpdateUserDto) (salt : Nat)
  | removeUser (id : Uuid)

namespace Installation

def call (state : Installation) : AccessAction → Except Failure Installation
  | .setLocalLoginEnabled enabled => state.setLocalLoginEnabled enabled
  | .updateSso update drawn => state.updateSso update drawn
  | .updateUser id dto salt => state.updateUser id dto salt
  | .removeUser id => state.removeUser id

/-- A login of an account with the source is served. -/
def serves (state : Installation) : AuthSource → Bool
  | .«local» => state.localLoginEnabled
  | .sso => state.hasUsableSso

def canSignIn (state : Installation) (user : User) : Bool := state.serves user.authSource

/-- Some enabled administrator can sign in. -/
def adminCanSignIn (state : Installation) : Bool :=
  state.users.anyWhere fun _ user => user.activeAdmin && state.canSignIn user

/-- Some enabled administrator other than the account can sign in. -/
def otherAdminCanSignIn (state : Installation) (id : Uuid) : Bool :=
  state.users.anyWhere fun key user => key ≠ id && (user.activeAdmin && state.canSignIn user)

/-- Some enabled administrator has the source. -/
def hasAdminVia (state : Installation) (source : AuthSource) : Bool :=
  state.users.anyWhere fun _ user => user.activeAdmin && user.authSource = source

/-- What a call needs besides its own guards: switching local login off, an administrator of
the provider; a configuration that cannot serve a login, a local administrator; the removal
of an account, another administrator that can sign in; its update the same, or that it takes
no rights and does not move to a login that is switched off. -/
def keepsAccess (state : Installation) : AccessAction → Bool
  | .setLocalLoginEnabled enabled => enabled || state.hasAdminVia .sso
  | .updateSso update drawn =>
      (update.next state.sso drawn).usable || state.hasAdminVia .«local»
  | .updateUser id dto _ =>
      state.otherAdminCanSignIn id ||
        !dto.demotes && (state.users.get? id).all fun user =>
          state.localLoginEnabled ||
            !(dto.authSource = some .«local» && user.authSource = .sso)
  | .removeUser id => state.otherAdminCanSignIn id

abbrev KeepsAccess (state : Installation) (action : AccessAction) : Prop :=
  state.keepsAccess action = true

end Installation

/-- The successful calls, from any accounts and settings on. -/
def access : System Installation AccessAction where
  initial := fun _ => True
  step := fun state action => (state.call action).toOption

/-! ## What the calls change -/

namespace Installation

variable {state next : Installation} {id : Uuid} {dto : UpdateUserDto} {salt : Nat} {user : User}
  {action : AccessAction}

theorem adminCanSignIn_iff : state.adminCanSignIn = true ↔
    ∃ id user, state.users.get? id = some user ∧ user.activeAdmin = true ∧
      state.canSignIn user = true := by
  simp [adminCanSignIn, Table.anyWhere_iff]

theorem otherAdminCanSignIn_iff : state.otherAdminCanSignIn id = true ↔
    ∃ other user, state.users.get? other = some user ∧ other ≠ id ∧ user.activeAdmin = true ∧
      state.canSignIn user = true := by
  simp [otherAdminCanSignIn, Table.anyWhere_iff]

theorem hasAdminVia_iff {source : AuthSource} : state.hasAdminVia source = true ↔
    ∃ id user, state.users.get? id = some user ∧ user.activeAdmin = true ∧
      user.authSource = source := by
  simp [hasAdminVia, Table.anyWhere_iff]

/-- Who can sign in is the account or another one. -/
theorem adminCanSignIn_split (id : Uuid) : state.adminCanSignIn = true ↔
    state.otherAdminCanSignIn id = true ∨
      ∃ user, state.users.get? id = some user ∧ user.activeAdmin = true ∧
        state.canSignIn user = true := by
  rw [adminCanSignIn_iff, otherAdminCanSignIn_iff]
  constructor
  · rintro ⟨key, user, found, admin, serves⟩
    by_cases same : key = id
    · exact .inr ⟨user, same ▸ found, admin, serves⟩
    · exact .inl ⟨key, user, found, same, admin, serves⟩
  · rintro (⟨key, user, found, -, admin, serves⟩ | ⟨user, found, admin, serves⟩)
    · exact ⟨key, user, found, admin, serves⟩
    · exact ⟨id, user, found, admin, serves⟩

/-- A call that leaves the settings and the rows of all other accounts leaves the others. -/
theorem otherAdminCanSignIn_congr (localLogin : next.localLogin = state.localLogin)
    (sso : next.sso = state.sso)
    (others : ∀ other, other ≠ id → next.users.get? other = state.users.get? other) :
    next.otherAdminCanSignIn id = state.otherAdminCanSignIn id := by
  have serves : ∀ user, next.canSignIn user = state.canSignIn user := by
    intro user
    simp only [canSignIn, Installation.serves, localLoginEnabled, hasUsableSso, localLogin, sso]
  rw [Bool.eq_iff_iff, otherAdminCanSignIn_iff, otherAdminCanSignIn_iff]
  refine exists_congr fun other => exists_congr fun user => ?_
  constructor
  · rintro ⟨found, different, admin, here⟩
    exact ⟨others other different ▸ found, different, admin, serves user ▸ here⟩
  · rintro ⟨found, different, admin, here⟩
    exact ⟨(others other different).symm ▸ found, different, admin, (serves user).symm ▸ here⟩

theorem of_toOption_eq_some {α : Type} {result : Except Failure α} {value : α}
    (succeeds : result.toOption = some value) : result = .ok value := by
  cases result with
  | error failure => cases succeeds
  | ok other => exact congrArg Except.ok (Option.some.inj succeeds)

/-- A successful update writes the account's row, with the rights that were asked for and the
source it asks for; a switch to single sign-on has found it usable. -/
structure Updated (state next : Installation) (id : Uuid) (dto : UpdateUserDto)
    (user after : User) : Prop where
  found : state.users.get? id = some user
  written : next.users.get? id = some after
  others : ∀ other, other ≠ id → next.users.get? other = state.users.get? other
  localLogin : next.localLogin = state.localLogin
  sso : next.sso = state.sso
  isAdmin : after.isAdmin = dto.isAdmin.getD user.isAdmin
  disabled : after.disabled = dto.disabled.getD user.disabled
  source : after.authSource = dto.authSource.getD user.authSource
  usable : after.authSource = .sso → user.authSource = .«local» → state.hasUsableSso = true

/-- What a switch leaves of the columns: the rights are those of the request. -/
theorem switched_columns {patch : UserPatch} {before : Statement}
    (switches : state.switched id dto user = .ok (patch, before)) :
    patch.isAdmin = dto.isAdmin ∧ patch.disabled = dto.disabled ∧
      patch.authSource.getD user.authSource = dto.authSource.getD user.authSource ∧
      (patch.authSource.getD user.authSource = .sso → user.authSource = .«local» →
        state.hasUsableSso = true) ∧
      (before = .nothing ∨ before = .deleteCredentials id) := by
  unfold switched at switches
  split at switches
  case isTrue same =>
    obtain ⟨rfl, rfl⟩ := Prod.mk.inj (Except.ok.inj switches)
    have source : dto.authSource.getD user.authSource = user.authSource := by
      cases asked : dto.authSource with
      | none => rfl
      | some source =>
          simp only [UpdateUserDto.willBeLocal, asked] at same
          cases source <;> cases now : user.authSource <;> simp_all
    refine ⟨rfl, rfl, source.symm, ?_, .inl rfl⟩
    intro sso here
    exact absurd (here.symm.trans sso) nofun
  case isFalse different =>
    have asked : dto.authSource = some (if dto.willBeLocal user then .«local» else .sso) := by
      cases asked : dto.authSource with
      | none => simp [UpdateUserDto.willBeLocal, asked] at different
      | some source => cases source <;> simp [UpdateUserDto.willBeLocal, asked]
    split at switches
    case isTrue toLocal =>
      split at switches
      case isTrue => cases switches
      case isFalse =>
        obtain ⟨rfl, rfl⟩ := Prod.mk.inj (Except.ok.inj switches)
        rw [toLocal, if_pos rfl] at asked
        exact ⟨rfl, rfl, by rw [asked], nofun, .inl rfl⟩
    case isFalse toSso =>
      split at switches
      case isTrue usable =>
        obtain ⟨rfl, rfl⟩ := Prod.mk.inj (Except.ok.inj switches)
        rw [if_neg toSso] at asked
        exact ⟨rfl, rfl, by rw [asked]; rfl, fun _ _ => usable, .inr rfl⟩
      case isFalse => cases switches

theorem withPassword_columns {patch columns : UserPatch}
    (hashed : withPassword dto user salt patch = .ok columns) :
    columns.isAdmin = patch.isAdmin ∧ columns.disabled = patch.disabled ∧
      columns.authSource = patch.authSource := by
  unfold withPassword at hashed
  split at hashed
  case h_1 =>
    cases hashed
    exact ⟨rfl, rfl, rfl⟩
  case h_2 =>
    split at hashed
    case isTrue =>
      cases hashed
      exact ⟨rfl, rfl, rfl⟩
    case isFalse => cases hashed

theorem updateUser_cases (updates : state.updateUser id dto salt = .ok next) :
    ∃ user after, Updated state next id dto user after := by
  unfold updateUser at updates
  split at updates
  case h_1 => cases updates
  case h_2 user found =>
    split at updates
    case isTrue => cases updates
    case isFalse =>
      obtain ⟨⟨patch, before⟩, switches, rest⟩ := of_bind_eq_ok updates
      obtain ⟨columns, hashed, same⟩ := of_bind_eq_ok rest
      obtain rfl := Except.ok.inj same
      obtain ⟨isAdmin, disabled, source, usable, before⟩ := switched_columns switches
      obtain ⟨sameAdmin, sameDisabled, sameSource⟩ := withPassword_columns hashed
      have kept : (state.execute ‹_›).users = state.users := by
        rcases before with rfl | rfl <;> rfl
      refine ⟨user, UserUpdate.set user (.edit columns), found, ?_, ?_, rfl, rfl, ?_, ?_,
        ?_, ?_⟩
      · change (Table.update (state.execute _).users _ _).get? id = _
        rw [kept, Table.get?_update_self, found]
        rfl
      · intro other different
        change (Table.update (state.execute _).users _ _).get? other = _
        rw [kept, Table.get?_update_of_ne different]
      · change columns.isAdmin.getD user.isAdmin = _
        rw [sameAdmin, isAdmin]
      · change columns.disabled.getD user.disabled = _
        rw [sameDisabled, disabled]
      · change columns.authSource.getD user.authSource = _
        rw [sameSource, source]
      · change columns.authSource.getD user.authSource = .sso → _
        rw [sameSource]
        exact usable

/-! ## What the calls keep -/

theorem serves_congr (localLogin : next.localLogin = state.localLogin)
    (sso : next.sso = state.sso) (source : AuthSource) : next.serves source = state.serves source := by
  cases source with
  | «local» => simp only [serves, localLoginEnabled, localLogin]
  | sso => simp only [serves, hasUsableSso, sso]

theorem Updated.keeps {after : User} (updated : Updated state next id dto user after)
    (before : state.adminCanSignIn = true) :
    next.adminCanSignIn = true ↔ state.keepsAccess (.updateUser id dto salt) = true := by
  have others := otherAdminCanSignIn_congr updated.localLogin updated.sso updated.others
  have serves := serves_congr updated.localLogin updated.sso
  rw [adminCanSignIn_split id, others, keepsAccess, Bool.or_eq_true]
  refine or_congr_right' fun alone => ?_
  -- nobody else can sign in, so the account itself is the administrator that could
  obtain ⟨row, found, admin, served⟩ :=
    ((adminCanSignIn_split id).mp before).resolve_left alone
  obtain rfl := Option.some.inj (updated.found.symm.trans found)
  simp only [User.activeAdmin, Bool.and_eq_true, Bool.not_eq_true'] at admin
  have rights : after.activeAdmin = !dto.demotes := by
    simp only [User.activeAdmin, updated.isAdmin, updated.disabled, UpdateUserDto.demotes, admin.1,
      admin.2]
    cases dto.isAdmin with
    | none => cases dto.disabled with
      | none => rfl
      | some disabled => cases disabled <;> rfl
    | some isAdmin => cases isAdmin <;> cases dto.disabled with
      | none => rfl
      | some disabled => cases disabled <;> rfl
  have source : next.canSignIn after = (state.localLoginEnabled ||
      !(dto.authSource = some .«local» && user.authSource = .sso)) := by
    have usable := updated.usable
    rw [updated.source] at usable
    simp only [canSignIn, serves, updated.source]
    simp only [canSignIn] at served
    cases asks : dto.authSource with
    | none => simpa using served
    | some asked =>
        rw [asks, Option.getD_some] at usable
        cases here : user.authSource with
        | «local» =>
            rw [here] at served
            cases asked with
            | «local» => simpa using served
            | sso => simpa [Installation.serves] using usable rfl here
        | sso =>
            rw [here] at served
            cases asked with
            | «local» => simp [Installation.serves]
            | sso => simpa using served
  rw [Bool.and_eq_true, updated.found, Option.all_some, ← rights, ← source]
  constructor
  · rintro ⟨row, written, active, serves⟩
    obtain rfl := Option.some.inj (updated.written.symm.trans written)
    exact ⟨active, serves⟩
  · rintro ⟨active, serves⟩
    exact ⟨after, updated.written, active, serves⟩

theorem removeUser_keeps (removes : state.removeUser id = .ok next) :
    next.adminCanSignIn = true ↔ state.keepsAccess (.removeUser id) = true := by
  unfold removeUser at removes
  split at removes
  case isTrue => cases removes
  case isFalse =>
    obtain rfl := Except.ok.inj removes
    have others : (state.execute (.deleteUser id)).otherAdminCanSignIn id =
        state.otherAdminCanSignIn id :=
      otherAdminCanSignIn_congr rfl rfl fun other different =>
        Table.get?_delete_of_ne different
    rw [adminCanSignIn_split id, others, keepsAccess, or_iff_left]
    rintro ⟨user, found, -⟩
    have gone : (state.execute (.deleteUser id)).users.get? id = none := Table.get?_delete_self
    rw [gone] at found
    cases found

theorem setLocalLoginEnabled_keeps {enabled : Bool} (before : state.adminCanSignIn = true)
    (sets : state.setLocalLoginEnabled enabled = .ok next) :
    next.adminCanSignIn = true ↔ state.keepsAccess (.setLocalLoginEnabled enabled) = true := by
  unfold setLocalLoginEnabled at sets
  split at sets
  case isTrue => cases sets
  case isFalse unlocked =>
    obtain rfl := Except.ok.inj sets
    cases enabled with
    | true =>
        simp only [keepsAccess, Bool.true_or, iff_true]
        obtain ⟨id, user, found, admin, served⟩ := adminCanSignIn_iff.mp before
        refine adminCanSignIn_iff.mpr ⟨id, user, found, admin, ?_⟩
        cases here : user.authSource with
        | «local» => simp [canSignIn, here, Installation.serves, localLoginEnabled]
        | sso =>
            rw [canSignIn, here] at served ⊢
            exact served
    | false =>
        have usable : state.hasUsableSso = true := by simpa using unlocked
        rw [keepsAccess, Bool.false_or, adminCanSignIn_iff, hasAdminVia_iff]
        refine exists_congr fun id => exists_congr fun user => and_congr_right fun _ =>
          and_congr_right fun _ => ?_
        cases here : user.authSource with
        | «local» => simp [canSignIn, here, Installation.serves, localLoginEnabled]
        | sso =>
            rw [canSignIn, here]
            exact iff_of_true usable rfl

theorem updateSso_keeps {update : SsoUpdate} {drawn : Nat → String}
    (before : state.adminCanSignIn = true) (updates : state.updateSso update drawn = .ok next) :
    next.adminCanSignIn = true ↔ state.keepsAccess (.updateSso update drawn) = true := by
  unfold updateSso at updates
  split at updates
  case isTrue => cases updates
  case isFalse unlocked =>
    obtain rfl := Except.ok.inj updates
    rw [keepsAccess]
    cases usable : (update.next state.sso drawn).usable with
    | true =>
        simp only [Bool.true_or, iff_true]
        obtain ⟨id, user, found, admin, served⟩ := adminCanSignIn_iff.mp before
        refine adminCanSignIn_iff.mpr ⟨id, user, found, admin, ?_⟩
        cases here : user.authSource with
        | «local» =>
            rw [canSignIn, here] at served ⊢
            exact served
        | sso =>
            rw [canSignIn, here]
            exact usable
    | false =>
        have enabled : state.localLoginEnabled = true := by simpa [usable] using unlocked
        rw [Bool.false_or, adminCanSignIn_iff, hasAdminVia_iff]
        refine exists_congr fun id => exists_congr fun user => and_congr_right fun _ =>
          and_congr_right fun _ => ?_
        cases here : user.authSource with
        | «local» =>
            rw [canSignIn, here]
            exact iff_of_true enabled rfl
        | sso => simp [canSignIn, here, Installation.serves, hasUsableSso, usable]

/-- A successful call keeps a way in exactly where it meets the condition. -/
theorem call_keeps (before : state.adminCanSignIn = true)
    (succeeds : state.call action = .ok next) :
    next.adminCanSignIn = true ↔ KeepsAccess state action := by
  cases action with
  | setLocalLoginEnabled enabled => exact setLocalLoginEnabled_keeps before succeeds
  | updateSso update drawn => exact updateSso_keeps before succeeds
  | updateUser id dto salt =>
      obtain ⟨user, after, updated⟩ := updateUser_cases succeeds
      exact updated.keeps before
  | removeUser id => exact removeUser_keeps succeeds

end Installation

open Installation

/-- **Administrators keep a way in.** From every state in which an enabled administrator can
sign in, every run of successful calls that all meet the condition ends in such a state; and
a successful call that does not meet it leaves no administrator that can sign in. -/
theorem admins_keep_access {start : Installation} (before : start.adminCanSignIn = true) :
    (∀ state, access.Steps KeepsAccess start state → state.adminCanSignIn = true) ∧
      ∀ state action next, access.Steps KeepsAccess start state →
        state.call action = .ok next →
          (next.adminCanSignIn = true ↔ KeepsAccess state action) := by
  have kept : ∀ state, access.Steps KeepsAccess start state → state.adminCanSignIn = true := by
    intro state steps
    refine steps.stable (fun state => state.adminCanSignIn = true) (.initial trivial) ?_ before
    intro middle action next _ here keeps moved
    exact (call_keeps here (of_toOption_eq_some moved)).mpr keeps
  refine ⟨kept, ?_⟩
  intro state action next steps succeeds
  exact call_keeps (kept state steps) succeeds

/-- Two local administrators, and the settings as they are at first. -/
def firstInstallation : Installation where
  users := .ofList [
    (1, { email := "ada@example.org", isAdmin := true, passwordHash := some ⟨"first", 0⟩ }),
    (2, { email := "bob@example.org", isAdmin := true, passwordHash := some ⟨"second", 1⟩ })]

def enableGoogle : SsoUpdate where
  enabled := some true
  providers := some [{ type := .google, clientId := some "id", clientSecret := some "shh" }]

/-- Single sign-on can serve a login, but no administrator uses it: switching local login off
leaves none that can sign in. -/
theorem local_login_switched_off :
    ¬ ∀ start state, start.adminCanSignIn = true →
      access.Steps (fun _ _ => True) start state → state.adminCanSignIn = true := by
  intro claim
  have ends : (access.runWithin (fun _ _ => True) firstInstallation
      [.updateSso enableGoogle fun _ => "p", .setLocalLoginEnabled false]).any
        (fun state => !state.adminCanSignIn) = true := by
    decide +kernel
  obtain ⟨state, ran, lost⟩ := (Option.any_eq_true _ _).mp ends
  have kept := claim firstInstallation state (by decide +kernel) (System.steps_of_runWithin ran)
  rw [kept] at lost
  cases lost

/-- One administrator moves to single sign-on before local login is switched off, and still
can sign in. -/
theorem sso_administrator_signs_in :
    ∃ state, access.Steps KeepsAccess firstInstallation state ∧
      state.localLoginEnabled = false ∧ state.adminCanSignIn = true := by
  have ends : (access.runWithin KeepsAccess firstInstallation
      [.updateSso enableGoogle fun _ => "p", .updateUser 2 { authSource := some .sso } 7,
        .setLocalLoginEnabled false]).any (fun state => !state.localLoginEnabled) = true := by
    decide +kernel
  obtain ⟨state, ran, off⟩ := (Option.any_eq_true _ _).mp ends
  have steps := System.steps_of_runWithin ran
  have before : firstInstallation.adminCanSignIn = true := by decide +kernel
  exact ⟨state, steps, by simpa using off, (admins_keep_access before).1 state steps⟩

end AmberBackup.Auth
