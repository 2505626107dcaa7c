import AmberBackup.Database.Service

/-! # Accounts and their factors

The rows of `users` and `webauthn_credentials`, the statements the authentication services
execute on them, and the tokens they sign. A hash is told apart from every other by its
salt. The session epoch of an account changes with every write of its password or of its
authentication source (`UserUpdate.set_epoch`), so that an account still in the epoch of a
session has the password and the source it had then.
-/

namespace AmberBackup.Auth

open Relational

inductive AuthSource where
  | «local» | sso
  deriving DecidableEq, Repr

/-- An argon2 hash of a password. -/
structure PasswordHash where
  password : String
  salt : Nat
  deriving DecidableEq, Repr

/-- An argon2 hash of a recovery code in its canonical form. -/
structure RecoveryHash where
  code : String
  salt : Nat
  deriving DecidableEq, Repr

/-- What `hashToken` makes of a random code; nobody reads the code back. -/
structure TokenHash (τ : Type) where
  token : τ
  deriving DecidableEq, Repr

def hashToken {τ : Type} (token : τ) : TokenHash τ := ⟨token⟩

/-- A Base32 secret, told apart from every other one ever generated. -/
abbrev TotpSecret := Nat

structure User where
  email : String
  displayName : String := ""
  authSource : AuthSource := .«local»
  passwordHash : Option PasswordHash := none
  isAdmin : Bool := false
  disabled : Bool := false
  totpEnabled : Bool := false
  totpSecret : Option TotpSecret := none
  totpRecoveryCodes : Option (List RecoveryHash) := none
  /-- The generation of the account's sessions. -/
  sessionEpoch : Nat := 0
  deriving DecidableEq, Repr

structure WebauthnCredential where
  userId : Uuid
  credentialId : String
  counter : Nat
  name : String
  deriving DecidableEq, Repr

/-- The tables, and the settings that decide how one may sign in. -/
structure Accounts where
  users : Table Uuid User := .empty
  webauthnCredentials : Table Uuid WebauthnCredential := .empty
  localLoginEnabled : Bool := true
  usableSso : Bool := false

structure UpdateUserDto where
  displayName : Option String := none
  isAdmin : Option Bool := none
  disabled : Option Bool := none
  password : Option String := none
  authSource : Option AuthSource := none
  deriving DecidableEq, Repr

/-- The columns `UsersService.update` writes: those that are given. -/
structure UserPatch where
  displayName : Option String := none
  isAdmin : Option Bool := none
  disabled : Option Bool := none
  authSource : Option AuthSource := none
  passwordHash : Option (Option PasswordHash) := none
  /-- The TOTP columns are cleared. -/
  clearTotp : Bool := false
  deriving DecidableEq, Repr

/-- Any credential change revokes the user's sessions. -/
def UserPatch.revokes (patch : UserPatch) : Bool :=
  patch.passwordHash.isSome || patch.authSource.isSome

/-- The `UPDATE` statements on one row of `users`. -/
inductive UserUpdate where
  | edit (patch : UserPatch)
  /-- `UsersService.changePassword`. -/
  | changePassword (hash : PasswordHash)
  /-- `TotpService.setup`, `enable`, `disable`, and the use of a recovery code. -/
  | setupTotp (secret : TotpSecret)
  | enableTotp (hashes : List RecoveryHash)
  | disableTotp
  | useRecoveryCode (remaining : List RecoveryHash)
  deriving DecidableEq, Repr

def UserUpdate.set (user : User) : UserUpdate → User
  | .edit patch =>
      { user with
        displayName := patch.displayName.getD user.displayName
        isAdmin := patch.isAdmin.getD user.isAdmin
        disabled := patch.disabled.getD user.disabled
        authSource := patch.authSource.getD user.authSource
        passwordHash := patch.passwordHash.getD user.passwordHash
        totpEnabled := !patch.clearTotp && user.totpEnabled
        totpSecret := if patch.clearTotp then none else user.totpSecret
        totpRecoveryCodes := if patch.clearTotp then none else user.totpRecoveryCodes
        sessionEpoch := if patch.revokes then user.sessionEpoch + 1 else user.sessionEpoch }
  | .changePassword hash =>
      { user with passwordHash := some hash, sessionEpoch := user.sessionEpoch + 1 }
  | .setupTotp secret => { user with totpSecret := some secret }
  | .enableTotp hashes => { user with totpEnabled := true, totpRecoveryCodes := some hashes }
  | .disableTotp =>
      { user with totpEnabled := false, totpSecret := none, totpRecoveryCodes := none }
  | .useRecoveryCode remaining => { user with totpRecoveryCodes := some remaining }

/-- One SQL statement. -/
inductive Statement where
  | nothing
  | updateUser (id : Uuid) (update : UserUpdate)
  /-- The account's credentials go with it. -/
  | deleteUser (id : Uuid)
  | insertCredential (row : WebauthnCredential)
  | deleteCredentials (user : Uuid)
  | touchCredential (id counter : Nat)
  deriving DecidableEq

def Statement.execute (accounts : Accounts) : Statement → Accounts
  | .nothing => accounts
  | .updateUser id update =>
      { accounts with users := accounts.users.update (fun key _ => key = id) update.set }
  | .deleteUser id =>
      { accounts with
        users := accounts.users.delete fun key _ => key = id
        webauthnCredentials := accounts.webauthnCredentials.delete fun _ row => row.userId = id }
  | .insertCredential row =>
      { accounts with
        webauthnCredentials :=
          accounts.webauthnCredentials.insert (freshId accounts.webauthnCredentials) row }
  | .deleteCredentials user =>
      { accounts with
        webauthnCredentials := accounts.webauthnCredentials.delete fun _ row => row.userId = user }
  | .touchCredential id counter =>
      { accounts with
        webauthnCredentials :=
          accounts.webauthnCredentials.update (fun key _ => key = id) fun row =>
            { row with counter } }

@[simp] theorem Statement.execute_nothing (accounts : Accounts) :
    Statement.nothing.execute accounts = accounts := rfl

/-- `UsersService.findByEmailRaw`, on an e-mail in lower case. -/
def Accounts.findByEmailRaw (accounts : Accounts) (email : String) : Option (Uuid × User) :=
  accounts.users.rows.find? fun entry => entry.2.email = email

/-- `UsersService.verifyPassword`. -/
def verifyPassword (user : User) (password : String) : Bool :=
  user.passwordHash.any fun hash => hash.password = password

/-- `UsersService.sessionEpoch`: 0 for an unknown user. -/
def Accounts.sessionEpoch (accounts : Accounts) (user : Uuid) : Nat :=
  ((accounts.users.get? user).map User.sessionEpoch).getD 0

/-- An administrator that can act. -/
def User.activeAdmin (user : User) : Bool := user.isAdmin && !user.disabled

/-- An enabled administrator other than the account. -/
def Accounts.otherActiveAdmin (accounts : Accounts) (id : Uuid) : Bool :=
  accounts.users.anyWhere fun key user => user.activeAdmin && key ≠ id

/-- A session token: `sub`, `se` and `exp`. -/
structure Session where
  user : Uuid
  epoch : Nat
  expiresAt : Nat
  deriving DecidableEq, Repr

/-- A signed token whose life began at the instant is not expired yet: instants count
milliseconds, and `iat` and `exp` whole seconds. -/
def withinLifetime (seconds issuedAt now : Nat) : Bool :=
  now / 1000 < issuedAt / 1000 + seconds

/-- `AuthGuard.fromJwt` lets the session through. -/
def Accounts.accepts (accounts : Accounts) (now : Nat) (session : Session) : Bool :=
  now / 1000 < session.expiresAt &&
    (accounts.users.get? session.user).any fun user =>
      !user.disabled && session.epoch = user.sessionEpoch

section Statements

variable {accounts : Accounts} {statement : Statement} {id : Uuid} {user after : User}

/-- The row of an account after a statement: as before, or changed by an update of it. -/
theorem Statement.user_after
    (present : (statement.execute accounts).users.get? id = some after) :
    accounts.users.get? id = some after ∨
      ∃ user update, accounts.users.get? id = some user ∧
        statement = .updateUser id update ∧ after = update.set user := by
  cases statement with
  | updateUser key update =>
      change (accounts.users.update (fun other _ => other = key) update.set).get? id = some after
        at present
      rw [Table.get?_update] at present
      obtain ⟨user, found, same⟩ := Option.map_eq_some_iff.mp present
      by_cases equal : id = key
      · subst equal
        simp only [decide_true, ↓reduceIte] at same
        exact Or.inr ⟨user, update, found, rfl, same.symm⟩
      · simp only [equal, decide_false, Bool.false_eq_true, ↓reduceIte] at same
        exact Or.inl (same ▸ found)
  | deleteUser key =>
      change (accounts.users.delete fun other _ => other = key).get? id = some after at present
      rw [Table.get?_delete, Option.filter_eq_some_iff] at present
      exact Or.inl present.1
  | nothing | insertCredential | deleteCredentials | touchCredential => exact Or.inl present

/-- A statement that deletes no account keeps a row of each. -/
theorem Statement.user_kept (present : accounts.users.get? id = some user)
    (kept : statement ≠ .deleteUser id) :
    ∃ after, (statement.execute accounts).users.get? id = some after ∧
      (after = user ∨ ∃ update, statement = .updateUser id update ∧ after = update.set user) := by
  cases statement with
  | updateUser key update =>
      change ∃ after, (accounts.users.update (fun other _ => other = key) update.set).get? id =
        some after ∧ _
      rw [Table.get?_update, present]
      by_cases equal : id = key
      · subst equal
        exact ⟨update.set user, by simp, Or.inr ⟨update, rfl, rfl⟩⟩
      · exact ⟨user, by simp [equal], Or.inl rfl⟩
  | deleteUser key =>
      have different : id ≠ key := fun equal => kept (equal ▸ rfl)
      change ∃ after, (accounts.users.delete fun other _ => other = key).get? id = some after ∧ _
      rw [Table.get?_delete, present]
      exact ⟨user, by simp [different], Or.inl rfl⟩
  | nothing | insertCredential | deleteCredentials | touchCredential =>
      exact ⟨user, present, Or.inl rfl⟩

/-- A credential after a statement stems from one of the same account, or is inserted. -/
theorem Statement.credential_after {row : WebauthnCredential}
    (present : (statement.execute accounts).webauthnCredentials.get? id = some row) :
    (∃ old, accounts.webauthnCredentials.get? id = some old ∧ old.userId = row.userId ∧
        statement ≠ .deleteCredentials row.userId ∧ statement ≠ .deleteUser row.userId) ∨
      statement = .insertCredential row := by
  cases statement with
  | nothing | updateUser => exact Or.inl ⟨row, present, rfl, by simp, by simp⟩
  | deleteUser user | deleteCredentials user =>
      change (accounts.webauthnCredentials.delete fun _ row => row.userId = user).get? id = some row
        at present
      rw [Table.get?_delete, Option.filter_eq_some_iff] at present
      have other : row.userId ≠ user := by simpa using present.2
      exact Or.inl ⟨row, present.1, rfl, by simp [other.symm], by simp [other.symm]⟩
  | insertCredential inserted =>
      change (accounts.webauthnCredentials.insert _ inserted).get? id = some row at present
      rw [Table.get?_insert (get?_freshId _)] at present
      split at present
      · cases present
        exact Or.inr rfl
      · exact Or.inl ⟨row, present, rfl, by simp, by simp⟩
  | touchCredential key counter =>
      change (accounts.webauthnCredentials.update (fun other _ => other = key) _).get? id = some row
        at present
      rw [Table.get?_update] at present
      obtain ⟨old, found, same⟩ := Option.map_eq_some_iff.mp present
      refine Or.inl ⟨old, found, ?_, by simp, by simp⟩
      rw [← same]
      split <;> rfl

/-- The epoch never goes back, and where it stays the password and the source do. -/
theorem UserUpdate.set_epoch (update : UserUpdate) (user : User) :
    user.sessionEpoch ≤ (update.set user).sessionEpoch ∧
      ((update.set user).sessionEpoch = user.sessionEpoch →
        (update.set user).passwordHash = user.passwordHash ∧
          (update.set user).authSource = user.authSource) := by
  cases update with
  | edit patch =>
      unfold set
      by_cases revokes : patch.revokes = true
      · simp [revokes]
      · simp only [UserPatch.revokes, Bool.or_eq_true, Option.isSome_iff_ne_none, ne_eq, not_or,
          not_not] at revokes
        simp [UserPatch.revokes, revokes.1, revokes.2]
  | changePassword hash =>
      refine ⟨Nat.le_succ _, fun same => ?_⟩
      exact absurd same (Nat.succ_ne_self _)
  | setupTotp | enableTotp | disableTotp | useRecoveryCode =>
      exact ⟨Nat.le_refl _, fun _ => ⟨rfl, rfl⟩⟩

/-- The epoch an account had, if any, is not later than the one it has. -/
theorem Statement.epoch_le {after : User}
    (present : (statement.execute accounts).users.get? id = some after) :
    ∃ user, accounts.users.get? id = some user ∧ user.sessionEpoch ≤ after.sessionEpoch ∧
      (after.sessionEpoch = user.sessionEpoch →
        after.passwordHash = user.passwordHash ∧ after.authSource = user.authSource) := by
  rcases Statement.user_after present with same | ⟨user, update, found, -, equal⟩
  · exact ⟨after, same, Nat.le_refl _, fun _ => ⟨rfl, rfl⟩⟩
  · subst equal
    exact ⟨user, found, update.set_epoch user⟩

end Statements

theorem Accounts.otherActiveAdmin_iff {accounts : Accounts} {id : Uuid} :
    accounts.otherActiveAdmin id = true ↔
      ∃ other user, accounts.users.get? other = some user ∧ user.activeAdmin = true ∧
        other ≠ id := by
  simp [otherActiveAdmin, Table.anyWhere_iff]

end AmberBackup.Auth
