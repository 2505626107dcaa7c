import AmberBackup.Auth.PasskeysService

/-! # Managing accounts

An update reads the account, looks at most once whether another administrator is left, and
writes at the end, from what it has read; the passkeys of an account that moves to single
sign-on are deleted in a statement of their own before. A removal looks in the same way
before it deletes.
-/

namespace AmberBackup.Auth

open Relational

/-- The request takes an administrator's rights, or disables the account. -/
def UpdateUserDto.demotes (dto : UpdateUserDto) : Bool :=
  dto.isAdmin = some false || dto.disabled = some true

/-- The columns that are written whatever becomes of the password. -/
def UpdateUserDto.patch (dto : UpdateUserDto) : UserPatch where
  displayName := dto.displayName
  isAdmin := dto.isAdmin
  disabled := dto.disabled

/-- Whether the account will be local. -/
def UpdateUserDto.willBeLocal (dto : UpdateUserDto) (user : User) : Bool :=
  match dto.authSource with
  | none => user.authSource = .«local»
  | some source => source = .«local»

/-- What the switch to single sign-on writes. -/
def UserPatch.switchedToSso (patch : UserPatch) : UserPatch :=
  { patch with authSource := some .sso, passwordHash := some none, clearTotp := true }

/-- Past the check of the last administrator: the part that depends on the authentication
source and on the password. -/
def pastGuard (id : Uuid) (dto : UpdateUserDto) (user : User) : Effect :=
  if dto.willBeLocal user = decide (user.authSource = .«local») then
    match dto.password with
    | none => { next := .updateUser id dto (.write dto.patch) }
    | some _ =>
        if dto.willBeLocal user then { next := .updateUser id dto (.hashPassword dto.patch) }
        -- the password of an SSO account cannot be set
        else { next := .done }
  else if dto.willBeLocal user then
    -- without a password the account would have no way in
    if dto.password.getD "" = "" then { next := .done }
    else
      { next :=
          .updateUser id dto (.hashPassword { dto.patch with authSource := some .«local» }) }
  else { next := .updateUser id dto (.hasUsableSso user) }

def UpdatePhase.step (server : Server) (id : Uuid) (dto : UpdateUserDto) :
    UpdatePhase → Outcome → Option Effect
  | .readUser, .returns =>
      match server.accounts.users.get? id with
      | none => some { next := .done }
      | some user =>
          if user.isAdmin && dto.demotes then some { next := .updateUser id dto (.readTarget user) }
          else some (pastGuard id dto user)
  | .readTarget user, .returns =>
      if (server.accounts.users.get? id).any User.activeAdmin then
        some { next := .updateUser id dto (.readOthers user) }
      else some (pastGuard id dto user)
  | .readOthers user, .returns =>
      if server.accounts.otherActiveAdmin id then some (pastGuard id dto user)
      else some { next := .done }
  | .hasUsableSso user, .returns =>
      if server.accounts.usableSso then some { next := .updateUser id dto (.deletePasskeys user) }
      else some { next := .done }
  | .deletePasskeys _, .returns =>
      match dto.password with
      | none =>
          some {
            next := .updateUser id dto (.write dto.patch.switchedToSso)
            statement := .deleteCredentials id }
      | some _ => some { next := .done, statement := .deleteCredentials id }
  | .hashPassword patch, .returns =>
      some {
        next := .updateUser id dto (.write { patch with
          passwordHash := some (some ⟨dto.password.getD "", server.fresh⟩) })
        drawn := 1 }
  | .write patch, .returns =>
      some {
        next := .done
        statement := .updateUser id (.edit patch)
        events :=
          if patch.passwordHash.isSome then
            [.passwordReplaced id (server.accounts.sessionEpoch id)]
          else [] }
  | _, _ => none

def RemovePhase.step (server : Server) (id : Uuid) : RemovePhase → Outcome → Option Effect
  | .readTarget, .returns =>
      if (server.accounts.users.get? id).any User.activeAdmin then
        some { next := .removeUser id .readOthers }
      else some { next := .removeUser id .delete }
  | .readOthers, .returns =>
      if server.accounts.otherActiveAdmin id then some { next := .removeUser id .delete }
      else some { next := .done }
  | .delete, .returns => some { next := .done, statement := .deleteUser id }
  | _, _ => none

def ChangePasswordPhase.step (server : Server) (user : Uuid) (current new : String) :
    ChangePasswordPhase → Outcome → Option Effect
  | .readUser, .returns =>
      match server.accounts.users.get? user with
      | none => some { next := .done }
      | some row =>
          if row.authSource = .«local» then
            some { next := .changePassword user current new (.verifyPassword row) }
          else some { next := .done }
  | .verifyPassword row, .returns =>
      if Auth.verifyPassword row current then
        some { next := .changePassword user current new .hashPassword }
      else some { next := .done }
  | .hashPassword, .returns =>
      some {
        next := .changePassword user current new (.write ⟨new, server.fresh⟩)
        drawn := 1 }
  | .write hash, .returns =>
      some {
        next := .issue user (.changedPassword (server.accounts.sessionEpoch user + 1)) .readUser
        statement := .updateUser user (.changePassword hash)
        events := [.passwordReplaced user (server.accounts.sessionEpoch user)] }
  | _, _ => none

end AmberBackup.Auth
