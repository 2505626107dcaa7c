import AmberBackup.Auth.Calls

/-! # Time-based one-time passwords

A set-up stores a secret that is pending until a code has been verified against it. The
recovery codes that enabling issues are kept as hashes and used up one by one, each time
through a list that is read, filtered and written back.
-/

namespace AmberBackup.Auth

open Relational

/-- What `String.prototype.trim` removes. -/
def isTrimmed (char : Char) : Bool :=
  [9, 10, 11, 12, 13, 32, 160, 0x1680, 0x2028, 0x2029, 0x202F, 0x205F, 0x3000, 0xFEFF].contains
      char.toNat || (0x2000 ≤ char.toNat && char.toNat ≤ 0x200A)

def trim (text : String) : String :=
  String.ofList (((text.toList.dropWhile isTrimmed).reverse.dropWhile isTrimmed).reverse)

/-- `/^\d\x7b6\x7d$/`. -/
def sixDigits (text : String) : Bool :=
  text.toList.length = 6 && text.toList.all Char.isDigit

/-- A recovery code without case and format. -/
def canonical (code : String) : String :=
  String.ofList ((code.toList.filter Char.isAlphanum).map Char.toLower)

/-- The first hash the code matches, and the others. -/
def matching (candidate : String) : List RecoveryHash → Option (RecoveryHash × List RecoveryHash)
  | [] => none
  | hash :: rest =>
      if hash.code = candidate then some (hash, rest)
      else (matching candidate rest).map fun found => (found.1, hash :: found.2)

/-- What a code comes to at login: `TotpService.verifyLogin`, up to the use of a recovery
code. -/
inductive CodeVerdict where
  | invalid
  | valid
  | recovery (codes : List RecoveryHash) (used : RecoveryHash) (remaining : List RecoveryHash)

def verifyLogin (settings : Settings) (now : Nat) (user : User) (code : String) : CodeVerdict :=
  match user.totpSecret with
  | none => .invalid
  | some secret =>
      if !user.totpEnabled then .invalid
      else if sixDigits (trim code) then
        if settings.verifyTotp secret (trim code) now then .valid else .invalid
      else
        let codes := user.totpRecoveryCodes.getD []
        if canonical code = "" then .invalid
        else
          match matching (canonical code) codes with
          | none => .invalid
          | some (used, remaining) => .recovery codes used remaining

/-- The hashes of the recovery codes, each with a salt of its own. -/
def recoveryHashes (fresh : Nat) : List String → List RecoveryHash
  | [] => []
  | code :: rest => ⟨canonical code, fresh⟩ :: recoveryHashes (fresh + 1) rest

def SetupTotpPhase.step (server : Server) (user : Uuid) : SetupTotpPhase → Outcome →
    Option Effect
  | .readUser, .returns =>
      match server.accounts.users.get? user with
      | none => some { next := .done }
      | some row =>
          if row.authSource = .«local» && !row.totpEnabled then
            some { next := .setupTotp user (.write server.fresh), drawn := 1 }
          else some { next := .done }
  | .write secret, .returns =>
      some { next := .done, statement := .updateUser user (.setupTotp secret) }
  | _, _ => none

def EnableTotpPhase.step (settings : Settings) (server : Server) (user : Uuid) (code : String) :
    EnableTotpPhase → Outcome → Option Effect
  | .readUser, .returns =>
      match server.accounts.users.get? user with
      | none => some { next := .done }
      | some row =>
          match row.totpSecret with
          | none => some { next := .done }
          | some secret =>
              if row.authSource = .«local» && !row.totpEnabled then
                some { next := .enableTotp user code (.verifyToken secret) }
              else some { next := .done }
  | .verifyToken secret, .returns =>
      if settings.verifyTotp secret (trim code) server.now then
        some {
          next := .enableTotp user code (.hashCodes secret)
          events := [.totpConfirmed user secret] }
      else some { next := .done }
  | .hashCodes secret, .generates codes =>
      some {
        next := .enableTotp user code (.write secret (recoveryHashes server.fresh codes))
        drawn := codes.length }
  | .write _ hashes, .returns =>
      some { next := .done, statement := .updateUser user (.enableTotp hashes) }
  | _, _ => none

def DisableTotpPhase.step (server : Server) (user : Uuid) (password : String) :
    DisableTotpPhase → Outcome → Option Effect
  | .readUser, .returns =>
      match server.accounts.users.get? user with
      | none => some { next := .done }
      | some row =>
          if row.authSource = .«local» then
            some { next := .disableTotp user password (.verifyPassword row) }
          else some { next := .done }
  | .verifyPassword row, .returns =>
      if Auth.verifyPassword row password then some { next := .disableTotp user password .write }
      else some { next := .done }
  | .write, .returns => some { next := .done, statement := .updateUser user .disableTotp }
  | _, _ => none

end AmberBackup.Auth
