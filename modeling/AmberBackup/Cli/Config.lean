import Mathlib.Algebra.Group.Int.Defs
import Mathlib.Data.List.Basic

/-! # Flags of the command line

The flags of all commands are read in one pass, before it is known which command they belong to;
a command that does not accept a flag rejects it.
-/

namespace AmberBackup

namespace Cli

structure CommandFlags where
  username : Option String := none
  password : Option String := none
  passwordStdin : Bool := false
  clear : Bool := false
  check : Bool := false
  force : Bool := false
  name : Option String := none
  noBrowser : Bool := false
  insecureHttp : Bool := false
  method : Option String := none
  expires : Option String := none
  level : Option String := none
  wait : Bool := false
  cron : Option String := none
  enable : Bool := false
  disable : Bool := false
  parts : Option String := none
  deriving DecidableEq, Repr

structure Config where
  url : String := ""
  apiKey : String := ""
  format : String := ""
  flags : CommandFlags := {}
  deriving DecidableEq, Repr

/-- An error after which the usage is pointed to. -/
structure UsageError where
  message : String
  deriving DecidableEq, Repr

namespace CommandFlags

def credentialsUsed (flags : CommandFlags) : Bool :=
  flags.username.isSome || flags.password.isSome || flags.passwordStdin || flags.clear

def updateUsed (flags : CommandFlags) : Bool := flags.check || flags.force

def loginUsed (flags : CommandFlags) : Bool :=
  flags.name.isSome || flags.noBrowser || flags.insecureHttp

def agentCreateUsed (flags : CommandFlags) : Bool := flags.method.isSome || flags.expires.isSome

def integrityScheduleUsed (flags : CommandFlags) : Bool :=
  flags.cron.isSome || flags.enable || flags.disable || flags.parts.isSome

def rejectFlagsExcept (allowed : String) (flags : CommandFlags) : Except UsageError Unit := do
  if allowed ≠ "credentials" ∧ flags.credentialsUsed = true then
    throw ⟨"--username/--password/--password-stdin/--clear are only valid for 'job credentials'"⟩
  if allowed ≠ "update" ∧ flags.updateUsed = true then
    throw ⟨"--check/--force are only valid for 'update'"⟩
  if allowed ≠ "login" ∧ flags.loginUsed = true then
    throw ⟨"--name/--no-browser/--insecure-http are only valid for 'login'"⟩
  if allowed ≠ "agent-create" ∧ flags.agentCreateUsed = true then
    throw ⟨"--method/--expires are only valid for 'agent create'"⟩
  if allowed ≠ "job-check" ∧ allowed ≠ "job-integrity" ∧ flags.level.isSome = true then
    throw ⟨"--level is only valid for 'job check' and 'job integrity'"⟩
  if allowed ≠ "job-check" ∧ flags.wait = true then
    throw ⟨"--wait is only valid for 'job check'"⟩
  if allowed ≠ "job-integrity" ∧ flags.integrityScheduleUsed = true then
    throw ⟨"--cron/--enable/--disable/--parts are only valid for 'job integrity'"⟩

end CommandFlags

def digit? (char : Char) : Option Nat :=
  if '0' ≤ char ∧ char ≤ '9' then some (char.toNat - '0'.toNat) else none

/-- The number that decimal digits write after a number. -/
def readDigits (value : Nat) : List Char → Option Nat
  | [] => some value
  | char :: rest => (digit? char).bind fun digit => readDigits (value * 10 + digit) rest

/-- `strconv.Atoi`, `none` for its errors. -/
def atoi (text : String) : Option Int :=
  let read (chars : List Char) : Option Nat := if chars = [] then none else readDigits 0 chars
  let number : Option Int := match text.toList with
    | '-' :: digits => (read digits).map fun value => -(value : Int)
    | '+' :: digits => (read digits).map fun value => (value : Int)
    | digits => (read digits).map fun value => (value : Int)
  number.filter fun value => -2 ^ 63 ≤ value && value < 2 ^ 63

end Cli

end AmberBackup
