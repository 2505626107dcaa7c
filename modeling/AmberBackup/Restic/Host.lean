import AmberBackup.Targets.BackendRegistry
import Mathlib.Data.Rat.Init

/-! # Hosts that execute restic and job scripts

A backup is executed on the server or on an agent host. Either way it consists of restic
commands and scripts run one after the other, and what they do is up to the host: how
each of them ends and what it prints. An execution leaves a trace, the commands it ran
and the lines of its log.
-/

namespace AmberBackup

/-- A decoded JSON value. A number is one of the rationals a float64 stands for. -/
inductive Json where
  | null
  | boolean (flag : Bool)
  | number (number : Rat)
  | text (text : String)
  | array (items : List Json)
  | object (fields : List (String × Json))

/-- A line of restic's output that decodes as a JSON object: the fields of the object, or
none for the line `null`, which decodes to a nil map. -/
abbrev Message := Option (List (String × Json))

def Message.field (message : Message) (name : String) : Option Json :=
  message.bind (lookupLast name)

/-- How one restic command went. -/
structure ResticRun where
  /-- The exit code, or why the command could not be run to its end. -/
  ending : Except String Int := .ok 0
  /-- The lines of the standard output that are JSON objects. -/
  messages : List Message := []
  /-- The other lines, in the order they were read. -/
  lines : List String := []
  /-- The standard error as one text. -/
  stderr : String := ""

/-- How one job script went: what it printed, and why it counts as failed. -/
structure ScriptRun where
  output : String := ""
  err : Option String := none

/-- The restic commands a task is made of; a task runs each at most once. -/
inductive ResticStep where
  | catConfig | init | backup | forget | prune | stats | restore | check
  deriving DecidableEq, Repr

/-- `AMBER_HOOK`. -/
inductive Hook where
  | pre | postSuccess | postFailure
  deriving DecidableEq, Repr

def Hook.text : Hook → String
  | .pre => "pre"
  | .postSuccess => "post-success"
  | .postFailure => "post-failure"

/-- What restic and the scripts of one task do on a host. -/
structure Host where
  restic : ResticStep → ResticRun := fun _ => {}
  script : Hook → ScriptRun := fun _ => {}

inductive Command where
  | restic (args : List String)
  /-- A script, by its path, with the `AMBER_*` part of its environment. -/
  | script (path : String) (env : List (String × String))
  deriving DecidableEq, Repr

structure Trace where
  commands : List Command := []
  log : List String := []
  deriving DecidableEq, Repr

def Trace.execute (trace : Trace) (command : Command) : Trace :=
  { trace with commands := trace.commands ++ [command] }

@[simp] theorem Trace.execute_commands (trace : Trace) (command : Command) :
    (trace.execute command).commands = trace.commands ++ [command] := rfl

@[simp] theorem Trace.execute_log (trace : Trace) (command : Command) :
    (trace.execute command).log = trace.log := rfl

/-- The text without the characters of the kind at its two ends. -/
def trimWith (isSpace : Char → Bool) (text : String) : String :=
  String.ofList
    (((text.toList.dropWhile isSpace).reverse.dropWhile isSpace).reverse)

/-- The space separators of Unicode beyond ASCII that both hosts trim. -/
def spaceSeparator (char : Char) : Bool :=
  char.toNat = 0xA0 || char.toNat = 0x1680 || (0x2000 ≤ char.toNat && char.toNat ≤ 0x200A) ||
    char.toNat = 0x2028 || char.toNat = 0x2029 || char.toNat = 0x202F ||
    char.toNat = 0x205F || char.toNat = 0x3000

/-- Tab, line feed, vertical tab, form feed, carriage return and space. -/
def asciiSpace (char : Char) : Bool :=
  (9 ≤ char.toNat && char.toNat ≤ 13) || char.toNat = 32

/-- The arguments that repeat a flag for each value. -/
def repeated (flag : String) (values : List String) : List String :=
  values.flatMap fun value => [flag, value]

@[simp] theorem repeated_nil (flag : String) : repeated flag [] = [] := rfl

theorem repeated_length (flag : String) (values : List String) :
    (repeated flag values).length = 2 * values.length := by
  induction values with
  | nil => rfl
  | cons value rest ih =>
      change (flag :: value :: repeated flag rest).length = _
      simp only [List.length_cons, ih]
      omega

/-- The arguments of a flag whose value may be missing. -/
def flagged (flag : String) (value : Option Int) : List String :=
  (value.map fun value => [flag, toString value]).getD []

/-- The arguments of a text option, none where it is empty. -/
def texted (flag text : String) : List String := if text = "" then [] else [flag, text]

end AmberBackup
