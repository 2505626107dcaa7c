import AmberBackup.Restic.Host
import AmberBackup.Lib.Procedure

/-! # restic on the server

The restic operations a local backup is made of, with their command lines. Each runs on
the host that executes the job and throws the error of a command that fails; what has run
before stays on the list of commands.
-/

namespace AmberBackup

/-- An execution on the server: the commands run so far, and the error it throws. -/
abbrev Local := Procedure (List Command) String

def execute (command : Command) : Local Unit := .write (· ++ [command])

/-- White space at the ends of a text, as `trim` removes it. -/
def jsTrim (text : String) : String :=
  trimWith (fun char => asciiSpace char || char.toNat = 0xFEFF || spaceSeparator char) text

namespace ResticService

/-- Runs restic: its exit code, unless the process cannot be run. -/
def run (host : Host) (step : ResticStep) (args : List String) : Local Int := do
  execute (.restic args)
  match (host.restic step).ending with
  | .ok code => return code
  | .error err => .raise err

/-- The error of a command that failed, by what it printed. -/
def failure (run : ResticRun) (otherwise : String) : String :=
  if jsTrim run.stderr = "" then otherwise else jsTrim run.stderr

def ensureInitialized (host : Host) : Local Unit := do
  let cat ← run host .catConfig ["cat", "config"]
  if cat = 0 then return ()
  else
    let init ← run host .init ["init"]
    if init = 0 then return ()
    else .raise ("restic init failed: " ++ jsTrim (host.restic .init).stderr)

def compressionText : Compression → String
  | .auto => "auto"
  | .max => "max"
  | .off => "off"

def backupArgs (paths : List String) (options : ResticOptions) : List String :=
  ["backup", "--json"] ++
    repeated "--tag" (options.tags.getD []) ++
    repeated "--exclude" (options.exclude.getD []) ++
    repeated "--iexclude" (options.iexclude.getD []) ++
    repeated "--exclude-file" (options.excludeFile.getD []) ++
    (if options.oneFileSystem = some true then ["--one-file-system"] else []) ++
    (if options.excludeCaches = some true then ["--exclude-caches"] else []) ++
    texted "--exclude-larger-than" (options.excludeLargerThan.getD "") ++
    ((options.compression.map fun mode => ["--compression", compressionText mode]).getD []) ++
    (if options.readConcurrency.getD 0 ≠ 0 then
      ["--read-concurrency", toString (options.readConcurrency.getD 0)]
    else []) ++
    "--" :: paths

/-- The snapshot of the last summary. -/
def snapshotId (messages : List Message) : Option String :=
  let summaries := messages.filter fun message =>
    match message.field "message_type" with
    | some (.text text) => text = "summary"
    | _ => false
  match summaries.getLast?.bind fun message => message.field "snapshot_id" with
  | some (.text text) => some text
  | _ => none

/-- Exit code 3 means that some files could not be read; there is a snapshot all the same. -/
def backup (host : Host) (paths : List String) (options : ResticOptions) :
    Local (Option String) := do
  let code ← run host .backup (backupArgs paths options)
  if code = 0 || code = 3 then return snapshotId (host.restic .backup).messages
  else .raise (failure (host.restic .backup) ("restic backup exited " ++ toString code))

def forgetArgs (retention : Retention) : List String :=
  ["forget", "--json"] ++
    flagged "--keep-last" retention.keepLast ++
    flagged "--keep-hourly" retention.keepHourly ++
    flagged "--keep-daily" retention.keepDaily ++
    flagged "--keep-weekly" retention.keepWeekly ++
    flagged "--keep-monthly" retention.keepMonthly ++
    flagged "--keep-yearly" retention.keepYearly ++
    texted "--keep-within" (retention.keepWithin.getD "") ++
    repeated "--keep-tag" (retention.keepTags.getD []) ++
    (if retention.prune = some true then ["--prune"] else [])

def forget (host : Host) (retention : Retention) : Local Unit := do
  let code ← run host .forget (forgetArgs retention)
  if code = 0 then return ()
  else .raise (failure (host.restic .forget) "restic forget failed")

def prune (host : Host) : Local Unit := do
  let code ← run host .prune ["prune"]
  if code = 0 then return ()
  else .raise (failure (host.restic .prune) ("restic prune exited " ++ toString code))

end ResticService

end AmberBackup
