import AmberBackup.GoAgent.Types
import Mathlib.Algebra.Group.Int.Defs
import Mathlib.Data.List.Infix

/-! # restic on the agent host

The command lines the agent runs, and what it reads off their output.
-/

namespace AmberBackup.GoAgent

def backupArgs (task : Task) : List String :=
  ["backup", "--json"] ++
    (match task.options with
    | none => []
    | some options =>
        repeated "--tag" options.tags ++
          repeated "--exclude" options.exclude ++
          repeated "--iexclude" options.iexclude ++
          (if options.oneFileSystem then ["--one-file-system"] else []) ++
          (if options.excludeCaches then ["--exclude-caches"] else []) ++
          texted "--exclude-larger-than" options.excludeLargerThan ++
          texted "--compression" options.compression ++
          (if options.readConcurrency > 0 then
            ["--read-concurrency", toString options.readConcurrency]
          else [])) ++
    ["--"] ++ task.paths

def forgetArgs (retention : Retention) : List String :=
  ["forget", "--json"] ++
    flagged "--keep-last" retention.keepLast ++
    flagged "--keep-hourly" retention.keepHourly ++
    flagged "--keep-daily" retention.keepDaily ++
    flagged "--keep-weekly" retention.keepWeekly ++
    flagged "--keep-monthly" retention.keepMonthly ++
    flagged "--keep-yearly" retention.keepYearly ++
    texted "--keep-within" retention.keepWithin ++
    repeated "--keep-tag" retention.keepTags

def restoreArgs (task : Task) : List String :=
  ["restore", "--json", "--target", task.targetPath] ++
    (match task.restoreOptions with
    | none => repeated "--include" task.includedPaths
    | some options =>
        repeated "--exclude" options.excludes ++
          texted "--overwrite" options.overwrite ++
          (if options.verify then ["--verify"] else []) ++
          (if options.delete then ["--delete"] else []) ++
          (if options.dryRun then ["--dry-run"] else []) ++
          repeated "--include"
            (if task.includedPaths = [] then options.includes else task.includedPaths)) ++
    ["--", task.snapshotId]

def checkArgs (task : Task) : List String :=
  if task.checkLevel = "full" then ["check", "--read-data"]
  else if task.checkLevel = "rotating" && task.checkSubset ≠ "" then
    ["check", "--read-data-subset=" ++ task.checkSubset]
  else ["check"]

def statsArgs : List String := ["stats", "--json", "--no-lock", "--mode", "raw-data"]

def hasRetention : Option Retention → Bool
  | none => false
  | some retention =>
      retention.keepLast.isSome || retention.keepHourly.isSome || retention.keepDaily.isSome ||
        retention.keepWeekly.isSome || retention.keepMonthly.isSome ||
        retention.keepYearly.isSome || retention.keepWithin ≠ "" || retention.keepTags ≠ []

/-- `unicode.IsSpace`. -/
def isSpace (char : Char) : Bool :=
  asciiSpace char || char.toNat = 0x85 || spaceSeparator char

/-- `strings.TrimSpace`. -/
def trimSpace (text : String) : String := trimWith isSpace text

/-- `unicode.ToLower`, as far as it yields letters of the alphabet. -/
def toLower (char : Char) : Char :=
  if char = 'İ' then 'i' else if char = 'K' then 'k' else char.toLower

/-- The output of a check that found errors, apart from one that could not run. -/
def isDamagedCheckOutput (output : String) : Bool :=
  decide ("repository contains errors".toList <:+: output.toList.map toLower)

/-- `int64(v)`: towards zero. What a number beyond the range becomes is up to the processor,
`beyond`. -/
def int64 (beyond : Rat → Int) (number : Rat) : Int :=
  let truncated := number.num.tdiv number.den
  if -2 ^ 63 ≤ truncated && truncated < 2 ^ 63 then truncated else beyond number

/-- The number in a field, 0 where there is none. -/
def number (message : Message) (name : String) : Rat :=
  match message.field name with
  | some (.number number) => number
  | _ => 0

def repoStatsFrom (beyond : Rat → Int) (message : Message) : RepoStats where
  sizeBytes := int64 beyond (number message "total_size")
  snapshotCount := int64 beyond (number message "snapshots_count")

end AmberBackup.GoAgent
