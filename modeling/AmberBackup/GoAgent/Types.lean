import AmberBackup.Agents.Poll
import AmberBackup.Restic.Host

/-! # Wire types of the agent

A task as the agent reads it and a result as it posts it. The agent's records have the
zero value of a field where the JSON text leaves it out, and the results leave out the
fields that hold theirs.
-/

namespace AmberBackup.GoAgent

structure Retention where
  keepLast : Option Int := none
  keepHourly : Option Int := none
  keepDaily : Option Int := none
  keepWeekly : Option Int := none
  keepMonthly : Option Int := none
  keepYearly : Option Int := none
  keepWithin : String := ""
  keepTags : List String := []
  prune : Bool := false
  deriving DecidableEq, Repr

structure ResticOptions where
  tags : List String := []
  exclude : List String := []
  iexclude : List String := []
  excludeFile : List String := []
  oneFileSystem : Bool := false
  excludeCaches : Bool := false
  excludeLargerThan : String := ""
  compression : String := ""
  readConcurrency : Int := 0
  retention : Option Retention := none
  preScript : String := ""
  postSuccessScript : String := ""
  postFailureScript : String := ""
  deriving DecidableEq, Repr

structure RestoreOptions where
  overwrite : String := ""
  verify : Bool := false
  delete : Bool := false
  dryRun : Bool := false
  includes : List String := []
  excludes : List String := []
  deriving DecidableEq, Repr

/-- The part of a task that its execution reads once restic's environment is prepared. -/
structure Task where
  type : TaskType
  taskId : Uuid
  jobId : Option Uuid := none
  jobName : String := ""
  paths : List String := []
  options : Option ResticOptions := none
  snapshotId : String := ""
  targetPath : String := ""
  includedPaths : List String := []
  restoreOptions : Option RestoreOptions := none
  checkLevel : String := ""
  checkSubset : String := ""
  deriving DecidableEq, Repr

structure RepoStats where
  sizeBytes : Int
  snapshotCount : Int
  deriving DecidableEq, Repr

structure PruneResult where
  status : String
  startedAt : String
  finishedAt : String
  error : String := ""
  log : String := ""
  deriving DecidableEq, Repr

structure TaskResult where
  status : String
  snapshotId : String := ""
  stats : List (String × Json) := []
  prune : Option PruneResult := none
  damaged : Bool := false
  repoStats : Option RepoStats := none
  repoStatsError : String := ""
  error : String := ""
  log : String := ""

/-! ## Tasks as the agent decodes them -/

def Retention.received (retention : AmberBackup.Retention) : Retention where
  keepLast := retention.keepLast
  keepHourly := retention.keepHourly
  keepDaily := retention.keepDaily
  keepWeekly := retention.keepWeekly
  keepMonthly := retention.keepMonthly
  keepYearly := retention.keepYearly
  keepWithin := retention.keepWithin.getD ""
  keepTags := retention.keepTags.getD []
  prune := retention.prune.getD false

/-- A compression mode as its JSON text. -/
def compressionText : Compression → String
  | .auto => "auto"
  | .max => "max"
  | .off => "off"

def ResticOptions.received (options : AmberBackup.ResticOptions) : ResticOptions where
  tags := options.tags.getD []
  exclude := options.exclude.getD []
  iexclude := options.iexclude.getD []
  excludeFile := options.excludeFile.getD []
  oneFileSystem := options.oneFileSystem.getD false
  excludeCaches := options.excludeCaches.getD false
  excludeLargerThan := options.excludeLargerThan.getD ""
  compression := (options.compression.map compressionText).getD ""
  readConcurrency := options.readConcurrency.getD 0
  retention := options.retention.map Retention.received
  preScript := options.preScript.getD ""
  postSuccessScript := options.postSuccessScript.getD ""
  postFailureScript := options.postFailureScript.getD ""

def RestoreOptions.received (options : AmberBackup.RestoreOptions) : RestoreOptions where
  overwrite := options.overwrite.getD ""
  verify := options.verify.getD false
  delete := options.delete.getD false
  dryRun := options.dryRun.getD false
  includes := options.includes.getD []
  excludes := options.excludes.getD []

/-- An integrity check level as its JSON text. -/
def levelText : IntegrityLevel → String
  | .quick => "quick"
  | .rotating => "rotating"
  | .full => "full"

def Task.received (task : AgentTask) : Task where
  type := task.type
  taskId := task.taskId
  jobId := task.jobId
  jobName := task.jobName.getD ""
  paths := task.paths.getD []
  options := task.options.map ResticOptions.received
  snapshotId := task.snapshotId.getD ""
  targetPath := task.targetPath.getD ""
  includedPaths := task.includedPaths.getD []
  restoreOptions := task.restoreOptions.map RestoreOptions.received
  checkLevel := (task.checkLevel.map levelText).getD ""
  checkSubset := task.checkSubset.getD ""

end AmberBackup.GoAgent
