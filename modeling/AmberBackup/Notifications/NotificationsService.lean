import AmberBackup.Targets.TargetsService

/-! # Notifications of finished runs

A run that succeeded or failed is announced on the enabled channels its job names, when
the job wants that outcome announced. Any other run, or one whose outcome the job does
not want announced, is not (`notifyJobRun_quiet_iff`).
-/

namespace AmberBackup

open Relational

/-- Rounded seconds between two instants, none for a clock that went backwards. -/
def durationSeconds (startedAt finishedAt : Nat) : Nat := (finishedAt - startedAt + 500) / 1000

def durationEntry (startedAt finishedAt : Option Nat) : List (String × String) :=
  match startedAt, finishedAt with
  | some start, some finish =>
      [("Duration", toString (durationSeconds start finish) ++ "s")]
  | _, _ => []

def bodyText (entries : List (String × String)) : String :=
  String.intercalate "\n" (entries.map fun entry => entry.1 ++ ": " ++ entry.2)

/-- The error of a failed run, where it is recorded and not empty. -/
def errorEntry (ok : Bool) : Option String → List (String × String)
  | none => []
  | some error => if ok || error = "" then [] else [("Error", error)]

def baseUrl (platform : Platform) : String :=
  match platform.publicBaseUrl.toList.reverse with
  | '/' :: rest => String.ofList rest.reverse
  | _ => platform.publicBaseUrl

/-- Message for a finished backup or prune. -/
def buildMessage (platform : Platform) (run : JobRun) (jobName : String) :
    NotificationMessage :=
  let ok : Bool := run.status = .success
  let entries :=
    [("Job", jobName), ("Status", if ok then "Success" else "Failed")] ++
      durationEntry run.startedAt run.finishedAt ++
      (match run.snapshotId with
        | some snapshotId =>
            if ok && snapshotId ≠ "" then
              [("Snapshot", String.ofList (snapshotId.toList.take 8))]
            else []
        | none => []) ++
      (if 1 < run.attempt then [("Attempts", toString run.attempt)] else []) ++
      errorEntry ok run.error
  { status := run.status
    title := (if ok then "✅" else "❌") ++ " Backup " ++ (if ok then "succeeded" else "failed") ++
      ": " ++ jobName
    body := bodyText entries
    jobName
    url := baseUrl platform ++ "/#/jobs"
    entries }

def levelLabel : Option CheckInfo → String
  | none => "Quick (structure only)"
  | some info =>
      match info.level with
      | .full => "Full (all data read)"
      | .rotating =>
          let part := info.part.elim "undefined" toString
          let parts := info.parts.elim "undefined" toString
          "Rotating (data part " ++ part ++ "/" ++ parts ++ ")"
      | .quick => "Quick (structure only)"

/-- Message for a finished integrity check; damage is called out as such. -/
def buildCheckMessage (platform : Platform) (run : JobRun) (jobName : String) :
    NotificationMessage :=
  let ok : Bool := run.status = .success
  let damaged := !ok && run.checkInfo.any fun info => info.damaged = some true
  let entries :=
    [("Job", jobName),
      ("Result", if ok then "No errors found"
        else if damaged then "Repository damaged" else "Check could not complete"),
      ("Level", levelLabel run.checkInfo)] ++
      durationEntry run.startedAt run.finishedAt ++ errorEntry ok run.error
  { status := run.status
    title :=
      if ok then "✅ Integrity check passed: " ++ jobName
      else if damaged then "🚨 Repository damaged: " ++ jobName
      else "❌ Integrity check failed: " ++ jobName
    body := bodyText entries
    jobName
    url := baseUrl platform ++ "/#/snapshots"
    entries }

/-- The enabled channels among the listed ones, in the table's order. -/
def enabledChannels (db : Db) (channelIds : List Uuid) : List Uuid :=
  db.notificationChannels.keysWhere fun id channel => id ∈ channelIds && channel.enabled

/-- Whether the job wants this outcome announced. -/
def wanted (notify : JobNotifyConfig) : RunStatus → Bool
  | .success => notify.onSuccess
  | .failed => notify.onFailure
  | .queued | .running | .cancelled => false

/-- The channels a finished run is announced on. -/
def notifiedChannels (db : Db) (run : JobRun) (job : BackupJob) : List Uuid :=
  if wanted job.notify run.status then enabledChannels db job.notify.channelIds else []

/-- Announces a finished run on its job's channels; a delivery that fails is only
logged. -/
def notifyJobRun (platform : Platform) (id : Uuid) : Service Unit := do
  let world ← .read fun world => world
  match joined (world.db.jobRuns.get? id) fun run => world.db.backupJobs.get? run.jobId with
  | none => return
  | some (run, job) =>
      let message :=
        if run.kind = .check then buildCheckMessage platform run job.name
        else buildMessage platform run job.name
      .write fun after =>
        { after with
          sent := after.sent ++ (notifiedChannels world.db run job).map fun channel =>
            { channel, message } }

theorem joined_of {α β : Type} {first : Option α} {second : α → Option β} {row : α}
    {other : β} (found : first = some row) (joins : second row = some other) :
    joined first second = some (row, other) := by
  simp [joined, found, joins]

theorem of_joined {α β : Type} {first : Option α} {second : α → Option β} {row : α}
    {other : β} (found : joined first second = some (row, other)) :
    first = some row ∧ second row = some other := by
  unfold joined at found
  obtain ⟨head, present, joins⟩ := Option.bind_eq_some_iff.mp found
  obtain ⟨tail, second, same⟩ := Option.map_eq_some_iff.mp joins
  cases same
  exact ⟨present, second⟩

/-- A notification is sent exactly where the job wants the run's outcome announced and a
channel it names is enabled. -/
theorem notifyJobRun_quiet_iff {world : World} {id : Uuid} {run : JobRun} {job : BackupJob}
    (platform : Platform) (present : world.db.jobRuns.get? id = some run)
    (owner : world.db.backupJobs.get? run.jobId = some job) :
    ((notifyJobRun platform id).run world).2.sent = world.sent ↔
      notifiedChannels world.db run job = [] := by
  unfold notifyJobRun
  rw [Procedure.run_bind_read, joined_of present owner]
  simp

/-- Announcing a run writes nothing. -/
theorem notifyJobRun_db (platform : Platform) (id : Uuid) (world : World) :
    ((notifyJobRun platform id).run world).2.db = world.db := by
  unfold notifyJobRun
  rw [Procedure.run_bind_read]
  cases joined (world.db.jobRuns.get? id) fun run => world.db.backupJobs.get? run.jobId with
  | none => rfl
  | some found => rfl

end AmberBackup
