import AmberBackup.Jobs.IntegrityChecks
import AmberBackup.Lib.Pool
import AmberBackup.Server.Calls

/-! # Effects

The state of the running server and what one step of a call does to it. A step takes
place between two awaits of the call, so that the statement it executes and its access to
the maps of running calls are atomic.
-/

namespace AmberBackup

open Relational

/-- What restic reports when its process ends. -/
structure ChildExit where
  /-- `-1` for a process ended by a signal. -/
  code : Int
  stats : String := ""
  stderr : String := ""
  log : String := ""
  snapshotId : Option String := none
  /-- The output names integrity errors. -/
  errorsFound : Bool := false
  deriving DecidableEq

/-- The message of a restic command that failed. -/
def ChildExit.error (exit : ChildExit) (command : String) : String :=
  if exit.stderr = "" then "restic " ++ command ++ " exited " ++ toString exit.code
  else exit.stderr

/-- What an awaited operation outside the server's own state comes to. -/
inductive Outcome where
  /-- It returns; `text` is the text it yields, such as the log collected so far. -/
  | returns (text : String)
  | throws (error : String)
  /-- The restic process ends. -/
  | exits (exit : ChildExit)
  /-- The restic process or its reader reports figures. -/
  | reports (stats : String)
  | measures (reading : StatsReading)
  deriving DecidableEq

/-- What happens outside the tables, in the order it happens. -/
inductive Event where
  /-- Restic's main operation of a run starts on the server. -/
  | started (run : Uuid)
  /-- It ends other than by being killed. -/
  | finished (run : Uuid)
  /-- An agent claims a run and executes it from then on. -/
  | claimed (run agent : Uuid)
  /-- A cancel of the run answers `{cancelled: true}`. -/
  | cancelAnswered (run : Uuid)
  /-- A cancel settles a run that is still queued. -/
  | withdrawn (run : Uuid)
  /-- The sweep fails a run that was not picked up. -/
  | timedOut (run : Uuid)
  /-- A retry is queued that becomes due at the instant. -/
  | retryQueued (retry : Uuid) (dueAt : Nat)
  /-- A finished run is announced, with the outcome it had, on the channels. -/
  | notified (run : Uuid) (status : RunStatus) (channels : List Uuid)
  /-- A user's request creates a restore. -/
  | restoreCreated (restore : Uuid) (byAdmin : Bool)
  /-- A restore starts on the server, into the target path. -/
  | restoreStarted (restore : Uuid) (targetPath : String)
  /-- An agent claims a restore and executes it into the target path. -/
  | restoreClaimed (restore agent : Uuid) (targetPath : String)
  deriving DecidableEq

/-- One SQL statement. -/
inductive Statement where
  | nothing
  | updateRuns (update : RunUpdate)
  | insertRun (row : JobRun)
  | updateRestores (update : RestoreUpdate)
  | insertRestore (row : RestoreRun)
  | updateJob (job : Uuid) (patch : JobPatch)
  | patchRepository (repository : Uuid) (info : CheckInfo) (outcome : CheckOutcome)
  | recordStats (repository : Uuid) (reading : StatsReading)
  | clearRequests (agent : Uuid)
  | touchAgent (agent : Uuid) (change : Agent → Agent)

/-- Executes a statement. -/
def Statement.execute (now : Nat) (db : Db) : Statement → Db
  | .nothing => db
  | .updateRuns update => db.updateRuns now update
  | .insertRun row => { db with jobRuns := db.jobRuns.insert (freshId db.jobRuns) row }
  | .updateRestores update => db.updateRestores now update
  | .insertRestore row =>
      { db with restoreRuns := db.restoreRuns.insert (freshId db.restoreRuns) row }
  | .updateJob job patch =>
      { db with backupJobs := db.backupJobs.update (fun id _ => id = job) (patch.apply now) }
  | .patchRepository repository info outcome =>
      { db with
        repositories := db.repositories.update (fun id _ => id = repository)
          (repositoryPatch now info outcome) }
  | .recordStats repository reading =>
      match db.repositories.get? repository with
      | some row => db.withReading now repository row reading
      | none => db
  | .clearRequests agent =>
      { db with
        repositories := db.repositories.update (statsRequested db agent) fun row =>
          { row with statsRequestedAt := none } }
  | .touchAgent agent change =>
      { db with agents := db.agents.update (fun id _ => id = agent) change }

@[simp] theorem Statement.execute_nothing (now : Nat) (db : Db) :
    Statement.nothing.execute now db = db := rfl

/-- An access to the maps of running calls. The controller of a run is named by the call
that registered it. -/
inductive Access where
  | keep
  | register (runner : Runner) (run : Uuid)
  | unregister (runner : Runner) (run : Uuid)
  | abort (call : Nat)

/-- What one step of a call does. -/
structure Effect where
  next : Call
  statement : Statement := .nothing
  access : Access := .keep
  spawned : List Call := []
  events : List Event := []

/-- The call is the one that moved on, or one that it started. -/
def Effect.Leaves (effect : Effect) (call : Call) : Prop :=
  call = effect.next ∨ call ∈ effect.spawned

/-- The server's configuration. -/
structure Settings where
  runQueueTimeoutSeconds : Nat
  restoreTmpDir : String

/-- The state of the running server. -/
structure Server where
  db : Db
  now : Nat := 0
  /-- The calls in flight; a finished call keeps its place. -/
  calls : List Call := []
  /-- The maps `running` of the runners, by the call that registered. -/
  running : Runner → Uuid → Option Nat := fun _ _ => none
  /-- The abort controllers that were aborted, by the call that owns them. -/
  aborted : Nat → Bool := fun _ => false
  journal : List Event := []

/-- The controller of a call was aborted while its child listens, which kills the child.
A child spawned under an aborted signal is deaf to it. -/
def Server.killed (server : Server) (call : Nat) (deaf : Bool) : Bool :=
  server.aborted call && !deaf

/-- A killed child exits with a code other than 0 and 3. -/
def Server.mayExit (server : Server) (call : Nat) (deaf : Bool) (exit : ChildExit) : Bool :=
  !(server.killed call deaf && (exit.code = 0 || exit.code = 3))

/-- The maps after an access by a call. -/
def Access.running (call : Nat) (running : Runner → Uuid → Option Nat) :
    Access → Runner → Uuid → Option Nat
  | .register runner run => fun other id =>
      if other = runner ∧ id = run then some call else running other id
  | .unregister runner run => fun other id =>
      if other = runner ∧ id = run then none else running other id
  | .keep | .abort _ => running

def Access.aborted (aborted : Nat → Bool) : Access → Nat → Bool
  | .abort call => fun other => other = call || aborted other
  | .keep | .register .. | .unregister .. => aborted

/-- The server after a step of the call. -/
def Server.after (server : Server) (call : Nat) (effect : Effect) : Server where
  db := effect.statement.execute server.now server.db
  now := server.now
  calls := Pool.advance server.calls call effect.next effect.spawned
  running := effect.access.running call server.running
  aborted := effect.access.aborted server.aborted
  journal := server.journal ++ effect.events

end AmberBackup
