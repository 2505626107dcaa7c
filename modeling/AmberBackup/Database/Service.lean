import AmberBackup.Database.Statements
import AmberBackup.Lib.Procedure
import AmberBackup.Targets.BackendRegistry

/-! # Services

A service call as one procedure over the database, the clock, the notifications that
were delivered and the calls it has started without awaiting them (`void this.f(…)`).
A started call runs when the caller's own work is done.
-/

namespace AmberBackup

open Relational

/-- `executeTakeFirst` of an inner join: the row a key refers to. -/
def joined {α β : Type} (first : Option α) (second : α → Option β) : Option (α × β) :=
  first.bind fun row => (second row).map fun other => (row, other)

/-- A message handed to a notification channel. -/
structure NotificationMessage where
  status : RunStatus
  title : String
  body : String
  jobName : String
  url : String
  /-- The labelled values the body lists. -/
  entries : List (String × String)
  deriving DecidableEq, Repr

structure Notification where
  channel : Uuid
  message : NotificationMessage
  deriving DecidableEq, Repr

/-- A call started without awaiting it. -/
inductive Detached where
  | refreshStats (repository : Uuid)
  | finalize (run : Uuid)
  deriving DecidableEq, Repr

/-- What a service call works on. -/
structure World where
  db : Db
  now : Nat
  detached : List Detached := []
  sent : List Notification := []

abbrev Service := Procedure World Failure

/-- Runs an update of `job_runs`. -/
def updateRuns (update : RunUpdate) : Service Unit :=
  .write fun world => { world with db := world.db.updateRuns world.now update }

/-- Runs an update of `job_runs` and returns whether it hit a row. -/
def updateRunsReturning (update : RunUpdate) : Service Bool := ⟨fun world =>
  (.ok !(world.db.runsHit update).isEmpty,
    { world with db := world.db.updateRuns world.now update })⟩

/-- Starts a call without awaiting it. -/
def detach (call : Detached) : Service Unit :=
  .write fun world => { world with detached := world.detached ++ [call] }

/-- A number above each of the listed ones. -/
def above : List Nat → Nat
  | [] => 0
  | number :: rest => max (number + 1) (above rest)

theorem lt_above {numbers : List Nat} {number : Nat} (member : number ∈ numbers) :
    number < above numbers := by
  induction numbers with
  | nil => cases member
  | cons head rest ih =>
      unfold above
      rcases List.mem_cons.mp member with same | listed
      · omega
      · have := ih listed
        omega

/-- An identifier no row of the table has, as the database generates it. -/
def freshId {ρ : Type} (table : Table Uuid ρ) : Uuid := above (table.rows.map Prod.fst)

theorem get?_freshId {ρ : Type} (table : Table Uuid ρ) : table.get? (freshId table) = none :=
  find_eq_none.mpr fun listed => Nat.lt_irrefl _ (lt_above listed)

/-- Inserts a run and returns its identifier. -/
def insertRun (row : JobRun) : Service Uuid := ⟨fun world =>
  (.ok (freshId world.db.jobRuns),
    { world with
      db := { world.db with
        jobRuns := world.db.jobRuns.insert (freshId world.db.jobRuns) row } })⟩

end AmberBackup
