import AmberBackup.Targets.TargetsService

/-! # Repository figures

A reading of a repository's size and number of snapshots is cached on the repository
and appended to its history when the figures changed. A repository whose job runs on
an agent is not read by the server: the refresh is requested, and the agent's next poll
claims the request. Recording a reading leaves a repository and its history as they
were exactly when the reading repeats what is cached (`withReading_eq_self_iff`).
-/

namespace AmberBackup

open Relational

/-- Figures read by restic, on the server or on an agent, or why that failed. -/
inductive StatsReading where
  | figures (sizeBytes : Option Nat) (snapshotCount : Nat)
  | failed (reason : String)
  deriving DecidableEq, Repr

def Failure.message : Failure → String
  | .notFound message | .forbidden message | .badRequest message | .unauthorized message
  | .conflict message | .error message => message

/-- Writes a repository's row. -/
def updateRepository (id : Uuid) (change : Repository → Repository) : Service Unit :=
  .write fun world =>
    { world with
      db := { world.db with
        repositories := world.db.repositories.update (fun other _ => other = id) change } }

/-- The cached figures a reading is written as. -/
def StatsReading.apply (now : Nat) : StatsReading → Repository → Repository
  | .failed reason, repository => { repository with statsError := some reason }
  | .figures sizeBytes snapshotCount, repository =>
      { repository with
        sizeBytes, snapshotCount := some snapshotCount, statsAt := some now, statsError := none }

/-- What a reading appends to the history: the figures, when they changed. An unread
size counts as zero in the comparison. -/
def StatsReading.history (id : Uuid) (now : Nat) (repository : Repository) :
    StatsReading → List RepositoryStatsHistory
  | .failed _ => []
  | .figures none _ => []
  | .figures (some size) snapshotCount =>
      if repository.statsAt = none ∨ repository.sizeBytes.getD 0 ≠ size ∨
          repository.snapshotCount ≠ some snapshotCount then
        [{ repositoryId := id, measuredAt := now, sizeBytes := size, snapshotCount }]
      else []

/-- Caches a reading on the repository, wherever restic ran. -/
def recordStats (id : Uuid) (reading : StatsReading) : Service Unit := do
  let world ← .read fun world => world
  match world.db.repositories.get? id with
  | none => .raise (.notFound "Repository not found")
  | some repository =>
      updateRepository id (reading.apply world.now)
      .write fun after =>
        { after with
          db := { after.db with
            repositoryStatsHistory := after.db.repositoryStatsHistory ++
              reading.history id world.now repository } }

/-- What the server reads of a repository itself; a failure to resolve it is a failed
reading. -/
def readFigures (platform : Platform) (db : Db) (repository : Repository) : StatsReading :=
  match resolveRepo platform db repository.ref with
  | .error failure => .failed failure.message
  | .ok resolved =>
      match platform.readFigures resolved.repository with
      | .error reason => .failed reason
      | .ok (sizeBytes, snapshotCount) => .figures sizeBytes snapshotCount

/-- Reads a repository's figures on the server and caches them. -/
def refreshStats (platform : Platform) (id : Uuid) : Service Unit := do
  let world ← .read fun world => world
  match world.db.repositories.get? id with
  | none => .raise (.notFound "Repository not found")
  | some repository => recordStats id (readFigures platform world.db repository)

def refreshStatsInBackground (id : Uuid) : Service Unit := detach (.refreshStats id)

/-- The repositories with a pending refresh whose job runs on the agent. -/
def statsRequested (db : Db) (agent : Uuid) (id : Uuid) (repository : Repository) : Bool :=
  repository.statsRequestedAt.isSome &&
    db.backupJobs.anyWhere fun _ job => job.repositoryId = id && job.agentId = some agent

/-- The repositories whose refresh the agent's poll claims. -/
def requestedStats (db : Db) (agent : Uuid) : List (Uuid × RepositoryRef) :=
  (db.repositories.keysWhere (statsRequested db agent)).filterMap fun id =>
    (db.repositories.get? id).map fun repository => (id, repository.ref)

/-- The world after the agent's refresh requests are cleared. -/
def World.clearedRequests (world : World) (agent : Uuid) : World :=
  { world with
    db := { world.db with
      repositories := world.db.repositories.update (statsRequested world.db agent) fun row =>
        { row with statsRequestedAt := none } } }

/-- Clears the pending refresh requests of an agent's repositories in one statement and
returns the repositories. -/
def claimStatsRequests (agent : Uuid) : Service (List (Uuid × RepositoryRef)) := ⟨fun world =>
  (.ok (requestedStats world.db agent), world.clearedRequests agent)⟩

/-- A reading that repeats what is cached: the same error, or the same figures read at
the same instant without an error. -/
def StatsReading.quiet (now : Nat) (repository : Repository) : StatsReading → Prop
  | .failed reason => repository.statsError = some reason
  | .figures sizeBytes snapshotCount =>
      repository.sizeBytes = sizeBytes ∧ repository.snapshotCount = some snapshotCount ∧
        repository.statsAt = some now ∧ repository.statsError = none

instance (now : Nat) (repository : Repository) (reading : StatsReading) :
    Decidable (reading.quiet now repository) := by
  cases reading <;> unfold StatsReading.quiet <;> infer_instance

theorem StatsReading.apply_eq_self_iff (now : Nat) (repository : Repository)
    (reading : StatsReading) :
    reading.apply now repository = repository ↔ reading.quiet now repository := by
  cases reading with
  | failed reason =>
      refine ⟨fun same => (congrArg Repository.statsError same).symm, fun recorded => ?_⟩
      cases repository
      cases recorded
      rfl
  | figures size count =>
      constructor
      · intro same
        exact ⟨(congrArg Repository.sizeBytes same).symm,
          (congrArg Repository.snapshotCount same).symm,
          (congrArg Repository.statsAt same).symm, (congrArg Repository.statsError same).symm⟩
      · rintro ⟨bytes, snapshots, read, healthy⟩
        cases repository
        cases bytes
        cases snapshots
        cases read
        cases healthy
        rfl

theorem StatsReading.history_of_quiet {id : Uuid} {now : Nat} {repository : Repository}
    {reading : StatsReading} (same : reading.quiet now repository) :
    reading.history id now repository = [] := by
  cases reading with
  | failed => rfl
  | figures sizeBytes snapshotCount =>
      obtain ⟨size, count, read, -⟩ := same
      cases sizeBytes with
      | none => rfl
      | some bytes => simp [history, size, count, read]

/-- The database with a reading cached on the repository. -/
def Db.withReading (db : Db) (now : Nat) (id : Uuid) (repository : Repository)
    (reading : StatsReading) : Db :=
  { db with
    repositories := db.repositories.update (fun other _ => other = id) (reading.apply now)
    repositoryStatsHistory := db.repositoryStatsHistory ++ reading.history id now repository }

section Recorded

variable {world : World} {id : Uuid} {repository : Repository}

theorem recordStats_run (present : world.db.repositories.get? id = some repository)
    (reading : StatsReading) :
    (recordStats id reading).run world =
      (.ok (), { world with db := world.db.withReading world.now id repository reading }) := by
  unfold recordStats
  rw [Procedure.run_bind_read]
  simp only [present]
  rfl

theorem refreshStats_run (platform : Platform)
    (present : world.db.repositories.get? id = some repository) :
    (refreshStats platform id).run world =
      (.ok (), { world with
        db := world.db.withReading world.now id repository
          (readFigures platform world.db repository) }) := by
  unfold refreshStats
  rw [Procedure.run_bind_read]
  simp only [present]
  exact recordStats_run present _

/-- Recording a reading writes to the repositories and their history only. -/
theorem recordStats_runs (id : Uuid) (reading : StatsReading) (world : World) :
    ((recordStats id reading).run world).2.db.jobRuns = world.db.jobRuns := by
  cases present : world.db.repositories.get? id with
  | none =>
      unfold recordStats
      rw [Procedure.run_bind_read]
      simp only [present]
      rfl
  | some repository => rw [recordStats_run present]; rfl

theorem refreshStats_runs (platform : Platform) (id : Uuid) (world : World) :
    ((refreshStats platform id).run world).2.db.jobRuns = world.db.jobRuns := by
  unfold refreshStats
  rw [Procedure.run_bind_read]
  cases world.db.repositories.get? id with
  | none => rfl
  | some repository => exact recordStats_runs id _ world

/-- Recording a reading keeps the database exactly when it repeats what is cached. -/
theorem withReading_eq_self_iff {db : Db}
    (present : db.repositories.get? id = some repository) (now : Nat) (reading : StatsReading) :
    db.withReading now id repository reading = db ↔ reading.quiet now repository := by
  constructor
  · intro unchanged
    have kept : db.repositories.update (fun other _ => other = id) (reading.apply now) =
        db.repositories := congrArg Db.repositories unchanged
    have same := Table.update_eq_self_iff.mp kept id repository present (by simp)
    exact (reading.apply_eq_self_iff now repository).mp same
  · intro quiet
    have kept : db.repositories.update (fun other _ => other = id) (reading.apply now) =
        db.repositories := by
      refine Table.update_eq_self_iff.mpr ?_
      intro other row listed hits
      simp only [decide_eq_true_eq] at hits
      subst hits
      rw [present] at listed
      cases listed
      exact (reading.apply_eq_self_iff now repository).mpr quiet
    unfold Db.withReading
    rw [kept, StatsReading.history_of_quiet quiet, List.append_nil]

end Recorded

theorem requestedStats_ids (db : Db) (agent : Uuid) :
    (requestedStats db agent).map Prod.fst = db.repositories.keysWhere (statsRequested db agent) := by
  have each : ∀ ids : List Uuid, (∀ id ∈ ids, db.repositories.get? id ≠ none) →
      (ids.filterMap fun id =>
        (db.repositories.get? id).map fun repository => (id, repository.ref)).map Prod.fst =
          ids := by
    intro ids present
    induction ids with
    | nil => rfl
    | cons id rest ih =>
        obtain ⟨row, found⟩ := Option.ne_none_iff_exists'.mp (present id List.mem_cons_self)
        rw [List.filterMap_cons, found]
        simp only [Option.map_some, List.map_cons, List.cons.injEq, true_and]
        exact ih fun other member => present other (List.mem_cons_of_mem _ member)
  refine each _ fun id member => ?_
  obtain ⟨row, found, -⟩ := Table.mem_keysWhere.mp member
  simp [found]

end AmberBackup
