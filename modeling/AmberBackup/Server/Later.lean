import AmberBackup.Server.MoveCases

/-! # What no statement undoes

Runs are never deleted, their identity never changes, a run that has left the queue does
not come back to it, and one that is not queued keeps its agent. What is known of a run
and respects this order stays known (`Known.later`).
-/

namespace AmberBackup

open Relational

/-- A later state of a run. -/
structure JobRun.Later (before after : JobRun) : Prop where
  identity : before.SameIdentity after
  queued : after.status = .queued → before.status = .queued
  agentId : before.status ≠ .queued → after.agentId = before.agentId
  handed : before.agentId ≠ none → after.agentId ≠ none
  notBefore : after.notBefore = before.notBefore ∨ after.notBefore = none
  startedAt : before.startedAt ≠ none → after.startedAt ≠ none

theorem JobRun.Later.refl (row : JobRun) : row.Later row :=
  ⟨⟨rfl, rfl, rfl, rfl, rfl, rfl⟩, id, fun _ => rfl, id, Or.inl rfl, id⟩

theorem RunUpdate.set_later {db : Db} (now : Nat) {update : RunUpdate} {id : Uuid} {row : JobRun}
    (hit : update.hits db id row = true) : row.Later (update.set now row) where
  identity := update.set_identity now row
  queued := RunUpdate.set_queued hit
  agentId := by
    intro left
    cases update with
    | claim run agent =>
        simp only [RunUpdate.hits, Bool.and_eq_true, decide_eq_true_eq] at hit
        exact absurd hit.2 left
    | _ => rfl
  handed := by
    intro handed
    rcases update.set_agentId now row with same | ⟨_, agent, -, given⟩
    · exact same ▸ handed
    · simp [given]
  notBefore := by
    rcases update.set_notBefore now row with same | ⟨asOf, same⟩
    · exact Or.inl same
    · subst same
      exact Or.inr rfl
  startedAt := by
    intro started
    cases update with
    | openLocal | claim => simp [RunUpdate.set]
    | _ => exact started

/-- Every run of the database is still there, in a later state. -/
def Db.Later (before after : Db) : Prop :=
  ∀ id row, before.jobRuns.get? id = some row →
    ∃ row', after.jobRuns.get? id = some row' ∧ row.Later row'

theorem Db.Later.refl (db : Db) : db.Later db :=
  fun _ row present => ⟨row, present, .refl row⟩

theorem Db.updateRuns_later (db : Db) (now : Nat) (update : RunUpdate) :
    db.Later (db.updateRuns now update) := by
  intro id row present
  refine ⟨_, by rw [db.get?_updateRuns, present]; rfl, ?_⟩
  dsimp only
  split
  case isTrue hit => exact RunUpdate.set_later now hit
  case isFalse => exact .refl row

/-- A passive statement changes nothing about a run but its figures. -/
theorem Statement.passive_runs {statement : Statement} (passive : statement.passive = true)
    (now : Nat) (db : Db) (id : Uuid) :
    ∃ stats : Uuid → JobRun → Option String,
      (statement.execute now db).jobRuns.get? id =
        (db.jobRuns.get? id).map fun row => { row with stats := stats id row } := by
  have same : ∀ found : Option JobRun,
      found = found.map fun row => { row with stats := row.stats } := by
    intro found
    cases found <;> rfl
  cases statement with
  | updateRuns update =>
      refine ⟨fun id row => if update.hits db id row then (update.set now row).stats
        else row.stats, ?_⟩
      change (db.updateRuns now update).jobRuns.get? id = _
      rw [db.get?_updateRuns]
      cases found : db.jobRuns.get? id with
      | none => rfl
      | some row =>
          simp only [Option.map_some, Option.some.injEq]
          cases update with
          | writeStats | backupProgress => split <;> rfl
          | _ => cases passive
  | recordStats repository reading =>
      refine ⟨fun _ row => row.stats, ?_⟩
      unfold Statement.execute
      dsimp only
      split <;> exact same _
  | insertRun | updateJob => cases passive
  | _ => exact ⟨fun _ row => row.stats, same _⟩

/-- A passive statement leaves the jobs and the channels as they are. -/
theorem Statement.passive_jobs {statement : Statement} (passive : statement.passive = true)
    (now : Nat) (db : Db) :
    (statement.execute now db).backupJobs = db.backupJobs ∧
      (statement.execute now db).notificationChannels = db.notificationChannels := by
  cases statement with
  | recordStats repository reading =>
      unfold Statement.execute
      dsimp only
      split <;> exact ⟨rfl, rfl⟩
  | insertRun | updateJob => cases passive
  | _ => exact ⟨rfl, rfl⟩

theorem JobRun.later_stats (row : JobRun) (stats : Option String) :
    row.Later { row with stats } :=
  ⟨⟨rfl, rfl, rfl, rfl, rfl, rfl⟩, id, fun _ => rfl, id, Or.inl rfl, id⟩

theorem Statement.execute_later (statement : Statement) (now : Nat) (db : Db) :
    db.Later (statement.execute now db) := by
  by_cases passive : statement.passive = true
  · intro id row present
    obtain ⟨stats, after⟩ := Statement.passive_runs passive now db id
    rw [present] at after
    exact ⟨_, after, row.later_stats _⟩
  · cases statement with
    | updateRuns update => exact db.updateRuns_later now update
    | insertRun inserted =>
        intro id row present
        exact ⟨row, Table.get?_insert_of_some present inserted, .refl row⟩
    | updateJob => exact .refl db
    | _ => exact absurd rfl passive

/-- A run of which a fact holds. -/
def Known (db : Db) (run : Uuid) (fact : JobRun → Prop) : Prop :=
  ∃ row, db.jobRuns.get? run = some row ∧ fact row

/-- A fact that a later state of a run keeps. -/
def Stable (fact : JobRun → Prop) : Prop :=
  ∀ before after : JobRun, before.Later after → fact before → fact after

theorem Known.later {before after : Db} {run : Uuid} {fact : JobRun → Prop}
    (known : Known before run fact) (later : before.Later after) (stable : Stable fact) :
    Known after run fact := by
  obtain ⟨row, present, holds⟩ := known
  obtain ⟨row', found, grown⟩ := later run row present
  exact ⟨row', found, stable row row' grown holds⟩

theorem Known.weaken {db : Db} {run : Uuid} {fact other : JobRun → Prop}
    (known : Known db run fact) (implies : ∀ row, fact row → other row) : Known db run other := by
  obtain ⟨row, present, holds⟩ := known
  exact ⟨row, present, implies row holds⟩

/-- What is known of a run holds of its row. -/
theorem Known.row {db : Db} {run : Uuid} {fact : JobRun → Prop} {row : JobRun}
    (known : Known db run fact) (present : db.jobRuns.get? run = some row) : fact row := by
  obtain ⟨other, found, holds⟩ := known
  rw [present] at found
  cases found
  exact holds

theorem Known.ne_fresh {db : Db} {run : Uuid} {fact : JobRun → Prop}
    (known : Known db run fact) : run ≠ freshId db.jobRuns := by
  rintro rfl
  obtain ⟨row, present, -⟩ := known
  rw [get?_freshId] at present
  cases present

theorem Known.inserted {db : Db} {row : JobRun} {now : Nat} {fact : JobRun → Prop}
    (holds : fact row) :
    Known ((Statement.insertRun row).execute now db) (freshId db.jobRuns) fact :=
  ⟨row, Table.get?_insert_self (get?_freshId _), holds⟩

theorem stable_kind (kind : RunKind) : Stable fun row => row.kind = kind :=
  fun _ _ later same => later.identity.kind.trans same

theorem stable_left : Stable fun row => row.status ≠ .queued :=
  fun _ _ later left same => left (later.queued same)

theorem stable_started : Stable fun row => row.startedAt ≠ none :=
  fun _ _ later => later.startedAt

theorem stable_handed : Stable fun row => row.agentId ≠ none :=
  fun _ _ later => later.handed

/-- A run that left the queue without an agent stays without one. -/
theorem stable_kept : Stable fun row => row.status ≠ .queued ∧ row.agentId = none :=
  fun before _ later kept =>
    ⟨stable_left before _ later kept.1, (later.agentId kept.1).trans kept.2⟩

theorem Stable.and {fact other : JobRun → Prop} (first : Stable fact) (second : Stable other) :
    Stable fun row => fact row ∧ other row :=
  fun before after later holds =>
    ⟨first before after later holds.1, second before after later holds.2⟩

theorem Stable.imp {condition : Prop} {fact : JobRun → Prop} (stable : Stable fact) :
    Stable fun row => condition → fact row :=
  fun before after later holds given => stable before after later (holds given)

end AmberBackup
