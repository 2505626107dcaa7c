import AmberBackup.Jobs.SchedulerService

/-! # Registered entries

What a registration leaves in the registry: under each of the job's names that is free the
entry its row asks for, and nothing else (`registerAll_apply`, `registerRows_apply`).
-/

namespace AmberBackup

open Relational

variable {runtime : CronRuntime} {timezone : String} {registry : CronRegistry}
  {name other : CronName} {cronExpr : String} {id : Uuid} {job : BackupJob} {asked : Option String}

/-- The entry an expression comes to, if it is accepted. -/
def entryFor (runtime : CronRuntime) (timezone : String) (asked : Option String) :
    Option CronEntry :=
  (asked.filter fun cronExpr => runtime.accepts cronExpr timezone).map fun cronExpr =>
    ⟨cronExpr, timezone⟩

def registerOptional (runtime : CronRuntime) (timezone : String) (registry : CronRegistry)
    (name : CronName) : Option String → CronRegistry
  | none => registry
  | some cronExpr => register runtime timezone registry name cronExpr

theorem registerOptional_self : registerOptional runtime timezone registry name asked name =
    (registry name).or (entryFor runtime timezone asked) := by
  cases asked with
  | none => exact (Option.or_none).symm
  | some cronExpr =>
      change register runtime timezone registry name cronExpr name = _
      rw [register, entryFor, Option.filter_some]
      cases taken : registry name with
      | some entry => simp [taken]
      | none => cases accepted : runtime.accepts cronExpr timezone <;> simp [taken]

theorem registerOptional_of_ne (different : other ≠ name) :
    registerOptional runtime timezone registry name asked other = registry other := by
  cases asked with
  | none => rfl
  | some cronExpr =>
      change register runtime timezone registry name cronExpr other = _
      unfold register
      split
      · exact Function.update_of_ne different _ _
      · rfl

theorem registerAll_eq (enabled : job.enabled = true) :
    registerAll runtime timezone registry id job =
      registerOptional runtime timezone
        (registerOptional runtime timezone registry (.backupJob id) (job.cronExpr? (.backupJob id)))
        (.checkJob id) (job.cronExpr? (.checkJob id)) := by
  have backup : job.cronExpr? (.backupJob id) = some job.cronExpr := if_pos enabled
  rw [backup]
  unfold registerAll BackupJob.cronExpr?
  simp only [enabled, Bool.true_and, decide_eq_true_eq]
  split
  case h_1 none => simp [none, registerOptional]
  case h_2 empty =>
    have blank : (some "").filter (fun expr : String => decide (expr ≠ "")) = none := rfl
    rw [empty, blank, ite_self]
    rfl
  case h_3 cronExpr nonempty asks =>
    rw [asks]
    split
    · rw [Option.filter_some, if_pos (by simpa using nonempty)]
      rfl
    · rfl

/-- A registration of a job adds what its row asks for under its free names. -/
theorem registerAll_apply (enabled : job.enabled = true) :
    registerAll runtime timezone registry id job name =
      if name.job = id then
        (registry name).or (entryFor runtime timezone (job.cronExpr? name))
      else registry name := by
  rw [registerAll_eq enabled]
  cases name with
  | backupJob key =>
      rw [registerOptional_of_ne (by simp)]
      by_cases same : key = id
      · subst same
        rw [registerOptional_self]
        exact (if_pos rfl).symm
      · rw [registerOptional_of_ne (by simpa using same)]
        exact (if_neg same).symm
  | checkJob key =>
      by_cases same : key = id
      · subst same
        rw [registerOptional_self, registerOptional_of_ne (by simp)]
        exact (if_pos rfl).symm
      · rw [registerOptional_of_ne (by simpa using same), registerOptional_of_ne (by simp)]
        exact (if_neg same).symm

/-- So does the registration of several jobs, each for its own names. -/
theorem registerRows_apply {rows : List (Uuid × BackupJob)}
    (enabled : ∀ entry ∈ rows, entry.2.enabled = true) (distinct : (rows.map Prod.fst).Nodup) :
    registerRows runtime timezone registry rows name =
      (registry name).or (entryFor runtime timezone
        ((find name.job rows).bind fun job => job.cronExpr? name)) := by
  induction rows generalizing registry with
  | nil => exact (Option.or_none).symm
  | cons entry rest ih =>
      obtain ⟨id, job⟩ := entry
      rw [List.map_cons, List.nodup_cons] at distinct
      have first : job.enabled = true := enabled (id, job) List.mem_cons_self
      rw [registerRows,
        ih (fun other member => enabled other (List.mem_cons_of_mem _ member)) distinct.2,
        registerAll_apply first]
      by_cases same : name.job = id
      · have absent : find name.job rest = none := find_eq_none.mpr (same ▸ distinct.1)
        have here : find name.job ((id, job) :: rest) = some job := by simp [find, same]
        rw [absent, here, if_pos same, Option.bind_none, Option.bind_some]
        exact Option.or_none
      · have later : find name.job ((id, job) :: rest) = find name.job rest :=
          if_neg fun equal => same equal.symm
        rw [later, if_neg same]

theorem unregister_apply : unregister registry id name =
    if name.job = id then none else registry name := by
  cases name with
  | backupJob key =>
      unfold unregister
      rw [Function.update_of_ne (by simp)]
      by_cases same : key = id
      · subst same
        rw [Function.update_self]
        exact (if_pos rfl).symm
      · rw [Function.update_of_ne (by simpa using same)]
        exact (if_neg same).symm
  | checkJob key =>
      unfold unregister
      by_cases same : key = id
      · subst same
        rw [Function.update_self]
        exact (if_pos rfl).symm
      · rw [Function.update_of_ne (by simpa using same), Function.update_of_ne (by simp)]
        exact (if_neg same).symm

theorem cronExpr?_of_disabled (disabled : job.enabled = false) : job.cronExpr? name = none := by
  cases name <;> simp [BackupJob.cronExpr?, disabled]

theorem registerRow_apply {row : Option BackupJob} :
    registerRow runtime timezone registry id row name =
      if name.job = id then
        (registry name).or (entryFor runtime timezone (row.bind fun job => job.cronExpr? name))
      else registry name := by
  have nothing : registry name =
      if name.job = id then (registry name).or (entryFor runtime timezone none)
      else registry name := by
    split
    · exact (Option.or_none).symm
    · rfl
  cases row with
  | none => exact nothing
  | some job =>
      rw [registerRow, Option.bind_some]
      split
      case isTrue enabled => exact registerAll_apply enabled
      case isFalse disabled =>
        rw [cronExpr?_of_disabled (by simpa using disabled)]
        exact nothing

end AmberBackup
