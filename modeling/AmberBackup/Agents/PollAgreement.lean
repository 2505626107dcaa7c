import AmberBackup.Agents.PollClaims

/-! # Polls and their responses

What the four loops of a poll claim is accumulated in one record of the rows changed
(`Claimed`). A poll that returns hands over exactly those rows; a poll that throws has
always claimed one before, which it leaves behind. So a poll and its response agree exactly
when every waiting task resolves (`poll_agrees_iff`).
-/

namespace AmberBackup

open Relational

/-- What the claims of a poll have done to the rows it claimed, and to no other. -/
structure Claimed (agent now : Nat) (before after : Db) (runs restores requests : List Uuid) :
    Prop where
  runs : ∀ id, after.jobRuns.get? id = (before.jobRuns.get? id).map fun row =>
    if id ∈ runs ∧ row.status = .queued then RunUpdate.set now (.claim id agent) row else row
  restores : ∀ id, after.restoreRuns.get? id = (before.restoreRuns.get? id).map fun row =>
    if id ∈ restores ∧ row.status = .queued then RestoreUpdate.set now (.claim id) row else row
  requests : ∀ id, after.repositories.get? id = (before.repositories.get? id).map fun row =>
    if id ∈ requests then { row with statsRequestedAt := none } else row

namespace Claimed

variable {agent now : Nat} {before after : Db} {runs restores requests : List Uuid}

theorem movedRun_iff (claimed : Claimed agent now before after runs restores requests)
    (id : Uuid) : MovedRun before after id ↔
      id ∈ runs ∧ ∃ row, before.jobRuns.get? id = some row ∧ row.status = .queued := by
  constructor
  · rintro ⟨⟨row, present, queued⟩, changed, reached, running⟩
    rw [claimed.runs id, present] at reached
    by_cases listed : id ∈ runs
    · exact ⟨listed, row, present, queued⟩
    · simp only [listed, false_and, ↓reduceIte, Option.map_some, Option.some.injEq] at reached
      rw [← reached, queued] at running
      cases running
  · rintro ⟨listed, row, present, queued⟩
    refine ⟨⟨row, present, queued⟩, _, by rw [claimed.runs id, present]; rfl, ?_⟩
    simp [listed, queued, RunUpdate.set]

theorem movedRestore_iff (claimed : Claimed agent now before after runs restores requests)
    (id : Uuid) : MovedRestore before after id ↔
      id ∈ restores ∧ ∃ row, before.restoreRuns.get? id = some row ∧ row.status = .queued := by
  constructor
  · rintro ⟨⟨row, present, queued⟩, changed, reached, running⟩
    rw [claimed.restores id, present] at reached
    by_cases listed : id ∈ restores
    · exact ⟨listed, row, present, queued⟩
    · simp only [listed, false_and, ↓reduceIte, Option.map_some, Option.some.injEq] at reached
      rw [← reached, queued] at running
      cases running
  · rintro ⟨listed, row, present, queued⟩
    refine ⟨⟨row, present, queued⟩, _, by rw [claimed.restores id, present]; rfl, ?_⟩
    simp [listed, queued, RestoreUpdate.set]

theorem clearedRequest_iff (claimed : Claimed agent now before after runs restores requests)
    (id : Uuid) : ClearedRequest before after id ↔
      id ∈ requests ∧
        ∃ row, before.repositories.get? id = some row ∧ row.statsRequestedAt ≠ none := by
  constructor
  · rintro ⟨⟨row, present, requested⟩, changed, reached, cleared⟩
    rw [claimed.requests id, present] at reached
    by_cases listed : id ∈ requests
    · exact ⟨listed, row, present, requested⟩
    · simp only [listed, ↓reduceIte, Option.map_some, Option.some.injEq] at reached
      rw [← reached] at cleared
      exact absurd cleared requested
  · rintro ⟨listed, row, present, requested⟩
    refine ⟨⟨row, present, requested⟩, _, by rw [claimed.requests id, present]; rfl, ?_⟩
    simp [listed]

/-- A poll that throws after it has claimed a waiting row does not agree with its empty
hands. -/
theorem not_agrees_nil (claimed : Claimed agent now before after runs restores requests)
    (leftover : (∃ id ∈ runs, ∃ row, before.jobRuns.get? id = some row ∧ row.status = .queued) ∨
      (∃ id ∈ restores,
        ∃ row, before.restoreRuns.get? id = some row ∧ row.status = .queued) ∨
      ∃ id ∈ requests,
        ∃ row, before.repositories.get? id = some row ∧ row.statsRequestedAt ≠ none) :
    ¬ Agrees before after [] := by
  intro agrees
  rcases leftover with ⟨id, listed, row⟩ | ⟨id, listed, row⟩ | ⟨id, listed, row⟩
  · obtain ⟨task, member, -⟩ :=
      (agrees.runs id).mp ((claimed.movedRun_iff id).mpr ⟨listed, row⟩)
    cases member
  · obtain ⟨task, member, -⟩ :=
      (agrees.restores id).mp ((claimed.movedRestore_iff id).mpr ⟨listed, row⟩)
    cases member
  · obtain ⟨task, member, -⟩ :=
      (agrees.requests id).mp ((claimed.clearedRequest_iff id).mpr ⟨listed, row⟩)
    cases member

theorem nothing {db : Db} (agents : Table Uuid Agent) :
    Claimed agent now db { db with agents } [] [] [] where
  runs id := by simp
  restores id := by simp
  requests id := by simp

/-- Claiming more runs. -/
theorem more_runs {world : World} (ids : List Uuid)
    (claimed : Claimed agent world.now before world.db runs restores requests) :
    Claimed agent world.now before (world.claimedAll agent ids).db (runs ++ ids) restores
      requests where
  runs id := by
    rw [get?_claimedAll, claimed.runs id, Option.map_map]
    congr 1
    funext row
    by_cases queued : row.status = .queued
    · by_cases first : id ∈ runs <;> by_cases second : id ∈ ids <;>
        simp [queued, first, second, RunUpdate.set]
    · simp [queued]
  restores id := by
    rw [claimedAll_frame]
    exact claimed.restores id
  requests id := by
    rw [claimedAll_frame]
    exact claimed.requests id

/-- Claiming more restores. -/
theorem more_restores {world : World} (ids : List Uuid)
    (claimed : Claimed agent world.now before world.db runs restores requests) :
    Claimed agent world.now before (ids.foldl World.claimedRestore world).db runs
      (restores ++ ids) requests where
  runs id := by
    rw [claimedRestores_frame]
    exact claimed.runs id
  restores id := by
    rw [get?_claimedRestores, claimed.restores id, Option.map_map]
    congr 1
    funext row
    by_cases queued : row.status = .queued
    · by_cases first : id ∈ restores <;> by_cases second : id ∈ ids <;>
        simp [queued, first, second, RestoreUpdate.set]
    · simp [queued]
  requests id := by
    rw [claimedRestores_frame]
    exact claimed.requests id

/-- Clearing the refresh requests a condition selects. -/
theorem more_requests {db : Db} (hit : Uuid → Repository → Bool)
    (claimed : Claimed agent now before db runs restores []) :
    Claimed agent now before
      { db with
        repositories := db.repositories.update hit fun row =>
          { row with statsRequestedAt := none } }
      runs restores (db.repositories.keysWhere hit) where
  runs id := claimed.runs id
  restores id := claimed.restores id
  requests id := by
    have same : db.repositories.get? id = before.repositories.get? id := by
      rw [claimed.requests id]
      simp
    rw [Table.get?_update, same]
    cases present : before.repositories.get? id with
    | none => rfl
    | some row =>
        have selected : id ∈ db.repositories.keysWhere hit ↔ hit id row = true := by
          rw [Table.mem_keysWhere, same, present]
          simp
        simp only [Option.map_some, selected]

end Claimed

section Response

variable {platform : Platform} {agent : Uuid} {world : World}

/-- The backups and the checks of a poll. -/
theorem claimRunTasks_cases (platform : Platform) (agent : Uuid) (world : World)
    (task : QueuedRun → ResolvedTarget → AgentTask) (type : TaskType)
    (typed : ∀ queued target, (task queued target).type = type)
    (named : ∀ queued target, (task queued target).taskId = queued.id)
    (selects : JobRun → Bool) :
    let runs := queuedRuns world.db agent selects
    (∃ tasks, (Procedure.collect (claimRun platform agent task) runs).run world =
          (.ok tasks, world.claimedAll agent (runs.map QueuedRun.id)) ∧
        (∀ task ∈ tasks, task.type = type) ∧
        tasks.map AgentTask.taskId = runs.map QueuedRun.id ∧
        ∀ queued ∈ runs, Resolvable platform world.db queued.repository.ref) ∨
      ∃ failure claimed, (Procedure.collect (claimRun platform agent task) runs).run world =
          (.error failure, world.claimedAll agent claimed) ∧
        claimed ≠ [] ∧ (∀ id ∈ claimed, id ∈ runs.map QueuedRun.id) ∧
        ∃ queued ∈ runs, ¬ Resolvable platform world.db queued.repository.ref :=
  (runLoop platform agent type task typed named).cases world
    (queuedRuns_nodup world.db agent selects) fun queued member =>
      ⟨queued.run, (mem_queuedRuns member).1, (mem_queuedRuns member).2.2⟩

/-- The restores of a poll. -/
theorem claimRestoreTasks_cases (platform : Platform) (agent : Uuid) (world : World) :
    let restores := queuedRestores world.db agent
    (∃ tasks, (Procedure.collect (claimRestore platform) restores).run world =
          (.ok tasks, (restores.map Prod.fst).foldl World.claimedRestore world) ∧
        (∀ task ∈ tasks, task.type = .restore) ∧
        tasks.map AgentTask.taskId = restores.map Prod.fst ∧
        ∀ entry ∈ restores, Resolvable platform world.db entry.2.ref) ∨
      ∃ failure claimed, (Procedure.collect (claimRestore platform) restores).run world =
          (.error failure, claimed.foldl World.claimedRestore world) ∧
        claimed ≠ [] ∧ (∀ id ∈ claimed, id ∈ restores.map Prod.fst) ∧
        ∃ entry ∈ restores, ¬ Resolvable platform world.db entry.2.ref := by
  refine (restoreLoop platform).cases world ?_ ?_
  · exact world.db.restoreRuns.distinct.sublist (List.filter_sublist.map Prod.fst)
  · rintro ⟨id, run⟩ member
    obtain ⟨listed, selected⟩ := List.mem_filter.mp member
    simp only [queuedRestore, Bool.and_eq_true, decide_eq_true_eq] at selected
    exact ⟨run, Table.mem_rows.mp listed, selected.2⟩

/-- The refresh requests of a poll by an agent that reads the figures itself. -/
theorem claimStatsTasks_cases (platform : Platform) (agent : Uuid) (world : World) :
    (∃ tasks, (claimStatsTasks platform agent true).run world =
          (.ok tasks, world.clearedRequests agent) ∧
        (∀ task ∈ tasks, task.type = .stats) ∧
        tasks.map AgentTask.taskId =
          world.db.repositories.keysWhere (statsRequested world.db agent) ∧
        ∀ request ∈ requestedStats world.db agent,
          Resolvable platform world.db request.2) ∨
      ∃ failure, (claimStatsTasks platform agent true).run world =
          (.error failure, world.clearedRequests agent) ∧
        ∃ request ∈ requestedStats world.db agent,
          ¬ Resolvable platform world.db request.2 := by
  have same : ∀ ref, Resolvable platform (world.clearedRequests agent).db ref ↔
      Resolvable platform world.db ref := by
    intro ref
    have resolved : resolveRepo platform (world.clearedRequests agent).db ref =
        resolveRepo platform world.db ref := resolveRepo_congr platform ref rfl rfl
    unfold Resolvable
    rw [resolved]
  have distinct : ((requestedStats world.db agent).map
      (statsLoop platform).key).Nodup := by
    change ((requestedStats world.db agent).map Prod.fst).Nodup
    rw [requestedStats_ids]
    exact Table.nodup_keysWhere _
  have unmarked : ∀ ids : List Uuid,
      ids.foldl (statsLoop platform).mark (world.clearedRequests agent) =
        world.clearedRequests agent := by
    intro ids
    induction ids with
    | nil => rfl
    | cons id rest ih => exact ih
  have claimed : (claimStatsTasks platform agent true).run world =
      (Procedure.collect (statsTaskFor platform)
        (requestedStats world.db agent)).run (world.clearedRequests agent) := rfl
  have cases := (statsLoop platform).cases (world.clearedRequests agent) distinct
    fun _ _ => trivial
  rcases cases with
    ⟨tasks, ran, typed, named, all⟩ | ⟨failure, listed, ran, _, _, request, member, bad⟩
  · rw [unmarked] at ran
    refine Or.inl ⟨tasks, claimed.trans ran, typed, ?_, fun request member =>
      (same _).mp (all request member)⟩
    rw [named, ← requestedStats_ids]
    rfl
  · rw [unmarked] at ran
    exact Or.inr ⟨failure, claimed.trans ran, request, member, fun resolves =>
      bad ((same _).mpr resolves)⟩

/-- What the claims of a poll leave as it is for the ones after them. -/
structure SameConfig (before after : World) : Prop where
  now : after.now = before.now
  secrets : after.db.secrets = before.db.secrets
  targets : after.db.targets = before.db.targets
  repositories : after.db.repositories = before.db.repositories
  backupJobs : after.db.backupJobs = before.db.backupJobs

theorem claimedAll_config (world : World) (agent : Uuid) (ids : List Uuid) :
    SameConfig world (world.claimedAll agent ids) := by
  rw [claimedAll_frame]
  exact ⟨rfl, rfl, rfl, rfl, rfl⟩

theorem claimedRestores_config (world : World) (ids : List Uuid) :
    SameConfig world (ids.foldl World.claimedRestore world) := by
  rw [claimedRestores_frame]
  exact ⟨rfl, rfl, rfl, rfl, rfl⟩

theorem SameConfig.trans {first second third : World} (one : SameConfig first second)
    (two : SameConfig second third) : SameConfig first third :=
  ⟨two.now.trans one.now, two.secrets.trans one.secrets, two.targets.trans one.targets,
    two.repositories.trans one.repositories, two.backupJobs.trans one.backupJobs⟩

theorem SameConfig.resolvable {before after : World} (same : SameConfig before after)
    (ref : RepositoryRef) :
    Resolvable platform after.db ref ↔ Resolvable platform before.db ref := by
  unfold Resolvable
  rw [resolveRepo_congr platform ref same.secrets same.targets]

theorem SameConfig.requestedStats {before after : World} (same : SameConfig before after)
    (agent : Uuid) : requestedStats after.db agent = requestedStats before.db agent := by
  unfold AmberBackup.requestedStats statsRequested
  rw [same.repositories, same.backupJobs]

theorem SameConfig.queuedRuns {before after : World} (same : SameConfig before after)
    (runs : after.db.jobRuns = before.db.jobRuns) (agent : Uuid) (selects : JobRun → Bool) :
    queuedRuns after.db agent selects = queuedRuns before.db agent selects := by
  unfold AmberBackup.queuedRuns queuedRun
  rw [runs, same.backupJobs, same.repositories]

theorem queuedRuns_waiting {selects : JobRun → Bool} {id : Uuid}
    (listed : id ∈ (queuedRuns world.db agent selects).map QueuedRun.id) :
    ∃ row, world.db.jobRuns.get? id = some row ∧ row.status = .queued := by
  obtain ⟨queued, member, rfl⟩ := List.mem_map.mp listed
  exact ⟨queued.run, (mem_queuedRuns member).1, (mem_queuedRuns member).2.2⟩

theorem queuedRestores_waiting {id : Uuid}
    (listed : id ∈ (queuedRestores world.db agent).map Prod.fst) :
    ∃ row, world.db.restoreRuns.get? id = some row ∧ row.status = .queued := by
  obtain ⟨⟨id, row⟩, member, rfl⟩ := List.mem_map.mp listed
  obtain ⟨member, selected⟩ := List.mem_filter.mp member
  simp only [queuedRestore, Bool.and_eq_true, decide_eq_true_eq] at selected
  exact ⟨row, Table.mem_rows.mp member, selected.2⟩

theorem statsRequested_waiting {id : Uuid}
    (listed : id ∈ world.db.repositories.keysWhere (statsRequested world.db agent)) :
    ∃ row, world.db.repositories.get? id = some row ∧ row.statsRequestedAt ≠ none := by
  obtain ⟨row, present, selected⟩ := Table.mem_keysWhere.mp listed
  simp only [statsRequested, Bool.and_eq_true] at selected
  exact ⟨row, present, Option.isSome_iff_ne_none.mp selected.1⟩

/-- The tasks that four loops collected agree with what the loops claimed. -/
theorem agrees_of_claimed {before after : Db} {backups restores checks stats : List AgentTask}
    (claimed : Claimed agent world.now before after
      (backups.map AgentTask.taskId ++ checks.map AgentTask.taskId)
      (restores.map AgentTask.taskId) (stats.map AgentTask.taskId))
    (backup : ∀ task ∈ backups, task.type = .backup)
    (restore : ∀ task ∈ restores, task.type = .restore)
    (check : ∀ task ∈ checks, task.type = .check)
    (figures : ∀ task ∈ stats, task.type = .stats)
    (waiting : ∀ id ∈ backups.map AgentTask.taskId ++ checks.map AgentTask.taskId,
      ∃ row, before.jobRuns.get? id = some row ∧ row.status = .queued)
    (queued : ∀ id ∈ restores.map AgentTask.taskId,
      ∃ row, before.restoreRuns.get? id = some row ∧ row.status = .queued)
    (requested : ∀ id ∈ stats.map AgentTask.taskId,
      ∃ row, before.repositories.get? id = some row ∧ row.statsRequestedAt ≠ none) :
    Agrees before after (backups ++ restores ++ checks ++ stats) where
  runs id := by
    rw [claimed.movedRun_iff id]
    constructor
    · rintro ⟨listed, -⟩
      rcases List.mem_append.mp listed with one | other
      · obtain ⟨task, member, named⟩ := List.mem_map.mp one
        exact ⟨task, by simp [member], Or.inl (backup task member), named⟩
      · obtain ⟨task, member, named⟩ := List.mem_map.mp other
        exact ⟨task, by simp [member], Or.inr (check task member), named⟩
    · rintro ⟨task, member, typed, rfl⟩
      have listed : task.taskId ∈
          backups.map AgentTask.taskId ++ checks.map AgentTask.taskId := by
        simp only [List.append_assoc, List.mem_append] at member ⊢
        rcases member with one | one | one | one
        · exact Or.inl (List.mem_map_of_mem one)
        · rw [restore task one] at typed
          rcases typed with wrong | wrong <;> cases wrong
        · exact Or.inr (List.mem_map_of_mem one)
        · rw [figures task one] at typed
          rcases typed with wrong | wrong <;> cases wrong
      exact ⟨listed, waiting _ listed⟩
  restores id := by
    rw [claimed.movedRestore_iff id]
    constructor
    · rintro ⟨listed, -⟩
      obtain ⟨task, member, named⟩ := List.mem_map.mp listed
      exact ⟨task, by simp [member], restore task member, named⟩
    · rintro ⟨task, member, typed, rfl⟩
      have listed : task.taskId ∈ restores.map AgentTask.taskId := by
        simp only [List.append_assoc, List.mem_append] at member
        rcases member with one | one | one | one
        · rw [backup task one] at typed
          cases typed
        · exact List.mem_map_of_mem one
        · rw [check task one] at typed
          cases typed
        · rw [figures task one] at typed
          cases typed
      exact ⟨listed, queued _ listed⟩
  requests id := by
    rw [claimed.clearedRequest_iff id]
    constructor
    · rintro ⟨listed, -⟩
      obtain ⟨task, member, named⟩ := List.mem_map.mp listed
      exact ⟨task, by simp [member], figures task member, named⟩
    · rintro ⟨task, member, typed, rfl⟩
      have listed : task.taskId ∈ stats.map AgentTask.taskId := by
        simp only [List.append_assoc, List.mem_append] at member
        rcases member with one | one | one | one
        · rw [backup task one] at typed
          cases typed
        · rw [restore task one] at typed
          cases typed
        · rw [check task one] at typed
          cases typed
        · exact List.mem_map_of_mem one
      exact ⟨listed, requested _ listed⟩

/-- A poll on its way: what it has claimed is what it has collected so far. -/
structure Progress (agent : Uuid) (base state : World)
    (backups restores checks : List AgentTask) : Prop where
  config : SameConfig base state
  claimed : Claimed agent state.now base.db state.db
    (backups.map AgentTask.taskId ++ checks.map AgentTask.taskId)
    (restores.map AgentTask.taskId) []
  backup : ∀ task ∈ backups, task.type = .backup
  restore : ∀ task ∈ restores, task.type = .restore
  check : ∀ task ∈ checks, task.type = .check
  waiting : ∀ id ∈ backups.map AgentTask.taskId ++ checks.map AgentTask.taskId,
    ∃ row, base.db.jobRuns.get? id = some row ∧ row.status = .queued
  queued : ∀ id ∈ restores.map AgentTask.taskId,
    ∃ row, base.db.restoreRuns.get? id = some row ∧ row.status = .queued

variable {base state : World} {backups restores checks : List AgentTask}

/-- The response of a poll, given what was collected before the refresh requests. -/
def respond (platform : Platform) (agent : Uuid) (interval : Option Nat)
    (backups restores checks : List AgentTask) : Service PollResponse := do
  let stats ← claimStatsTasks platform agent true
  return {
    tasks := backups ++ restores ++ checks ++ stats
    pollIntervalSeconds := interval.getD 30
    latestAgentVersion := platform.latestAgentVersion }

/-- From the refresh requests on, a poll agrees exactly when the requested repositories
resolve. -/
theorem Progress.respond_agrees (progress : Progress agent base state backups restores checks)
    (platform : Platform) (interval : Option Nat) :
    PollAgrees base.db
        ((respond platform agent interval backups restores checks).run state) ↔
      ∀ request ∈ requestedStats base.db agent, Resolvable platform base.db request.2 := by
  have claimed := progress.claimed.more_requests (statsRequested state.db agent)
  have sameRequests := progress.config.requestedStats agent
  have ids : state.db.repositories.keysWhere (statsRequested state.db agent) =
      base.db.repositories.keysWhere (statsRequested base.db agent) := by
    rw [← requestedStats_ids, ← requestedStats_ids, sameRequests]
  unfold respond
  rcases claimStatsTasks_cases platform agent state with
    ⟨stats, ran, figures, named, all⟩ | ⟨failure, ran, request, member, bad⟩
  · rw [Procedure.run_bind_of_ok ran]
    rw [sameRequests] at all
    refine iff_of_true ?_ fun request member =>
      (progress.config.resolvable _).mp (all request member)
    rw [← named] at claimed
    refine agrees_of_claimed claimed progress.backup progress.restore progress.check figures
      progress.waiting progress.queued fun id listed => ?_
    rw [named, ids] at listed
    exact statsRequested_waiting listed
  · rw [Procedure.run_bind_of_error ran]
    rw [sameRequests] at member
    refine iff_of_false ?_ fun all =>
      bad ((progress.config.resolvable _).mpr (all request member))
    have listed : request.1 ∈ base.db.repositories.keysWhere (statsRequested base.db agent) := by
      rw [← requestedStats_ids]
      exact List.mem_map_of_mem member
    exact claimed.not_agrees_nil (Or.inr (Or.inr
      ⟨request.1, ids ▸ listed, statsRequested_waiting listed⟩))

/-- From the checks on, a poll agrees exactly when they and the requested repositories
resolve. -/
theorem Progress.checks_agree (progress : Progress agent base state backups restores [])
    (unclaimed : queuedRuns state.db agent queuedCheck = queuedRuns base.db agent queuedCheck)
    (platform : Platform) (interval : Option Nat) :
    PollAgrees base.db
        ((claimCheckTasks platform agent >>= respond platform agent interval backups
          restores).run state) ↔
      (∀ queued ∈ queuedRuns base.db agent queuedCheck,
          Resolvable platform base.db queued.repository.ref) ∧
        ∀ request ∈ requestedStats base.db agent, Resolvable platform base.db request.2 := by
  rcases claimRunTasks_cases platform agent state checkTask .check (fun _ _ => rfl)
      (fun _ _ => rfl) queuedCheck with
    ⟨checks, ran, check, named, all⟩ | ⟨failure, claimed, ran, some, listed, queued, member, bad⟩
  · have returned : (claimCheckTasks platform agent).run state = (.ok checks, state.claimedAll
      agent ((queuedRuns state.db agent queuedCheck).map QueuedRun.id)) := ran
    rw [Procedure.run_bind_of_ok returned]
    have resolve : ∀ queued ∈ queuedRuns base.db agent queuedCheck,
        Resolvable platform base.db queued.repository.ref := by
      intro queued member
      rw [← unclaimed] at member
      exact (progress.config.resolvable _).mp (all queued member)
    have after : Progress agent base
        (state.claimedAll agent ((queuedRuns state.db agent queuedCheck).map QueuedRun.id))
        backups restores checks := by
      have config := progress.config.trans (claimedAll_config state agent
        ((queuedRuns state.db agent queuedCheck).map QueuedRun.id))
      refine ⟨config, ?_, progress.backup, progress.restore, check, ?_, progress.queued⟩
      · have more := progress.claimed.more_runs
          ((queuedRuns state.db agent queuedCheck).map QueuedRun.id)
        rw [← named, List.map_nil, List.append_nil] at more
        rw [(claimedAll_config state agent _).now, ← named]
        exact more
      · intro id member
        rcases List.mem_append.mp member with one | other
        · exact progress.waiting id (List.mem_append_left _ one)
        · rw [named, unclaimed] at other
          exact queuedRuns_waiting other
    rw [after.respond_agrees platform interval]
    exact ⟨fun requests => ⟨resolve, requests⟩, fun both => both.2⟩
  · have thrown : (claimCheckTasks platform agent).run state =
      (.error failure, state.claimedAll agent claimed) := ran
    rw [Procedure.run_bind_of_error thrown]
    rw [unclaimed] at listed member
    obtain ⟨id, one⟩ := List.exists_mem_of_ne_nil claimed some
    refine iff_of_false ?_ fun all =>
      bad ((progress.config.resolvable _).mpr (all.1 queued member))
    exact (progress.claimed.more_runs claimed).not_agrees_nil (Or.inl
      ⟨id, List.mem_append_right _ one, queuedRuns_waiting (listed id one)⟩)

/-- From the restores on, a poll agrees exactly when they, the checks and the requested
repositories resolve. -/
theorem Progress.restores_agree (progress : Progress agent base state backups [] [])
    (unclaimed : queuedRuns state.db agent queuedCheck = queuedRuns base.db agent queuedCheck)
    (untouched : state.db.restoreRuns = base.db.restoreRuns)
    (platform : Platform) (interval : Option Nat) :
    PollAgrees base.db
        ((claimRestoreTasks platform agent >>= fun restores =>
          claimCheckTasks platform agent >>= respond platform agent interval backups
            restores).run state) ↔
      (∀ entry ∈ queuedRestores base.db agent, Resolvable platform base.db entry.2.ref) ∧
        (∀ queued ∈ queuedRuns base.db agent queuedCheck,
          Resolvable platform base.db queued.repository.ref) ∧
        ∀ request ∈ requestedStats base.db agent, Resolvable platform base.db request.2 := by
  have same : queuedRestores state.db agent = queuedRestores base.db agent := by
    unfold queuedRestores
    rw [untouched]
  rcases claimRestoreTasks_cases platform agent state with
    ⟨restores, ran, restore, named, all⟩ | ⟨failure, claimed, ran, some, listed, entry, member, bad⟩
  · have returned : (claimRestoreTasks platform agent).run state = (.ok restores,
      ((queuedRestores state.db agent).map Prod.fst).foldl World.claimedRestore state) := ran
    rw [Procedure.run_bind_of_ok returned]
    have resolve : ∀ entry ∈ queuedRestores base.db agent,
        Resolvable platform base.db entry.2.ref := by
      intro entry member
      rw [← same] at member
      exact (progress.config.resolvable _).mp (all entry member)
    have after : Progress agent base
        (((queuedRestores state.db agent).map Prod.fst).foldl World.claimedRestore state)
        backups restores [] := by
      have config := progress.config.trans (claimedRestores_config state
        ((queuedRestores state.db agent).map Prod.fst))
      refine ⟨config, ?_, progress.backup, restore, progress.check, progress.waiting, ?_⟩
      · have more := progress.claimed.more_restores ((queuedRestores state.db agent).map Prod.fst)
        rw [← named, List.map_nil, List.nil_append] at more
        rw [(claimedRestores_config state _).now, ← named]
        exact more
      · intro id member
        rw [named, same] at member
        exact queuedRestores_waiting member
    have stillUnclaimed : queuedRuns (((queuedRestores state.db agent).map Prod.fst).foldl
        World.claimedRestore state).db agent queuedCheck =
          queuedRuns base.db agent queuedCheck := by
      rw [← unclaimed]
      refine (claimedRestores_config state _).queuedRuns ?_ agent queuedCheck
      rw [claimedRestores_frame]
    rw [after.checks_agree stillUnclaimed platform interval]
    exact ⟨fun rest => ⟨resolve, rest⟩, fun both => both.2⟩
  · have thrown : (claimRestoreTasks platform agent).run state =
      (.error failure, claimed.foldl World.claimedRestore state) := ran
    rw [Procedure.run_bind_of_error thrown]
    rw [same] at listed member
    obtain ⟨id, one⟩ := List.exists_mem_of_ne_nil claimed some
    refine iff_of_false ?_ fun all =>
      bad ((progress.config.resolvable _).mpr (all.1 entry member))
    exact (progress.claimed.more_restores claimed).not_agrees_nil (Or.inr (Or.inl
      ⟨id, List.mem_append_right _ one, queuedRestores_waiting (listed id one)⟩))

/-- The claims of due backups pass over the checks. -/
theorem queuedChecks_claimedBackups (state : World) (agent : Uuid) :
    queuedRuns (state.claimedAll agent
        ((queuedRuns state.db agent (dueBackup state.now)).map QueuedRun.id)).db agent
        queuedCheck = queuedRuns state.db agent queuedCheck := by
  refine queuedRuns_claimedAll ?_ fun _ _ => rfl
  intro id listed row present
  obtain ⟨queued, member, rfl⟩ := List.mem_map.mp listed
  obtain ⟨stored, due, -⟩ := mem_queuedRuns member
  rw [present] at stored
  cases stored
  simp only [dueBackup, Bool.and_eq_true, decide_eq_true_eq] at due
  simp [queuedCheck, due.1]

/-- **A poll agrees with its response exactly when every waiting task resolves.** Over a poll
of an agent that announces all capabilities, the rows moved from the queue and the requests
cleared are those of the returned tasks, and a poll that throws leaves none behind, if and
only if the repository of every task that waits for the agent resolves. -/
theorem poll_agrees_iff (platform : Platform) (agent : Uuid) (ip : Option String)
    (dto : PollDto) (world : World) (checks : dto.announces agentCapabilityCheck = true)
    (stats : dto.announces agentCapabilityStats = true) :
    PollAgrees world.db ((poll platform agent ip dto).run world) ↔
      AllResolve platform world agent := by
  obtain ⟨interval, agents, touched⟩ : ∃ interval agents, (touchPoll agent ip dto).run world =
      (.ok interval, { world with db := { world.db with agents } }) := ⟨_, _, rfl⟩
  generalize opened : ({ world with db := { world.db with agents } } : World) = first at touched
  have config : SameConfig world first := by
    subst opened
    exact ⟨rfl, rfl, rfl, rfl, rfl⟩
  have untouched : first.db.jobRuns = world.db.jobRuns ∧
      first.db.restoreRuns = world.db.restoreRuns := by
    subst opened
    exact ⟨rfl, rfl⟩
  have start : Claimed agent first.now world.db first.db [] [] [] := by
    subst opened
    exact .nothing agents
  have same : ∀ selects, queuedRuns first.db agent selects = queuedRuns world.db agent selects :=
    config.queuedRuns untouched.1 agent
  have announced : claimAnnouncedChecks platform agent dto = claimCheckTasks platform agent := by
    unfold claimAnnouncedChecks
    rw [if_pos checks]
  have parts : AllResolve platform world agent ↔
      (∀ queued ∈ queuedRuns world.db agent (dueBackup world.now),
        Resolvable platform world.db queued.repository.ref) ∧
      (∀ entry ∈ queuedRestores world.db agent, Resolvable platform world.db entry.2.ref) ∧
      (∀ queued ∈ queuedRuns world.db agent queuedCheck,
        Resolvable platform world.db queued.repository.ref) ∧
      ∀ request ∈ requestedStats world.db agent, Resolvable platform world.db request.2 :=
    ⟨fun all => ⟨all.backups, all.restores, all.checks, all.requests⟩,
      fun ⟨backups, restores, checks, requests⟩ => ⟨backups, restores, checks, requests⟩⟩
  rw [parts]
  unfold poll
  rw [announced, stats, Procedure.run_bind_of_ok touched]
  rcases claimRunTasks_cases platform agent first backupTask .backup (fun _ _ => rfl)
      (fun _ _ => rfl) (dueBackup first.now) with
    ⟨backups, ran, backup, named, all⟩ | ⟨failure, claimed, ran, some, listed, queued, member, bad⟩
  · have returned : (claimBackupTasks platform agent).run first = (.ok backups,
      first.claimedAll agent
        ((queuedRuns first.db agent (dueBackup first.now)).map QueuedRun.id)) := ran
    rw [Procedure.run_bind_of_ok returned]
    have resolve : ∀ queued ∈ queuedRuns world.db agent (dueBackup world.now),
        Resolvable platform world.db queued.repository.ref := by
      intro queued member
      rw [← same, ← config.now] at member
      exact (config.resolvable _).mp (all queued member)
    have after : Progress agent world (first.claimedAll agent
        ((queuedRuns first.db agent (dueBackup first.now)).map QueuedRun.id)) backups [] [] := by
      refine ⟨config.trans (claimedAll_config first agent _), ?_, backup, ?_, ?_, ?_, ?_⟩
      · have more := start.more_runs
          ((queuedRuns first.db agent (dueBackup first.now)).map QueuedRun.id)
        rw [List.nil_append] at more
        rw [(claimedAll_config first agent _).now, List.map_nil, List.append_nil, named]
        exact more
      · intro task member
        cases member
      · intro task member
        cases member
      · intro id member
        rw [List.map_nil, List.append_nil, named, same] at member
        exact queuedRuns_waiting member
      · intro id member
        cases member
    have unclaimed : queuedRuns (first.claimedAll agent
        ((queuedRuns first.db agent (dueBackup first.now)).map QueuedRun.id)).db agent
          queuedCheck = queuedRuns world.db agent queuedCheck := by
      rw [queuedChecks_claimedBackups, same]
    have restores : (first.claimedAll agent
        ((queuedRuns first.db agent (dueBackup first.now)).map QueuedRun.id)).db.restoreRuns =
          world.db.restoreRuns := by
      rw [claimedAll_frame]
      exact untouched.2
    refine Iff.trans (after.restores_agree unclaimed restores platform interval) ?_
    exact ⟨fun rest => ⟨resolve, rest⟩, fun both => both.2⟩
  · have thrown : (claimBackupTasks platform agent).run first =
      (.error failure, first.claimedAll agent claimed) := ran
    rw [Procedure.run_bind_of_error thrown]
    rw [same] at listed
    rw [same, config.now] at member
    obtain ⟨id, one⟩ := List.exists_mem_of_ne_nil claimed some
    refine iff_of_false ?_ fun all => bad ((config.resolvable _).mpr (all.1 queued member))
    exact (start.more_runs claimed).not_agrees_nil (Or.inl
      ⟨id, List.mem_append_right _ one, queuedRuns_waiting (listed id one)⟩)

end Response

/-- A runtime that reads every stored secret as it is. -/
def plainPlatform : Platform where
  decrypt ciphertext _ _ := some ciphertext
  parseCredentials _ := some []
  readFigures _ := .ok (some 1024, 1)
  publicBaseUrl := "https://backup.example.com"

/-- Agent 7 with a local repository job 1 whose password is stored. -/
def waitingBackup : World where
  db :=
    { secrets := .ofList [(9, { type := .repoPassword, ciphertext := "pw", nonce := "" })]
      repositories := .ofList [(5, {
        name := "nightly", targetId := none, repoConfig := [("path", .text "/srv/restic")],
        repoPasswordSecretId := 9 })]
      agents := .ofList [(7, { name := "host" })]
      backupJobs := .ofList [(1, {
        name := "nightly", location := .agent, agentId := some 7, repositoryId := 5 })]
      jobRuns := .ofList [(3, { jobId := 1, trigger := .schedule, createdAt := 0 })] }
  now := 1000

/-- The same with a second job whose repository has lost its password secret. -/
def waitingBackups : World where
  db :=
    { waitingBackup.db with
      repositories := waitingBackup.db.repositories.insert 6 {
        name := "weekly", targetId := none, repoConfig := [], repoPasswordSecretId := 10 }
      backupJobs := waitingBackup.db.backupJobs.insert 2 {
        name := "weekly", location := .agent, agentId := some 7, repositoryId := 6 }
      jobRuns := waitingBackup.db.jobRuns.insert 4 {
        jobId := 2, trigger := .schedule, createdAt := 0 } }
  now := 1000

def capablePoll : PollDto where
  capabilities := some [agentCapabilityCheck, agentCapabilityStats]

/-- The poll throws on the second job and leaves the first job's run running, which it
hands to nobody. -/
theorem poll_loses_claimed_run :
    ¬ PollAgrees waitingBackups.db
      ((poll plainPlatform 7 none capablePoll).run waitingBackups) := by
  intro agrees
  have moved : MovedRun waitingBackups.db
      ((poll plainPlatform 7 none capablePoll).run waitingBackups).2.db 3 :=
    ⟨⟨_, rfl, rfl⟩, ⟨_, rfl, rfl⟩⟩
  have empty : Agrees waitingBackups.db
      ((poll plainPlatform 7 none capablePoll).run waitingBackups).2.db [] := agrees
  obtain ⟨task, member, -⟩ := (empty.runs 3).mp moved
  cases member

/-- With one job whose repository resolves, the poll hands over what it claims. -/
theorem poll_hands_over_claimed_run :
    PollAgrees waitingBackup.db
      ((poll plainPlatform 7 none capablePoll).run waitingBackup) := by
  refine (poll_agrees_iff plainPlatform 7 none capablePoll waitingBackup (by decide)
    (by decide)).mpr ⟨?_, ?_, ?_, ?_⟩
  · intro queued member
    rcases List.mem_singleton.mp member with rfl
    exact ⟨_, rfl⟩
  · intro entry member
    cases member
  · intro queued member
    cases member
  · intro request member
    cases member

end AmberBackup
