import AmberBackup.Agents.Poll

/-! # Claim loops

Each claim loop of a poll marks one row after the other and resolves the row's repository
between two marks. Resolving reads nothing a claim writes, so a loop ends either with a
task for every selected row or with a failure after some rows are marked
(`ClaimLoop.cases`). The loops over runs, restores and refresh requests are instances.
-/

namespace AmberBackup

open Relational

section ClaimedRuns

variable {world : World} {agent : Uuid}

/-- The world after one run is claimed. -/
def World.claimed (agent : Uuid) (world : World) (id : Uuid) : World :=
  { world with db := world.db.updateRuns world.now (.claim id agent) }

/-- The world after the listed runs are claimed. -/
def World.claimedAll (agent : Uuid) (world : World) (ids : List Uuid) : World :=
  ids.foldl (World.claimed agent) world

/-- Claiming runs writes to the runs only. -/
theorem claimedAll_frame (ids : List Uuid) :
    world.claimedAll agent ids =
      { world with
        db := { world.db with jobRuns := (world.claimedAll agent ids).db.jobRuns } } := by
  induction ids generalizing world with
  | nil => rfl
  | cons id rest ih =>
      change (world.claimed agent id).claimedAll agent rest = _
      rw [ih]
      rfl

/-- A claimed run that was queued is running; every other run is as it was. -/
theorem get?_claimedAll (ids : List Uuid) (id : Uuid) :
    (world.claimedAll agent ids).db.jobRuns.get? id =
      (world.db.jobRuns.get? id).map fun row =>
        if id ∈ ids ∧ row.status = .queued then
          RunUpdate.set world.now (.claim id agent) row
        else row := by
  induction ids generalizing world with
  | nil => simp [World.claimedAll]
  | cons first rest ih =>
      have tail : (world.claimed agent first).claimedAll agent rest =
          world.claimedAll agent (first :: rest) := rfl
      rw [← tail, ih]
      unfold World.claimed
      dsimp only
      rw [Db.get?_updateRuns, Option.map_map]
      congr 1
      funext row
      simp only [Function.comp_apply, RunUpdate.hits, Bool.and_eq_true, decide_eq_true_eq,
        List.mem_cons]
      by_cases same : id = first
      · subst same
        by_cases queued : row.status = .queued
        · simp [queued, RunUpdate.set]
        · simp [queued]
      · simp [same]

theorem of_queuedRun {db : Db} {id : Uuid} {run : JobRun} {queued : QueuedRun}
    (found : queuedRun db agent id run = some queued) :
    queued.id = id ∧ queued.run = run ∧ run.status = .queued := by
  unfold queuedRun at found
  obtain ⟨⟨job, repository⟩, _, selected⟩ := Option.bind_eq_some_iff.mp found
  dsimp only at selected
  split at selected
  case isFalse => cases selected
  case isTrue waiting =>
    cases selected
    exact ⟨rfl, rfl, waiting.2⟩

theorem mem_queuedRuns {db : Db} {selects : JobRun → Bool} {queued : QueuedRun}
    (member : queued ∈ queuedRuns db agent selects) :
    db.jobRuns.get? queued.id = some queued.run ∧ selects queued.run = true ∧
      queued.run.status = .queued := by
  obtain ⟨⟨id, run⟩, listed, found⟩ := List.mem_filterMap.mp member
  dsimp only at found
  split at found
  case isFalse => cases found
  case isTrue selected =>
    obtain ⟨rfl, rfl, queued⟩ := of_queuedRun found
    exact ⟨Table.mem_rows.mp listed, selected, queued⟩

theorem queuedRuns_ids_sublist (db : Db) (agent : Uuid) (selects : JobRun → Bool) :
    ((queuedRuns db agent selects).map QueuedRun.id).Sublist (db.jobRuns.rows.map Prod.fst) := by
  unfold queuedRuns
  induction db.jobRuns.rows with
  | nil => exact List.Sublist.refl []
  | cons entry rest ih =>
      rw [List.filterMap_cons]
      split
      case h_1 => exact ih.cons entry.1
      case h_2 queued found =>
          split at found
          case isFalse => cases found
          case isTrue =>
            rw [List.map_cons, (of_queuedRun found).1]
            exact ih.cons_cons entry.1

theorem queuedRuns_nodup (db : Db) (agent : Uuid) (selects : JobRun → Bool) :
    ((queuedRuns db agent selects).map QueuedRun.id).Nodup :=
  db.jobRuns.distinct.sublist (queuedRuns_ids_sublist db agent selects)

/-- Claiming runs a selection passes over, before and after the claim, leaves the
selection as it was. -/
theorem queuedRuns_claimedAll {selects : JobRun → Bool} {ids : List Uuid}
    (passed : ∀ id ∈ ids, ∀ row, world.db.jobRuns.get? id = some row → selects row = false)
    (stable : ∀ id row, selects (RunUpdate.set world.now (.claim id agent) row) = selects row) :
    queuedRuns (world.claimedAll agent ids).db agent selects =
      queuedRuns world.db agent selects := by
  induction ids generalizing world with
  | nil => rfl
  | cons first rest ih =>
      change queuedRuns ((world.claimed agent first).claimedAll agent rest).db agent selects = _
      rw [ih]
      · unfold queuedRuns World.claimed Db.updateRuns Table.update
        dsimp only
        rw [List.filterMap_map]
        apply List.filterMap_congr
        rintro ⟨id, row⟩ member
        have present := Table.mem_rows.mp member
        simp only [Function.comp_apply]
        by_cases hit : RunUpdate.hits world.db (.claim first agent) id row = true
        · have same : id = first := by
            simp only [RunUpdate.hits, Bool.and_eq_true, decide_eq_true_eq] at hit
            exact hit.1
          subst same
          have skipped := passed id List.mem_cons_self row present
          rw [if_pos hit, stable, skipped]
          rfl
        · rw [if_neg hit]
          rfl
      · intro id member row present
        unfold World.claimed at present
        dsimp only at present
        rw [Db.get?_updateRuns] at present
        obtain ⟨before, found, same⟩ := Option.map_eq_some_iff.mp present
        have skipped := passed id (List.mem_cons_of_mem _ member) before found
        split at same
        · rw [← same, stable, skipped]
        · rw [← same, skipped]
      · exact stable

end ClaimedRuns

section ClaimLoops

variable {world : World} {agent : Uuid}

/-- What holds of each task built holds of the tasks collected. -/
theorem collected {ι : Type} {outcome : ι → Except Failure AgentTask} {type : TaskType}
    {name : ι → Uuid} {resolves : ι → Prop}
    (built : ∀ item result, outcome item = .ok result →
      result.type = type ∧ result.taskId = name item ∧ resolves item)
    {items : List ι} {tasks : List AgentTask}
    (each : List.Forall₂ (fun item result => outcome item = .ok result) items tasks) :
    (∀ task ∈ tasks, task.type = type) ∧
      tasks.map AgentTask.taskId = items.map name ∧ ∀ item ∈ items, resolves item := by
  induction each with
  | nil => simp
  | cons made _ ih =>
      obtain ⟨typed, named, sound⟩ := built _ _ made
      obtain ⟨types, names, all⟩ := ih
      refine ⟨?_, ?_, ?_⟩
      · intro task member
        rcases List.mem_cons.mp member with same | listed
        · rw [same, typed]
        · exact types task listed
      · rw [List.map_cons, List.map_cons, named, names]
      · intro item member
        rcases List.mem_cons.mp member with same | listed
        · rw [same]
          exact sound
        · exact all item listed

/-- Claiming a queued run hits it and then resolves its repository. -/
theorem claimRun_run (platform : Platform) (task : QueuedRun → ResolvedTarget → AgentTask)
    {queued : QueuedRun} {row : JobRun}
    (present : world.db.jobRuns.get? queued.id = some row) (waiting : row.status = .queued) :
    (claimRun platform agent task queued).run world =
      (((resolveRepo platform world.db queued.repository.ref).map (task queued)).map some,
        world.claimed agent queued.id) := by
  have hit : queued.id ∈ world.db.runsHit (.claim queued.id agent) :=
    Db.mem_runsHit.mpr ⟨row, present, by simp [RunUpdate.hits, waiting]⟩
  have claimed : (updateRunsReturning (.claim queued.id agent)).run world =
      (.ok true, world.claimed agent queued.id) := by
    unfold updateRunsReturning World.claimed
    simp only [Prod.mk.injEq, Except.ok.injEq, and_true]
    simpa using List.ne_nil_of_mem hit
  have same : resolveRepo platform (world.claimed agent queued.id).db queued.repository.ref =
      resolveRepo platform world.db queued.repository.ref :=
    resolveRepo_congr platform queued.repository.ref rfl rfl
  unfold claimRun resolveForJob
  rw [Procedure.run_bind_of_ok claimed, if_pos rfl, Procedure.run_bind, Procedure.run_lift, same]
  cases resolveRepo platform world.db queued.repository.ref with
  | error failure => rfl
  | ok target => rfl

/-- A loop that claims rows and then resolves their repositories: `key` names the row of an
item, `ref` its repository, `mark` is the claim and `waits` says that a row can be claimed. -/
structure ClaimLoop (platform : Platform) (ι : Type) where
  body : ι → Service (Option AgentTask)
  task : ι → ResolvedTarget → AgentTask
  key : ι → Uuid
  ref : ι → RepositoryRef
  type : TaskType
  mark : World → Uuid → World
  waits : Uuid → World → Prop
  typed : ∀ item target, (task item target).type = type
  named : ∀ item target, (task item target).taskId = key item
  claims : ∀ item state, waits (key item) state →
    (body item).run state =
      (((resolveRepo platform state.db (ref item)).map (task item)).map some,
        mark state (key item))
  secrets : ∀ state id, (mark state id).db.secrets = state.db.secrets
  targets : ∀ state id, (mark state id).db.targets = state.db.targets
  kept : ∀ state id other, other ≠ id → waits other state → waits other (mark state id)

/-- How a claim loop ends: with a task for each item, all of which resolve, or with a
failure after it has claimed some of them, one of which does not. -/
theorem ClaimLoop.cases {platform : Platform} {ι : Type} (loop : ClaimLoop platform ι)
    (world : World) {items : List ι} (distinct : (items.map loop.key).Nodup)
    (waiting : ∀ item ∈ items, loop.waits (loop.key item) world) :
    (∃ tasks, (Procedure.collect loop.body items).run world =
          (.ok tasks, (items.map loop.key).foldl loop.mark world) ∧
        (∀ task ∈ tasks, task.type = loop.type) ∧
        tasks.map AgentTask.taskId = items.map loop.key ∧
        ∀ item ∈ items, Resolvable platform world.db (loop.ref item)) ∨
      ∃ failure claimed, (Procedure.collect loop.body items).run world =
          (.error failure, claimed.foldl loop.mark world) ∧
        claimed ≠ [] ∧ (∀ id ∈ claimed, id ∈ items.map loop.key) ∧
        ∃ item ∈ items, ¬ Resolvable platform world.db (loop.ref item) := by
  let outcome (item : ι) : Except Failure AgentTask :=
    (resolveRepo platform world.db (loop.ref item)).map (loop.task item)
  -- What the loop relies on: resolving is as at its start, and the rest still waits.
  let valid (rest : List ι) (state : World) : Prop :=
    state.db.secrets = world.db.secrets ∧ state.db.targets = world.db.targets ∧
      (rest.map loop.key).Nodup ∧ ∀ item ∈ rest, loop.waits (loop.key item) state
  have step : ∀ item rest state, valid (item :: rest) state →
      (loop.body item).run state = ((outcome item).map some, loop.mark state (loop.key item)) ∧
        valid rest (loop.mark state (loop.key item)) := by
    rintro item rest state ⟨secrets, targets, distinct, waiting⟩
    rw [List.map_cons, List.nodup_cons] at distinct
    refine ⟨?_, (loop.secrets _ _).trans secrets, (loop.targets _ _).trans targets,
      distinct.2, ?_⟩
    · rw [loop.claims item state (waiting item List.mem_cons_self),
        resolveRepo_congr platform _ secrets targets]
    · intro other member
      have different : loop.key other ≠ loop.key item := fun same =>
        distinct.1 (same ▸ List.mem_map_of_mem member)
      exact loop.kept state _ _ different (waiting other (List.mem_cons_of_mem _ member))
  have ran := Procedure.run_collect loop.body outcome
    (fun item state => loop.mark state (loop.key item)) valid step items world
    ⟨rfl, rfl, distinct, waiting⟩
  have folded : ∀ items : List ι,
      items.foldl (fun state item => loop.mark state (loop.key item)) world =
        (items.map loop.key).foldl loop.mark world := fun items => List.foldl_map.symm
  rw [folded] at ran
  rcases Procedure.outcomes_cases outcome items with
    ⟨tasks, all, reached, each⟩ | ⟨failure, item, fails, member, bad, some⟩
  · have built : ∀ item result, outcome item = .ok result →
        result.type = loop.type ∧ result.taskId = loop.key item ∧
          Resolvable platform world.db (loop.ref item) := by
      intro item result made
      simp only [outcome] at made
      cases resolves : resolveRepo platform world.db (loop.ref item) with
      | error failure => rw [resolves] at made; cases made
      | ok target =>
          rw [resolves] at made
          cases made
          exact ⟨loop.typed item target, loop.named item target, target, resolves⟩
    exact Or.inl ⟨tasks, by rw [ran, all, reached], collected built each⟩
  · refine Or.inr ⟨failure, _, by rw [ran, fails], ?_, ?_, item, member, ?_⟩
    · simpa using some
    · intro id listed
      exact ((Procedure.attempted_sublist outcome items).map loop.key).subset listed
    · rintro ⟨target, resolves⟩
      simp only [outcome, resolves] at bad
      cases bad

/-- The claim loops over queued runs. -/
def runLoop (platform : Platform) (agent : Uuid) (type : TaskType)
    (task : QueuedRun → ResolvedTarget → AgentTask)
    (typed : ∀ queued target, (task queued target).type = type)
    (named : ∀ queued target, (task queued target).taskId = queued.id) :
    ClaimLoop platform QueuedRun where
  body := claimRun platform agent task
  task
  key := QueuedRun.id
  ref queued := queued.repository.ref
  type
  mark := World.claimed agent
  waits id state := ∃ row, state.db.jobRuns.get? id = some row ∧ row.status = .queued
  typed
  named
  claims queued state waiting := by
    obtain ⟨row, present, queued_row⟩ := waiting
    exact claimRun_run platform task present queued_row
  secrets _ _ := rfl
  targets _ _ := rfl
  kept state id other different waiting := by
    obtain ⟨row, present, queued⟩ := waiting
    refine ⟨row, ?_, queued⟩
    unfold World.claimed
    dsimp only
    rw [Db.get?_updateRuns, present]
    simp [RunUpdate.hits, different]

/-- The world after one restore is claimed. -/
def World.claimedRestore (world : World) (id : Uuid) : World :=
  { world with db := world.db.updateRestores world.now (.claim id) }

/-- The claim loop over queued restores. -/
def restoreLoop (platform : Platform) : ClaimLoop platform (Uuid × RestoreRun) where
  body := claimRestore platform
  task entry := restoreTask entry.1 entry.2
  key := Prod.fst
  ref entry := entry.2.ref
  type := .restore
  mark := World.claimedRestore
  waits id state := ∃ row, state.db.restoreRuns.get? id = some row ∧ row.status = .queued
  typed _ _ := rfl
  named _ _ := rfl
  claims entry state waiting := by
    obtain ⟨row, present, queued⟩ := waiting
    have hit : state.db.restoreRuns.anyWhere (RestoreUpdate.hits (.claim entry.1)) = true :=
      Table.anyWhere_iff.mpr ⟨entry.1, row, present, by simp [RestoreUpdate.hits, queued]⟩
    have claimed : (claimRestoreRow entry.1).run state =
        (.ok true, state.claimedRestore entry.1) := by
      unfold claimRestoreRow World.claimedRestore
      simp only [hit]
    have same : resolveRepo platform (state.claimedRestore entry.1).db entry.2.ref =
        resolveRepo platform state.db entry.2.ref :=
      resolveRepo_congr platform entry.2.ref rfl rfl
    unfold claimRestore resolveForRestore
    rw [Procedure.run_bind_of_ok claimed, if_pos rfl, Procedure.run_bind, Procedure.run_lift,
      same]
    cases resolveRepo platform state.db entry.2.ref with
    | error failure => rfl
    | ok target => rfl
  secrets _ _ := rfl
  targets _ _ := rfl
  kept state id other different waiting := by
    obtain ⟨row, present, queued⟩ := waiting
    refine ⟨row, ?_, queued⟩
    unfold World.claimedRestore
    dsimp only
    rw [Db.get?_updateRestores, present]
    simp [RestoreUpdate.hits, different]

/-- The loop over claimed refresh requests, which have all been cleared before it. -/
def statsLoop (platform : Platform) : ClaimLoop platform (Uuid × RepositoryRef) where
  body := statsTaskFor platform
  task request := statsTask request.1
  key := Prod.fst
  ref := Prod.snd
  type := .stats
  mark state _ := state
  waits _ _ := True
  typed _ _ := rfl
  named _ _ := rfl
  claims request state _ := by
    unfold statsTaskFor resolveForJob
    rw [Procedure.run_bind, Procedure.run_lift]
    cases resolveRepo platform state.db request.2 with
    | error failure => rfl
    | ok target => rfl
  secrets _ _ := rfl
  targets _ _ := rfl
  kept _ _ _ _ _ := trivial

/-- Claiming restores writes to the restores only. -/
theorem claimedRestores_frame (ids : List Uuid) :
    ids.foldl World.claimedRestore world =
      { world with
        db := { world.db with
          restoreRuns := (ids.foldl World.claimedRestore world).db.restoreRuns } } := by
  induction ids generalizing world with
  | nil => rfl
  | cons id rest ih =>
      rw [List.foldl_cons, ih]
      rfl

theorem get?_claimedRestores (ids : List Uuid) (id : Uuid) :
    (ids.foldl World.claimedRestore world).db.restoreRuns.get? id =
      (world.db.restoreRuns.get? id).map fun row =>
        if id ∈ ids ∧ row.status = .queued then RestoreUpdate.set world.now (.claim id) row
        else row := by
  induction ids generalizing world with
  | nil => simp
  | cons first rest ih =>
      rw [List.foldl_cons, ih]
      unfold World.claimedRestore
      dsimp only
      rw [Db.get?_updateRestores, Option.map_map]
      congr 1
      funext row
      simp only [Function.comp_apply, RestoreUpdate.hits, Bool.and_eq_true, decide_eq_true_eq,
        List.mem_cons]
      by_cases same : id = first
      · subst same
        by_cases queued : row.status = .queued
        · simp [queued, RestoreUpdate.set]
        · simp [queued]
      · simp [same]

end ClaimLoops

end AmberBackup
