import AmberBackup.Server.Inversions

/-! # The server starts a run at most once

A run is waited for, dispatched and executed by one call at a time. The delay of a retry,
the calls that may still start the run, and the starts there have been sum to at most one
(`start_bound`), and so do the delay and the calls that work on the run at all
(`work_bound`). No condition on the steps is needed.
-/

namespace AmberBackup

open Relational Transition Pool

/-- Restic is not started yet. -/
def Stage.beforeChild : Stage → Bool
  | .waiting | .opened => true
  | .child _ | .finishing | .failing | .deciding _ | .recorded => false

/-- What a stage counts for, where the stages past the start of restic count `past`. -/
def Stage.share (past : Nat) (stage : Stage) : Nat := if stage.beforeChild then 1 else past

/-- The share an execution has in a run. -/
def executionShare (past : Nat) (run : Uuid) : Option (Runner × Uuid × Stage) → Nat
  | none => 0
  | some (_, other, stage) => if other = run then stage.share past else 0

/-- The share a call has in a run: what it will dispatch and what it executes. -/
def Call.share (past : Nat) (run : Uuid) (call : Call) : Nat :=
  call.starting.count run + executionShare past run call.execution

/-- How often a call may still start restic for a run. -/
abbrev Call.mayStart (run : Uuid) (call : Call) : Nat := call.share 0 run

/-- How often a call works on a run, or will start a call that does. -/
abbrev Call.works (run : Uuid) (call : Call) : Nat := call.share 1 run

/-- Whether a retry still waits for its delay. -/
def delayed (db : Db) (run : Uuid) : Nat :=
  if (db.jobRuns.get? run).any fun row => row.notBefore.isSome then 1 else 0

/-- How often the server has started restic for a run. -/
def starts (run : Uuid) (journal : List Event) : Nat := journal.count (.started run)

/-- What the starts of a run count for, where the stages past the start count `past`. -/
def spent (past : Nat) (run : Uuid) (journal : List Event) : Nat := (1 - past) * starts run journal

theorem spent_append (past : Nat) (run : Uuid) (journal events : List Event) :
    spent past run (journal ++ events) = spent past run journal + spent past run events := by
  unfold spent starts
  rw [List.count_append, Nat.mul_add]

theorem spent_eq_zero {past : Nat} {run : Uuid} {events : List Event}
    (unstarted : .started run ∉ events) : spent past run events = 0 := by
  unfold spent starts
  rw [List.count_eq_zero.mpr unstarted, Nat.mul_zero]

theorem Call.Unbound.share {call : Call} (idle : call.Unbound) (past : Nat) (run : Uuid) :
    call.share past run = 0 := by
  simp [Call.share, idle.starting, idle.execution, executionShare]

theorem Call.share_of_execution {call : Call} {runner : Runner} {other : Uuid} {stage : Stage}
    (executes : call.execution = some (runner, other, stage)) (past : Nat) (run : Uuid) :
    call.share past run = if other = run then stage.share past else 0 := by
  have nothing : call.starting = [] := by
    cases call with
    | backup | prune | check => rfl
    | _ => cases executes
  simp [Call.share, nothing, executes, executionShare]

section Calls

variable (past : Nat) (run : Uuid)

@[simp] theorem share_waiting : Stage.waiting.share past = 1 := rfl

@[simp] theorem share_opened : Stage.opened.share past = 1 := rfl

@[simp] theorem share_child (deaf : Bool) : (Stage.child deaf).share past = past := rfl

@[simp] theorem share_finishing : Stage.finishing.share past = past := rfl

@[simp] theorem share_failing : Stage.failing.share past = past := rfl

@[simp] theorem share_deciding (aborted : Bool) : (Stage.deciding aborted).share past = past := rfl

@[simp] theorem share_recorded : Stage.recorded.share past = past := rfl

theorem le_share {past : Nat} (small : past ≤ 1) (stage : Stage) : past ≤ stage.share past := by
  unfold Stage.share
  split
  · exact small
  · exact Nat.le_refl past

@[simp] theorem share_done : Call.done.share past run = 0 := rfl

@[simp] theorem share_dispatch (other : Uuid) :
    (Call.runner (.dispatch other)).share past run = if other = run then 1 else 0 := by
  by_cases same : other = run <;> simp [Call.share, Call.starting, Call.execution,
    executionShare, same]

@[simp] theorem share_dispatchDue (runs : List Uuid) :
    (Call.runner (.dispatchDue runs)).share past run = runs.count run := rfl

@[simp] theorem share_failStale (staleBefore : Nat) (kinds : List RunKind)
    (stale : List Uuid) :
    (Call.runner (.failStale staleBefore kinds stale)).share past run = 0 := rfl

@[simp] theorem share_finalize (other : Uuid) (phase : FinalizePhase) :
    (Call.finalize other phase).share past run = 0 := rfl

@[simp] theorem share_notifyJobRun (other : Uuid) (phase : NotifyPhase) :
    (Call.notifyJobRun other phase).share past run = 0 := rfl

@[simp] theorem share_submitResult (agent task : Uuid) (result : TaskResult)
    (phase : ResultPhase) : (Call.submitResult agent task result phase).share past run = 0 := rfl

@[simp] theorem share_backup (other : Uuid) (phase : BackupPhase) :
    (Call.backup other phase).share past run =
      if other = run then phase.stage.share past else 0 := Call.share_of_execution rfl past run

@[simp] theorem share_prune (other repository : Uuid) (phase : PrunePhase) :
    (Call.prune other repository phase).share past run =
      if other = run then phase.stage.share past else 0 := Call.share_of_execution rfl past run

@[simp] theorem share_check (other repository : Uuid) (info : CheckInfo) (phase : CheckPhase) :
    (Call.check other repository info phase).share past run =
      if other = run then phase.stage.share past else 0 := Call.share_of_execution rfl past run

end Calls

theorem total_share_idle {calls : List Call} (idle : ∀ call ∈ calls, call.Idle) (past : Nat)
    (run : Uuid) : total (Call.share past run) calls = 0 :=
  total_eq_zero fun call member => (idle call member).share past run

theorem dispatched_share (db : Db) (other : Uuid) (past : Nat) (run : Uuid) :
    total (Call.share past run) (dispatched db other) ≤ if other = run then 1 else 0 := by
  rcases dispatched_cases db other with none | one
  · simp [none]
  · simp [one, BackupPhase.stage]

/-- A run the database does not have is nobody's. -/
theorem Grounded.nothing_of_missing {server : Server} (grounded : Grounded server) {run : Uuid}
    (missing : server.db.jobRuns.get? run = none) (past : Nat) :
    delayed server.db run = 0 ∧ total (Call.share past run) server.calls = 0 ∧
      spent past run server.journal = 0 := by
  have unknown : ∀ fact, ¬ Known server.db run fact := by
    rintro fact ⟨row, present, -⟩
    rw [missing] at present
    cases present
  refine ⟨by simp [delayed, missing], total_eq_zero fun call member => ?_, ?_⟩
  · have known := grounded.calls call member
    have dispatches : call.starting.count run = 0 :=
      List.count_eq_zero.mpr fun listed => unknown _ (known.starting run listed)
    cases executes : call.execution with
    | none => simp [Call.share, dispatches, executes, executionShare]
    | some execution =>
        obtain ⟨runner, other, stage⟩ := execution
        have different : other ≠ run := by
          rintro rfl
          exact unknown _ (known.execution runner other stage executes)
        simp [Call.share, dispatches, executes, executionShare, different]
  · exact spent_eq_zero fun listed => unknown _ (grounded.journal _ listed)

/-- The delay of a run after a statement that keeps `not_before`. -/
theorem delayed_updateRuns {db : Db} {now : Nat} {update : RunUpdate} (run : Uuid)
    (keeps : ∀ row, (update.set now row).notBefore = row.notBefore) :
    delayed ((Statement.updateRuns update).execute now db) run = delayed db run := by
  unfold delayed
  change (if ((db.updateRuns now update).jobRuns.get? run).any _ = true then 1 else 0) = _
  rw [db.get?_updateRuns]
  cases db.jobRuns.get? run with
  | none => rfl
  | some row =>
      simp only [Option.map_some, Option.any_some]
      split <;> simp_all

theorem delayed_passive {statement : Statement} (passive : statement.passive = true) (now : Nat)
    (db : Db) (run : Uuid) : delayed (statement.execute now db) run = delayed db run := by
  obtain ⟨stats, same⟩ := Statement.passive_runs passive now db run
  unfold delayed
  rw [same]
  cases db.jobRuns.get? run with
  | none => rfl
  | some row => rfl

theorem delayed_insert (db : Db) (now : Nat) (row : JobRun) (run : Uuid) :
    delayed ((Statement.insertRun row).execute now db) run =
      if run = freshId db.jobRuns then (if row.notBefore.isSome then 1 else 0)
      else delayed db run := by
  unfold delayed
  change (if ((db.jobRuns.insert (freshId db.jobRuns) row).get? run).any _ = true then 1 else 0)
    = _
  rw [Table.get?_insert (get?_freshId _)]
  split <;> simp_all

/-- The starter takes a delay over as a dispatch. -/
theorem delayed_clear (db : Db) (now asOf : Nat) (run : Uuid) :
    delayed ((Statement.updateRuns (.clearNotBefore asOf)).execute now db) run +
      (db.runsHit (.clearNotBefore asOf)).count run ≤ delayed db run := by
  have once : (db.runsHit (.clearNotBefore asOf)).count run ≤ 1 :=
    List.nodup_iff_count_le_one.mp (Table.nodup_keysWhere _) run
  unfold delayed
  change (if ((db.updateRuns now (.clearNotBefore asOf)).jobRuns.get? run).any _ = true then 1
    else 0) + _ ≤ _
  rw [db.get?_updateRuns]
  by_cases hit : run ∈ db.runsHit (.clearNotBefore asOf)
  · obtain ⟨row, present, hits⟩ := Db.mem_runsHit.mp hit
    have waits : row.notBefore.isSome = true := by
      simp only [RunUpdate.hits, Bool.and_eq_true] at hits
      cases waits : row.notBefore with
      | none => simp [waits] at hits
      | some instant => rfl
    rw [present]
    simp only [Option.map_some, hits, ↓reduceIte, Option.any_some, waits]
    simpa [RunUpdate.set] using once
  · rw [List.count_eq_zero.mpr hit]
    cases present : db.jobRuns.get? run with
    | none => simp
    | some row =>
        have misses : RunUpdate.hits db (.clearNotBefore asOf) run row = false := by
          by_contra hits
          exact hit (Db.mem_runsHit.mpr ⟨row, present, by simpa using hits⟩)
        simp [misses]

section Moves

variable {settings : Settings} {server : Server} {index : Nat} {current : Call}
  {outcome : Outcome} {effect : Effect}

/-- What a step adds to the shares in a run, beyond that of the call that takes it. -/
def Effect.shares (effect : Effect) (server : Server) (past : Nat) (run : Uuid) : Nat :=
  delayed (effect.statement.execute server.now server.db) run + effect.next.share past run +
    total (Call.share past run) effect.spawned + spent past run effect.events

/-- A step hands its share in a run on, or creates the run. -/
theorem Move.shares_le (move : Move settings server index current outcome effect) {past : Nat}
    (small : past ≤ 1) (run : Uuid) :
    effect.shares server past run ≤ delayed server.db run + current.share past run +
      if run = freshId server.db.jobRuns then 1 else 0 := by
  have absent : run = freshId server.db.jobRuns → delayed server.db run = 0 := by
    rintro rfl
    simp [delayed, get?_freshId]
  have nothing : spent past run [] = 0 := rfl
  unfold Effect.shares
  cases move with
  | idle was next spawned statement events =>
      have none : spent past run effect.events = 0 :=
        spent_eq_zero fun listed => Bool.noConfusion (events _ listed)
      rw [delayed_passive statement, next.share, total_share_idle spawned, none]
      omega
  | updateJob =>
      change delayed server.db run + 0 + 0 + spent past run [] ≤ _
      omega
  | createRun requester job =>
      rw [delayed_insert, nothing]
      by_cases fresh : run = freshId server.db.jobRuns
      · simp [fresh, createdRun]
      · simp [fresh, Ne.symm fresh]
  | dispatch other =>
      have handed := dispatched_share server.db other past run
      simp only [Statement.execute_nothing, share_done, share_dispatch, nothing]
      omega
  | dispatchDue other rest =>
      have handed := dispatched_share server.db other past run
      simp only [Statement.execute_nothing, share_dispatchDue, List.count_cons, beq_iff_eq, nothing]
      omega
  | startDueRetries asOf =>
      have cleared := delayed_clear server.db server.now asOf run
      simp only [share_dispatchDue, total_nil, nothing]
      omega
  | sweep staleBefore kind kinds stale error =>
      have none : spent past run
          ((server.db.runsHit (.failStale kind staleBefore error)).map Event.timedOut) = 0 := by
        refine spent_eq_zero fun listed => ?_
        obtain ⟨_, -, equal⟩ := List.mem_map.mp listed
        cases equal
      rw [delayed_updateRuns run fun _ => rfl, none]
      simp
  | swept staleBefore stale =>
      have none : total (Call.share past run)
          (stale.map fun run => Call.finalize run .retryRead) = 0 := by
        refine total_eq_zero fun call member => ?_
        obtain ⟨_, -, equal⟩ := List.mem_map.mp member
        exact equal ▸ rfl
      simp only [Statement.execute_nothing, share_done, none, nothing]
      omega
  | abandon other =>
      simp only [Statement.execute_nothing, share_done, total_nil, nothing]
      omega
  | advance was becomes idle =>
      rw [Call.share_of_execution was, Call.share_of_execution becomes,
        total_share_idle idle, Statement.execute_nothing, nothing]
      omega
  | register was becomes =>
      rw [Call.share_of_execution was, Call.share_of_execution becomes,
        Statement.execute_nothing, nothing, total_nil]
      omega
  | openRun other context =>
      rw [delayed_updateRuns run fun _ => rfl, nothing]
      simp [BackupPhase.stage]
  | start was becomes =>
      rw [Call.share_of_execution was, Call.share_of_execution becomes,
        Statement.execute_nothing]
      unfold spent starts
      rw [List.count_singleton]
      split
      case isTrue same =>
        subst same
        simp [Stage.share, Stage.beforeChild]
        omega
      case isFalse different => simp [different]
  | @fails _ _ _ _ _ stage was before becomes =>
      have less := le_share small stage
      rw [Call.share_of_execution becomes, Call.share_of_execution was,
        Statement.execute_nothing, nothing, total_nil]
      simp only [share_failing]
      split <;> omega
  | exits exit was becomes result =>
      have none : ∀ (killed : Bool) (other : Uuid),
          spent past run (if killed = true then [] else [Event.finished other]) = 0 := by
        intro killed other
        cases killed <;> exact spent_eq_zero (by simp)
      rw [Call.share_of_execution becomes, Call.share_of_execution was,
        Statement.execute_nothing, none]
      rcases result with ⟨equal, -⟩ | equal <;> simp [equal]
  | recordSuccess was becomes write idle =>
      rw [Call.share_of_execution becomes, Call.share_of_execution was, total_share_idle idle,
        delayed_updateRuns, nothing]
      · simp
      · rcases write with ⟨-, _, _, _, _, equal⟩ | ⟨-, _, equal⟩ <;> subst equal <;> exact fun _ => rfl
  | pruneRow other context =>
      rw [delayed_insert, nothing]
      by_cases fresh : run = freshId server.db.jobRuns
      · simp [fresh, localPruneRow, BackupPhase.stage, PrunePhase.stage]
      · simp [fresh, Ne.symm fresh, BackupPhase.stage]
  | pruneRefused other context error =>
      simp [BackupPhase.stage, nothing]
  | readFlag was becomes =>
      rw [Call.share_of_execution becomes, Call.share_of_execution was,
        Statement.execute_nothing, nothing]
      simp
  | recordFailure was owner becomes =>
      rw [Call.share_of_execution becomes, Call.share_of_execution was,
        delayed_updateRuns run fun _ => rfl, nothing]
      simp
  | settle other repository info verdict next _ becomes =>
      have less := le_share small (CheckPhase.settle verdict).stage
      rw [delayed_updateRuns run fun _ => rfl, nothing]
      simp only [share_check, becomes, share_recorded, total_nil]
      split <;> omega
  | patchRepository other repository info verdict =>
      rw [delayed_passive rfl, nothing]
      simp [CheckPhase.stage]
  | finishBackup other =>
      simp [nothing]
      omega
  | finish was owner =>
      simp [nothing]
      omega
  | insertCheck was job repository trigger onServer info =>
      rw [delayed_insert, nothing]
      by_cases fresh : run = freshId server.db.jobRuns
      · cases onServer <;> simp [fresh, checkRow, CheckPhase.stage]
      · cases onServer <;> simp [fresh, Ne.symm fresh]
  | insertPrune was job repository =>
      rw [delayed_insert, nothing]
      by_cases fresh : run = freshId server.db.jobRuns
      · simp [fresh, localPruneRow, PrunePhase.stage]
      · simp [fresh, Ne.symm fresh]
  | retryInsert other failed notBefore =>
      rw [delayed_insert, spent_eq_zero (by simp)]
      by_cases fresh : run = freshId server.db.jobRuns
      · simp [fresh, retryRow]
      · simp [fresh]
  | notify other status channelIds =>
      have none : spent past run (if enabledChannels server.db channelIds = [] then [] else
          [Event.notified other status (enabledChannels server.db channelIds)]) = 0 := by
        split <;> exact spent_eq_zero (by simp)
      rw [Statement.execute_nothing, none]
      simp
  | cancelWrite other error =>
      have none : spent past run (Event.cancelAnswered other ::
          if queuedRow server.db other then [Event.withdrawn other] else []) = 0 := by
        split <;> exact spent_eq_zero (by simp)
      rw [delayed_updateRuns run fun _ => rfl, none]
      simp
      omega
  | claim was becomes other agent =>
      have none : spent past run (if !(server.db.runsHit (.claim other agent)).isEmpty then
          [Event.claimed other agent] else []) = 0 := by
        split <;> exact spent_eq_zero (by simp)
      rw [delayed_updateRuns run fun _ => rfl, none, becomes.share]
      simp
      omega
  | cancelProbe =>
      simp [spent_eq_zero]
      omega
  | reportCancelled | reportRun =>
      rw [delayed_updateRuns run fun _ => rfl, nothing]
      simp
  | reportSettle agent task repository result info _ becomes =>
      rw [delayed_updateRuns run fun _ => rfl, nothing]
      rcases becomes with same | same <;> simp [same]
  | reportStats agent task job repository result trigger _ statement spawned passive idle becomes =>
      rw [delayed_passive passive, total_share_idle idle, nothing]
      rcases becomes with same | same | ⟨same, -⟩ <;> simp [same]
  | reportPrune agent task job repository result trigger prune _ spawned idle =>
      rw [delayed_insert, total_share_idle idle, nothing]
      by_cases fresh : run = freshId server.db.jobRuns
      · simp [fresh, AmberBackup.pruneRow]
      · simp [fresh]
  | reportPatch =>
      rw [delayed_passive rfl, nothing]
      simp
  | _ =>
      simp [nothing]

/-- The shares in each run sum to at most one. -/
def ShareBound (past : Nat) (server : Server) : Prop :=
  ∀ run, delayed server.db run + total (Call.share past run) server.calls +
    spent past run server.journal ≤ 1

theorem ShareBound.step {past : Nat} {next : Server} {action : Action} (small : past ≤ 1)
    (bound : ShareBound past server) (grounded : Grounded server)
    (stepped : server.step settings action = some next) : ShareBound past next := by
  intro run
  have before := bound run
  rcases Server.step_cases stepped with ⟨elapsed, -, same⟩ | ⟨entry, -, same⟩ |
    ⟨index, outcome, current, effect, -, present, move, same⟩
  · exact same ▸ before
  · subst same
    have none := (Entry.call_unbound settings server.now entry).share past run
    simp only [total_append, total_cons, none, total_nil]
    omega
  · have moved := move.shares_le small run
    have counted : total (Call.share past run)
        (advance server.calls index effect.next effect.spawned) + current.share past run =
          total (Call.share past run) server.calls + effect.next.share past run +
            total (Call.share past run) effect.spawned := total_advance present
    have journal := spent_append past run server.journal effect.events
    have mine : current.share past run ≤ total (Call.share past run) server.calls :=
      le_total present
    subst same
    unfold Effect.shares at moved
    change delayed (effect.statement.execute server.now server.db) run +
      total (Call.share past run) (advance server.calls index effect.next effect.spawned) +
        spent past run (server.journal ++ effect.events) ≤ 1
    by_cases fresh : run = freshId server.db.jobRuns
    · obtain ⟨still, nobody, never⟩ :=
        grounded.nothing_of_missing (fresh ▸ get?_freshId server.db.jobRuns) past
      rw [if_pos fresh] at moved
      omega
    · rw [if_neg fresh] at moved
      omega

end Moves

section Reachable

variable {settings : Settings} {allowed : Server → Action → Prop} {server : Server}

theorem share_bound (reached : (runningServer settings).Reachable allowed server) {past : Nat}
    (small : past ≤ 1) : ShareBound past server := by
  refine System.Invariant.onTopOf _ _ (fun _ here => grounded_of_reachable here) ?_ ?_ reached
  · intro state fresh run
    simp [delayed, spent, starts, Server.Fresh.jobRuns fresh, Server.Fresh.calls fresh,
      Server.Fresh.journal fresh]
  · intro state action next grounded _ bound _ stepped
    exact bound.step small grounded stepped

/-- In every reachable state a run was started at most once by the server, and not at all
while a call may still start it or a delay holds it back. -/
theorem start_bound (reached : (runningServer settings).Reachable allowed server) (run : Uuid) :
    delayed server.db run + total (Call.mayStart run) server.calls +
      starts run server.journal ≤ 1 := by
  have bound := share_bound reached (Nat.zero_le 1) run
  simpa [spent] using bound

/-- In every reachable state at most one call works on a run, and none does while a delay
holds it back. -/
theorem work_bound (reached : (runningServer settings).Reachable allowed server) (run : Uuid) :
    delayed server.db run + total (Call.works run) server.calls ≤ 1 := by
  have bound := share_bound reached (Nat.le_refl 1) run
  simpa [spent] using bound

/-- Two executions of one run are one call's. -/
theorem one_execution (reached : (runningServer settings).Reachable allowed server)
    {first second : Nat} {call other : Call} {runner runner' : Runner} {run : Uuid}
    {stage stage' : Stage} (present : server.calls[first]? = some call)
    (present' : server.calls[second]? = some other)
    (executes : call.execution = some (runner, run, stage))
    (executes' : other.execution = some (runner', run, stage')) : first = second := by
  by_contra different
  have bound := work_bound reached run
  have both : call.share 1 run + other.share 1 run ≤ total (Call.works run) server.calls :=
    add_le_total present present' different
  have one := le_share (Nat.le_refl 1) stage
  have two := le_share (Nat.le_refl 1) stage'
  rw [Call.share_of_execution executes, Call.share_of_execution executes', if_pos rfl,
    if_pos rfl] at both
  omega

end Reachable

end AmberBackup
