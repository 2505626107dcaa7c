import AmberBackup.Server.RestoreOwners
import AmberBackup.Server.SingleExecution

/-! # Late progress

While a run or a restore is executed its progress is written, by a call of its own on the
server and by the posts of an agent, and its result by another. All these writes ask for the
status of the row, except for the progress of a backup on the server, which lands on whatever
it finds. The figures of a recorded result stay as long as that progress finds its run running
and the server opens no run that an agent was handed; those of a restore stay in any case
(`figures_stay`).
-/

namespace AmberBackup

open Relational Transition Pool

/-! ## Results -/

/-- The statement a step executes. -/
def Server.statement (settings : Settings) (server : Server) : Action → Option Statement
  | .resume index outcome =>
      (server.calls[index]?).bind fun call =>
        (call.step settings server index outcome).map (·.statement)
  | .tick _ | .begin _ => none

/-- The run whose result an update records. -/
def RunUpdate.records : RunUpdate → Option Uuid
  | .succeedLocal run .. | .failLocal run .. | .cancelledOnAgent run _ | .recordResult run _ =>
      some run
  | .openLocal _ | .succeedPrune .. | .writeStats .. | .failStale .. | .clearNotBefore _
  | .forceCancel .. | .settleCheck .. | .claim .. | .backupProgress .. => none

/-- The figures after a result: its own, or those of the progress if it has none. -/
def RunUpdate.figures (row : JobRun) : RunUpdate → Option String
  | .succeedLocal _ _ stats _ _ => some stats
  | .recordResult _ result => result.stats
  | _ => row.stats

/-- Whether the step records a result of a run with these figures. -/
def recordsRun (settings : Settings) (server : Server) (action : Action) (run : Uuid)
    (stats : Option String) : Bool :=
  match server.statement settings action with
  | some (.updateRuns update) =>
      update.records = some run && (server.db.jobRuns.get? run).any fun row =>
        update.hits server.db run row && update.figures row = stats
  | _ => false

def RestoreUpdate.records : RestoreUpdate → Option Uuid
  | .succeedLocal id .. | .failLocal id .. | .cancelledOnAgent id _ | .recordResult id _ => some id
  | .openLocal _ | .writeStats .. | .cancel .. | .claim _ | .restoreProgress .. => none

def RestoreUpdate.figures (row : RestoreRun) : RestoreUpdate → Option String
  | .succeedLocal _ stats _ _ _ => some stats
  | .recordResult _ result => result.stats
  | _ => row.stats

/-- Whether the step records a result of a restore with these figures. -/
def recordsRestore (settings : Settings) (server : Server) (action : Action) (id : Uuid)
    (stats : Option String) : Bool :=
  match server.statement settings action with
  | some (.updateRestores update) =>
      update.records = some id && (server.db.restoreRuns.get? id).any fun row =>
        update.hits id row && update.figures row = stats
  | _ => false

/-- Progress of a backup on the server finds its run running, and an opening write finds its
run unclaimed. -/
def Statement.inTime (db : Db) : Statement → Bool
  | .updateRuns (.writeStats run _) =>
      (db.jobRuns.get? run).all fun row => row.status = .running
  | .updateRuns (.openLocal run) => (db.jobRuns.get? run).all fun row => row.agentId = none
  | _ => true

abbrev InTime (settings : Settings) (server : Server) (action : Action) : Prop :=
  (server.statement settings action).all (·.inTime server.db) = true

section Step

variable {settings : Settings} {server : Server} {index : Nat} {current : Call}
  {outcome : Outcome} {effect : Effect} {id : Uuid} {stats : Option String}

theorem Server.statement_resume (present : server.calls[index]? = some current)
    (taken : current.step settings server index outcome = some effect) :
    server.statement settings (.resume index outcome) = some effect.statement := by
  unfold Server.statement
  dsimp only
  rw [present, Option.bind_some, taken, Option.map_some]

theorem recordsRun_iff {action : Action} :
    recordsRun settings server action id stats = true ↔
      ∃ update row, server.statement settings action = some (.updateRuns update) ∧
        update.records = some id ∧ server.db.jobRuns.get? id = some row ∧
        update.hits server.db id row = true ∧ update.figures row = stats := by
  unfold recordsRun
  constructor
  · intro records
    split at records
    · next update executed =>
        simp only [Bool.and_eq_true, decide_eq_true_eq, Option.any_eq_true] at records
        obtain ⟨own, row, found, hit, figures⟩ := records
        exact ⟨update, row, executed, own, found, hit, figures⟩
    · cases records
  · rintro ⟨update, row, executed, own, found, hit, figures⟩
    rw [executed]
    simp [own, found, hit, figures]

theorem recordsRestore_iff {action : Action} :
    recordsRestore settings server action id stats = true ↔
      ∃ update row, server.statement settings action = some (.updateRestores update) ∧
        update.records = some id ∧ server.db.restoreRuns.get? id = some row ∧
        update.hits id row = true ∧ update.figures row = stats := by
  unfold recordsRestore
  constructor
  · intro records
    split at records
    · next update executed =>
        simp only [Bool.and_eq_true, decide_eq_true_eq, Option.any_eq_true] at records
        obtain ⟨own, row, found, hit, figures⟩ := records
        exact ⟨update, row, executed, own, found, hit, figures⟩
    · cases records
  · rintro ⟨update, row, executed, own, found, hit, figures⟩
    rw [executed]
    simp [own, found, hit, figures]

theorem inTime_resume (permitted : InTime settings server (.resume index outcome))
    (present : server.calls[index]? = some current)
    (taken : current.step settings server index outcome = some effect) :
    effect.statement.inTime server.db = true := by
  unfold InTime at permitted
  rw [Server.statement_resume present taken] at permitted
  exact permitted

/-- An opening write that is in time finds its run unclaimed. -/
theorem unclaimed_of_inTime (inTime : effect.statement.inTime server.db = true)
    (issues : effect.statement = .updateRuns (.openLocal id)) {row : JobRun}
    (found : server.db.jobRuns.get? id = some row) : row.agentId = none := by
  rw [issues] at inTime
  change ((server.db.jobRuns.get? id).all fun row => row.agentId = none) = true at inTime
  rw [found] at inTime
  exact of_decide_eq_true inTime

/-! ## Runs -/

/-- The outcome is recorded, or will be that of a failure. -/
def Stage.closing : Stage → Bool
  | .failing | .deciding _ | .recorded => true
  | .waiting | .opened | .child _ | .finishing => false

/-- A run whose result is recorded: no call will open it or record a success of it. -/
structure RunRecorded (server : Server) (id : Uuid) (stats : Option String) : Prop where
  row : Known server.db id fun row => row.status.final = true ∧ row.stats = stats
  closing : ∀ call ∈ server.calls, ∀ runner stage,
    call.execution = some (runner, id, stage) → stage = .waiting ∨ stage.closing = true
  unopened : delayed server.db id + total (Call.share 0 id) server.calls = 0 ∨
    Known server.db id fun row => row.agentId ≠ none

/-- An execution that closes goes on closing. -/
theorem Move.next_closing (move : Move settings server index current outcome effect)
    {runner runner' : Runner} {run run' : Uuid} {stage stage' : Stage}
    (was : current.execution = some (runner, run, stage)) (closing : stage.closing = true)
    (executes : effect.next.execution = some (runner', run', stage')) :
    stage'.closing = true := by
  have same : ∀ {runner : Runner} {run : Uuid} {other : Stage},
      current.execution = some (runner, run, other) → other.closing = true := by
    intro runner run other executes
    rw [was] at executes
    cases executes
    exact closing
  cases move with
  | idle idle | insertCheck idle | insertPrune idle | claim idle =>
      exact (idle.not_executing was).elim
  | advance was' becomes | register was' becomes =>
      rw [becomes] at executes
      cases executes
      exact same was'
  | start was' | recordSuccess was' | exits _ was' =>
      cases same was'
  | fails was' before =>
      have closes := same was'
      rcases before with equal | ⟨deaf, equal⟩ | equal <;> rw [equal] at closes <;> cases closes
  | readFlag was' becomes | recordFailure was' owner becomes =>
      rw [becomes] at executes
      cases executes
      rfl
  | settle other repository info verdict next _ becomes =>
      cases executes
      rw [becomes]
      rfl
  | patchRepository | pruneRow | pruneRefused =>
      cases executes
      rfl
  | openRun => cases same rfl
  | abandon | finishBackup | finish => cases executes
  | _ => cases was

theorem share_zero_le_one (call : Call) (run : Uuid) : call.share 0 run ≤ call.share 1 run := by
  unfold Call.share
  refine Nat.add_le_add_left ?_ _
  unfold executionShare
  split
  · exact Nat.le_refl 0
  · split
    · unfold Stage.share
      split
      · exact Nat.le_refl 1
      · exact Nat.zero_le 1
    · exact Nat.le_refl 0

/-- What no call may start stays so. -/
theorem unopened_after (present : server.calls[index]? = some current)
    (move : Move settings server index current outcome effect)
    (known : id ≠ freshId server.db.jobRuns)
    (before : delayed server.db id + total (Call.share 0 id) server.calls = 0) :
    delayed (server.after index effect).db id +
      total (Call.share 0 id) (server.after index effect).calls = 0 := by
  have moved := move.shares_le (Nat.zero_le 1) id
  have counted : total (Call.share 0 id)
      (advance server.calls index effect.next effect.spawned) + current.share 0 id =
        total (Call.share 0 id) server.calls + effect.next.share 0 id +
          total (Call.share 0 id) effect.spawned := total_advance present
  have mine : current.share 0 id ≤ total (Call.share 0 id) server.calls := le_total present
  rw [if_neg known] at moved
  unfold Effect.shares at moved
  change delayed (effect.statement.execute server.now server.db) id +
    total (Call.share 0 id) (advance server.calls index effect.next effect.spawned) = 0
  omega

/-- The opening write of a recorded run is not in time. -/
theorem RunRecorded.not_opening (recorded : RunRecorded server id stats)
    (member : current ∈ server.calls) (inTime : effect.statement.inTime server.db = true)
    (move : Move settings server index current outcome effect)
    (issues : effect.statement = .updateRuns (.openLocal id)) : False := by
  obtain ⟨context, opening⟩ := move.update_source issues
  rcases recorded.unopened with none | ⟨row, found, handed⟩
  · have mine : current.share 0 id ≤ total (Call.share 0 id) server.calls :=
      le_total_of_mem member
    rw [opening, share_backup, if_pos rfl] at mine
    simp only [BackupPhase.stage, share_waiting] at mine
    omega
  · exact handed (unclaimed_of_inTime inTime issues found)

/-- Only a success and the progress of a backup on the server change the figures of a settled
run. -/
theorem RunUpdate.set_stats {db : Db} {now : Nat} {update : RunUpdate} {row : JobRun}
    (hit : update.hits db id row = true) (final : row.status.final = true) :
    (update.set now row).stats = row.stats ∨
      (∃ snapshotId stats forgetResult log,
        update = .succeedLocal id snapshotId stats forgetResult log) ∨
      ∃ stats, update = .writeStats id stats := by
  cases update with
  | succeedLocal run snapshotId stats forgetResult log =>
      simp only [RunUpdate.hits, decide_eq_true_eq] at hit
      exact Or.inr (Or.inl ⟨snapshotId, stats, forgetResult, log, by rw [hit]⟩)
  | writeStats run stats =>
      simp only [RunUpdate.hits, decide_eq_true_eq] at hit
      exact Or.inr (Or.inr ⟨stats, by rw [hit]⟩)
  | recordResult | backupProgress =>
      simp only [RunUpdate.hits, Bool.and_eq_true, decide_eq_true_eq] at hit
      rw [hit.2] at final
      cases final
  | _ => exact Or.inl rfl

theorem RunRecorded.row_after (recorded : RunRecorded server id stats)
    (member : current ∈ server.calls) (inTime : effect.statement.inTime server.db = true)
    (move : Move settings server index current outcome effect) :
    Known (server.after index effect).db id fun row =>
      row.status.final = true ∧ row.stats = stats := by
  obtain ⟨row, found, final, same⟩ := recorded.row
  obtain ⟨after, later, -⟩ := effect.statement.execute_later server.now server.db id row found
  refine ⟨after, later, ?_⟩
  rcases Statement.run_after later with ⟨-, fresh⟩ | ⟨old, before, kept⟩
  · rw [fresh, get?_freshId] at found
    cases found
  · rw [found] at before
    cases before
    rcases kept with equal | ⟨update, issues, hit, equal⟩
    · subst equal
      exact ⟨final, same⟩
    · subst equal
      have stays : update ≠ .openLocal id := fun opens =>
        recorded.not_opening member inTime move (opens ▸ issues)
      refine ⟨(RunUpdate.set_final_of_final server.now hit final).resolve_right stays, ?_⟩
      have source := move.update_source issues
      rcases @RunUpdate.set_stats id server.db server.now update row hit final with unchanged |
        ⟨_, _, _, _, succeeds⟩ | ⟨_, writes⟩
      · exact unchanged.trans same
      · subst succeeds
        rcases recorded.closing current member _ _ source.1 with impossible | impossible <;>
          cases impossible
      · -- progress lands on running rows only
        rw [issues, writes] at inTime
        change ((server.db.jobRuns.get? id).all fun row => row.status = .running) = true at inTime
        rw [found] at inTime
        rw [show row.status = .running from of_decide_eq_true inTime] at final
        cases final

theorem RunRecorded.after (recorded : RunRecorded server id stats)
    (present : server.calls[index]? = some current)
    (inTime : effect.statement.inTime server.db = true)
    (move : Move settings server index current outcome effect) :
    RunRecorded (server.after index effect) id stats := by
  have member := List.mem_of_getElem? present
  refine ⟨recorded.row_after member inTime move, ?_, ?_⟩
  · intro call listed runner stage executes
    by_cases waiting : stage = .waiting
    · exact Or.inl waiting
    · rcases mem_advance listed with old | leaves
      · exact recorded.closing call old runner stage executes
      · rcases move.opened_from leaves executes waiting with ⟨earlier, executed, past, same⟩ |
          ⟨issues, -⟩ | ⟨fresh, -⟩
        · subst same
          have closing :=
            (recorded.closing current member runner earlier executed).resolve_left past
          exact Or.inr (move.next_closing executed closing executes)
        · exact (recorded.not_opening member inTime move issues).elim
        · exact absurd fresh recorded.row.ne_fresh
  · rcases recorded.unopened with none | handed
    · exact Or.inl (unopened_after present move recorded.row.ne_fresh none)
    · exact Or.inr (handed.later (effect.statement.execute_later server.now server.db)
        stable_handed)

theorem RunRecorded.step {next : Server} {action : Action}
    (recorded : RunRecorded server id stats) (permitted : InTime settings server action)
    (stepped : server.step settings action = some next) : RunRecorded next id stats := by
  rcases Server.step_taken stepped with ⟨elapsed, -, same⟩ | ⟨entry, -, same⟩ |
    ⟨index, outcome, current, effect, resumes, present, taken, same⟩
  · subst same
    exact ⟨recorded.row, recorded.closing, recorded.unopened⟩
  · subst same
    have idle := Entry.call_unbound settings server.now entry
    refine ⟨recorded.row, ?_, ?_⟩
    · intro call member runner stage executes
      rcases List.mem_append.mp member with old | new
      · exact recorded.closing call old runner stage executes
      · rw [List.mem_singleton.mp new] at executes
        exact (idle.not_executing executes).elim
    · rcases recorded.unopened with none | handed
      · have nothing := idle.share 0 id
        simp only [total_append, total_cons, total_nil, nothing]
        exact Or.inl none
      · exact Or.inr handed
  · subst resumes
    subst same
    exact recorded.after present (inTime_resume permitted present taken) (Call.step_move taken)

/-- The result of an execution on the server. -/
theorem recorded_of_execution {allowed : Server → Action → Prop}
    (reached : (runningServer settings).Reachable allowed server)
    (present : server.calls[index]? = some current)
    (move : Move settings server index current outcome effect) {runner : Runner} {stage : Stage}
    (was : current.execution = some (runner, id, stage))
    (started : stage.beforeChild = false)
    (becomes : effect.next.execution = some (runner, id, .recorded))
    (row : Known (server.after index effect).db id fun row =>
      row.status.final = true ∧ row.stats = stats) :
    RunRecorded (server.after index effect) id stats := by
  have known : id ≠ freshId server.db.jobRuns :=
    ((grounded_of_reachable reached).known (List.mem_of_getElem? present) was).ne_fresh
  refine ⟨row, ?_, Or.inl (unopened_after present move known ?_)⟩
  · intro call listed runner' stage' executes
    by_cases waiting : stage' = .waiting
    · exact Or.inl waiting
    · right
      have recorded : call = effect.next → stage'.closing = true := by
        intro same
        rw [same, becomes] at executes
        cases executes
        rfl
      obtain ⟨place, stands⟩ := List.mem_iff_getElem?.mp listed
      rcases getElem?_advance stands with ⟨-, same⟩ | ⟨apart, stood⟩ | ⟨-, spawned⟩
      · exact recorded same
      · exact absurd (one_execution reached stood present executes was) apart
      · rcases move.opened_from (Or.inr spawned) executes waiting with ⟨_, _, _, same⟩ |
          ⟨-, context, opening⟩ | ⟨fresh, -⟩
        · exact recorded same
        · rw [opening] at was
          cases was
          cases started
        · exact absurd fresh known
  · -- the execution is the one share in the run, and it counts no more
    have bound : delayed server.db id + total (Call.share 1 id) server.calls ≤ 1 :=
      work_bound reached id
    have mine : current.share 1 id = 1 := by
      rw [Call.share_of_execution was, if_pos rfl, Stage.share, started]
      rfl
    have others : total (Call.share 0 id) server.calls = 0 := by
      refine total_eq_zero fun call member => ?_
      obtain ⟨place, stands⟩ := List.mem_iff_getElem?.mp member
      by_cases own : place = index
      · subst own
        rw [present] at stands
        cases stands
        rw [Call.share_of_execution was, if_pos rfl, Stage.share, started]
        rfl
      · have both : call.share 1 id + current.share 1 id ≤ total (Call.share 1 id) server.calls :=
          add_le_total stands present own
        have less := share_zero_le_one call id
        omega
    have within : current.share 1 id ≤ total (Call.share 1 id) server.calls := le_total present
    omega

theorem openedKept_of_reachable
    (reached : (runningServer settings).Reachable (InTime settings) server) :
    OpenedKept server := by
  refine System.Invariant.onTopOf _ _ (fun _ here => grounded_of_reachable here) ?_ ?_ reached
  · intro state fresh call listed
    rw [Server.Fresh.calls fresh] at listed
    cases listed
  · intro state action next grounded _ kept permitted stepped
    rcases Server.step_taken stepped with ⟨elapsed, -, same⟩ | ⟨entry, -, same⟩ |
      ⟨index, outcome, current, effect, resumes, present, taken, same⟩
    · subst same
      exact kept
    · subst same
      have idle := Entry.call_unbound settings state.now entry
      intro call member runner run stage executes opened
      rcases List.mem_append.mp member with old | new
      · exact kept call old runner run stage executes opened
      · rw [List.mem_singleton.mp new] at executes
        exact (idle.not_executing executes).elim
    · subst resumes
      subst same
      refine kept.after grounded present ?_ (Call.step_move taken)
      intro run context row opening found
      refine unclaimed_of_inTime (inTime_resume permitted present taken) ?_ found
      subst opening
      cases outcome <;> cases taken
      rfl

/-- The result of an agent is about a run the agent was handed. -/
theorem recorded_of_report (kept : OpenedKept (server.after index effect))
    (row : Known (server.after index effect).db id fun row =>
      row.status.final = true ∧ row.stats = stats)
    (handed : Known (server.after index effect).db id fun row => row.agentId ≠ none) :
    RunRecorded (server.after index effect) id stats := by
  refine ⟨row, ?_, Or.inr handed⟩
  intro call listed runner stage executes
  by_contra opened
  obtain ⟨row, found, claimed⟩ := handed
  obtain ⟨other, found', free⟩ :=
    kept call listed runner id stage executes fun waiting => opened (Or.inl waiting)
  rw [found] at found'
  cases found'
  exact claimed free.2

/-- A recorded run has the figures of its result. -/
theorem RunUpdate.set_records (now : Nat) {update : RunUpdate} {row : JobRun}
    (records : update.records = some id) :
    (update.set now row).status.final = true ∧ (update.set now row).stats = update.figures row := by
  cases update with
  | succeedLocal | cancelledOnAgent => exact ⟨rfl, rfl⟩
  | failLocal run aborted => cases aborted <;> exact ⟨rfl, rfl⟩
  | recordResult run result =>
      refine ⟨?_, rfl⟩
      unfold RunUpdate.set
      dsimp only
      cases result.status <;> rfl
  | _ => cases records

theorem recorded_of_records {next : Server} {action : Action}
    (reached : (runningServer settings).Reachable (InTime settings) server)
    (permitted : InTime settings server action)
    (stepped : server.step settings action = some next)
    (recording : recordsRun settings server action id stats = true) :
    RunRecorded next id stats := by
  have later := openedKept_of_reachable (reached.step permitted stepped)
  obtain ⟨update, row, executed, records, found, hit, figures⟩ := recordsRun_iff.mp recording
  rcases Server.step_taken stepped with ⟨elapsed, same, -⟩ | ⟨entry, same, -⟩ |
    ⟨index, outcome, current, effect, resumes, present, taken, same⟩
  · subst same
    cases executed
  · subst same
    cases executed
  · subst resumes
    subst same
    rw [Server.statement_resume present taken] at executed
    have issues := Option.some.inj executed
    have move : Move settings server index current outcome effect := Call.step_move taken
    have source := move.update_source issues
    have after : Known (server.after index effect).db id fun row =>
        row.status.final = true ∧ row.stats = stats := by
      change Known (effect.statement.execute server.now server.db) id _
      rw [issues]
      refine Known.updated (Db.mem_runsHit.mpr ⟨row, found, hit⟩) ?_
      intro other here _
      rw [found] at here
      cases here
      obtain ⟨final, own⟩ := @RunUpdate.set_records id server.now update row records
      exact ⟨final, own.trans figures⟩
    have reported (overrides : current.overrides = some id)
        (writes : ∀ error, update ≠ .forceCancel id error) :
        RunRecorded (server.after index effect) id stats := by
      refine recorded_of_report later after ?_
      have reports : current.reporting = some id := by
        cases current with
        | submitResult agent task result phase =>
            cases phase <;> cases overrides <;> rfl
        | cancelRun run phase =>
            cases phase with
            | write error =>
                cases overrides
                exact absurd (Statement.updateRuns.inj (issues.symm.trans (by
                  cases outcome <;> cases taken
                  rfl))) (writes error)
            | _ => cases overrides
        | _ => cases overrides
      have handed := ((grounded_of_reachable reached).calls current
        (List.mem_of_getElem? present)).reporting id reports
      exact (handed.weaken fun _ both => both.2).later
        (effect.statement.execute_later server.now server.db) stable_handed
    cases update with
    | succeedLocal =>
        cases records
        exact recorded_of_execution reached present move source.1 rfl source.2 after
    | failLocal =>
        cases records
        obtain ⟨runner, -, executes, becomes⟩ := source
        exact recorded_of_execution reached present move executes rfl becomes after
    | cancelledOnAgent | recordResult =>
        cases records
        exact reported source fun error => RunUpdate.noConfusion
    | _ => cases records

/-! ## Restores -/

/-- A restore whose result is recorded: no call is going to write it again. -/
structure RestoreRecorded (server : Server) (id : Uuid) (stats : Option String) : Prop where
  row : KnownRestore server.db id fun row => row.status.final = true ∧ row.stats = stats
  closed : ∀ call ∈ server.calls, call.restoring = some id →
    call = .restore id .unregister ∨ call = .dispatchRestore id
  undispatched : .dispatchRestore id ∈ server.calls →
    KnownRestore server.db id fun row => row.destination.agentId ≠ none

theorem RestoreRecorded.ne_fresh (recorded : RestoreRecorded server id stats) :
    id ≠ freshId server.db.restoreRuns := by
  rintro rfl
  obtain ⟨row, found, -⟩ := recorded.row
  rw [get?_freshId] at found
  cases found

theorem RestoreRecorded.not_writing (recorded : RestoreRecorded server id stats)
    (member : current ∈ server.calls) :
    current.opensRestore ≠ some id ∧ current.holdsRestore id ≠ true := by
  have apart {phase : RestorePhase} (same : current = .restore id phase) : phase = .unregister := by
    rcases recorded.closed current member (by rw [same]; rfl) with equal | equal
    · rw [same] at equal
      cases equal
      rfl
    · rw [same] at equal
      cases equal
  constructor
  · intro opens
    cases current with
    | restore other phase =>
        cases phase with
        | openRun run =>
            cases opens
            cases apart rfl
        | _ => cases opens
    | _ => cases opens
  · intro holds
    obtain ⟨phase, same, held⟩ := Call.holdsRestore_iff.mp holds
    rw [apart same] at held
    cases held

theorem RestoreRecorded.after (recorded : RestoreRecorded server id stats)
    (present : server.calls[index]? = some current)
    (move : RestoreMove settings server index current effect) :
    RestoreRecorded (server.after index effect) id stats := by
  have member := List.mem_of_getElem? present
  obtain ⟨notOpening, notHolding⟩ := recorded.not_writing member
  refine ⟨?_, ?_, ?_⟩
  · obtain ⟨row, found, final, same⟩ := recorded.row
    obtain ⟨after, later, -⟩ := effect.statement.restore_kept server.now found
    refine ⟨after, later, ?_⟩
    rcases move.settled_kept found final later with ⟨status, figures⟩ | opens | holds
    · rw [status, figures]
      exact ⟨final, same⟩
    · exact absurd opens notOpening
    · exact absurd holds notHolding
  · intro call listed restoring
    rcases mem_advance listed with old | leaves
    · exact recorded.closed call old restoring
    · rcases move.restoring_from leaves restoring with mine | ⟨fresh, -⟩
      · rcases recorded.closed current member mine with same | same
        · subst same
          cases move with
          | elsewhere was => cases was
          | advance _ was => cases was
          | record _ was => cases was
          | finish =>
              rcases leaves with same | started
              · rw [same] at restoring
                cases restoring
              · cases started
          | figures was => cases was
        · subst same
          obtain ⟨row, found, owned⟩ := recorded.undispatched member
          cases move with
          | elsewhere was => cases was
          | dispatch =>
              rcases leaves with same | started
              · rw [same] at restoring
                cases restoring
              · unfold dispatchedRestore at started
                rw [found] at started
                dsimp only at started
                rw [if_pos (Option.isSome_iff_ne_none.mpr owned)] at started
                cases started
          | figures was => cases was
      · exact absurd fresh recorded.ne_fresh
  · intro listed
    have dispatching : .dispatchRestore id ∈ server.calls := by
      rcases mem_advance listed with old | leaves
      · exact old
      · exact absurd (move.dispatches leaves).1 recorded.ne_fresh
    exact move.destination_kept notHolding (fun destination _ => destination ≠ none)
      (recorded.undispatched dispatching)

theorem RestoreRecorded.step {next : Server} {action : Action}
    (recorded : RestoreRecorded server id stats)
    (stepped : server.step settings action = some next) : RestoreRecorded next id stats := by
  rcases Server.step_taken stepped with ⟨elapsed, -, same⟩ | ⟨entry, -, same⟩ |
    ⟨index, outcome, current, effect, -, present, taken, same⟩
  · subst same
    exact ⟨recorded.row, recorded.closed, recorded.undispatched⟩
  · subst same
    have none := (Entry.call_spares settings server.now entry).restoring
    refine ⟨recorded.row, ?_, ?_⟩
    · intro call listed restoring
      rcases List.mem_append.mp listed with old | new
      · exact recorded.closed call old restoring
      · rw [List.mem_singleton.mp new, none] at restoring
        cases restoring
    · intro listed
      rcases List.mem_append.mp listed with old | new
      · exact recorded.undispatched old
      · rw [← List.mem_singleton.mp new] at none
        cases none
  · subst same
    exact recorded.after present (Call.step_restoreMove taken)

theorem RestoreUpdate.set_records (now : Nat) {update : RestoreUpdate} {row : RestoreRun}
    (records : update.records = some id) :
    (update.set now row).status.final = true ∧ (update.set now row).stats = update.figures row := by
  cases update with
  | succeedLocal | cancelledOnAgent => exact ⟨rfl, rfl⟩
  | failLocal other aborted => cases aborted <;> exact ⟨rfl, rfl⟩
  | recordResult other result =>
      refine ⟨?_, rfl⟩
      unfold RestoreUpdate.set
      dsimp only
      cases result.status <;> rfl
  | _ => cases records

/-- The result of an execution on the server. -/
theorem restoreRecorded_of_execution {allowed : Server → Action → Prop}
    (reached : (runningServer settings).Reachable allowed server)
    (present : server.calls[index]? = some current)
    (holds : current.holdsRestore id = true) (next : effect.next = .restore id .unregister)
    (spawned : effect.spawned = [])
    (row : KnownRestore (server.after index effect).db id fun row =>
      row.status.final = true ∧ row.stats = stats) :
    RestoreRecorded (server.after index effect) id stats := by
  have only : ∀ call ∈ (server.after index effect).calls, call.restoring = some id →
      call = .restore id .unregister := by
    intro call listed restoring
    obtain ⟨place, stands⟩ := List.mem_iff_getElem?.mp listed
    rcases getElem?_advance stands with ⟨-, same⟩ | ⟨apart, stood⟩ | ⟨-, started⟩
    · exact same.trans next
    · obtain ⟨phase, same, -⟩ := Call.holdsRestore_iff.mp holds
      exact absurd (one_restore_execution reached stood present restoring (by rw [same]; rfl)) apart
    · rw [spawned] at started
      cases started
  refine ⟨row, fun call listed restoring => Or.inl (only call listed restoring), ?_⟩
  intro dispatching
  cases only _ dispatching rfl

/-- The result of an agent is about a restore of the agent. -/
theorem restoreRecorded_of_report (owners : RestoreOwners (server.after index effect))
    (row : KnownRestore (server.after index effect).db id fun row =>
      row.status.final = true ∧ row.stats = stats)
    (handed : KnownRestore (server.after index effect).db id fun row => row.agentId ≠ none) :
    RestoreRecorded (server.after index effect) id stats := by
  obtain ⟨held, found, claimed⟩ := handed
  refine ⟨row, ?_, ?_⟩
  · intro call listed restoring
    cases call with
    | dispatchRestore other =>
        cases restoring
        exact Or.inr rfl
    | restore other phase =>
        cases restoring
        obtain ⟨other, found', free⟩ := owners.executing id phase listed
        rw [found] at found'
        cases found'
        exact absurd free claimed
    | _ => cases restoring
  · intro listed
    obtain ⟨other, found', agrees⟩ := owners.dispatching id listed
    rw [found] at found'
    cases found'
    exact ⟨held, found, fun none => claimed (agrees.symm.trans none)⟩

theorem recorded_of_recordsRestore {allowed : Server → Action → Prop} {next : Server}
    {action : Action} (reached : (runningServer settings).Reachable allowed server)
    (permitted : allowed server action) (stepped : server.step settings action = some next)
    (recording : recordsRestore settings server action id stats = true) :
    RestoreRecorded next id stats := by
  have owners := restoreOwners_of_reachable (reached.step permitted stepped)
  obtain ⟨update, row, executed, records, found, hit, figures⟩ := recordsRestore_iff.mp recording
  rcases Server.step_taken stepped with ⟨elapsed, same, -⟩ | ⟨entry, same, -⟩ |
    ⟨index, outcome, current, effect, resumes, present, taken, same⟩
  · subst same
    cases executed
  · subst same
    cases executed
  · subst resumes
    subst same
    rw [Server.statement_resume present taken] at executed
    have issues := Option.some.inj executed
    have move : RestoreMove settings server index current effect := Call.step_restoreMove taken
    have source := move.update_source issues
    have after : KnownRestore (server.after index effect).db id fun row =>
        row.status.final = true ∧ row.stats = stats := by
      refine ⟨update.set server.now row, ?_, ?_⟩
      · change (effect.statement.execute server.now server.db).restoreRuns.get? id = _
        rw [issues]
        change (server.db.updateRestores server.now update).restoreRuns.get? id = _
        rw [Db.get?_updateRestores, found, Option.map_some, if_pos hit]
      · obtain ⟨final, own⟩ := @RestoreUpdate.set_records id server.now update row records
        exact ⟨final, own.trans figures⟩
    have reported {agent : Uuid} (reports : current.reportsRestore = some (agent, id)) :
        RestoreRecorded (server.after index effect) id stats := by
      refine restoreRecorded_of_report owners after ?_
      obtain ⟨held, present', handed⟩ := (restoreOwners_of_reachable reached).reporting current
        (List.mem_of_getElem? present) agent id reports
      have claimed : held.agentId ≠ none := by
        rw [handed]
        exact Option.some_ne_none agent
      exact KnownRestore.later ⟨held, present', claimed⟩ stable_handedRestore effect.statement
        server.now
    cases update with
    | succeedLocal | failLocal =>
        cases records
        exact restoreRecorded_of_execution reached present source.1 source.2.1 source.2.2 after
    | cancelledOnAgent | recordResult =>
        cases records
        cases current with
        | submitResult agent task result phase =>
            cases phase with
            | recordRestore | cancelledRestore =>
                cases source
                exact reported rfl
            | _ => cases source
        | cancelRestore other phase =>
            cases phase with
            | write error =>
                cases source
                cases outcome with
                | «returns» =>
                    cases taken
                    cases issues
                | _ => cases taken
            | _ => cases source
        | _ => cases source
    | _ => cases records

end Step

/-! ## Figures -/

/-- **Late progress.** In every run of the server in which the progress of a backup on the server
finds its run running and an opening write its run unclaimed, a run keeps the figures of its
recorded result for ever. A restore does so in every run. -/
theorem figures_stay (settings : Settings) (id : Uuid) (stats : Option String) :
    (∀ server action next later,
      (runningServer settings).Reachable (InTime settings) server →
      InTime settings server action → server.step settings action = some next →
      recordsRun settings server action id stats = true →
      (runningServer settings).Steps (InTime settings) next later →
      Known later.db id fun row => row.stats = stats) ∧
    ∀ server action next later,
      (runningServer settings).Reachable (fun _ _ => True) server →
      server.step settings action = some next →
      recordsRestore settings server action id stats = true →
      (runningServer settings).Steps (fun _ _ => True) next later →
      KnownRestore later.db id fun row => row.stats = stats := by
  constructor
  · intro server action next later reached permitted stepped records steps
    have recorded : RunRecorded later id stats :=
      steps.stable (fun state => RunRecorded state id stats) (reached.step permitted stepped)
        (fun _ _ _ _ here allowed moved => here.step allowed moved)
        (recorded_of_records reached permitted stepped records)
    exact recorded.row.weaken fun _ both => both.2
  · intro server action next later reached stepped records steps
    have recorded : RestoreRecorded later id stats :=
      steps.stable (fun state => RestoreRecorded state id stats) (reached.step trivial stepped)
        (fun _ _ _ _ here _ moved => here.step moved)
        (recorded_of_recordsRestore reached trivial stepped records)
    obtain ⟨row, found, both⟩ := recorded.row
    exact ⟨row, found, both.2⟩

/-- A nightly backup with progress on the way, up to the write of its success. -/
def reportedBackup : List Action :=
  [.begin (.runJob none 1), .returns 0, .returns 0] ++ spawnedBackup 1 ++
    [.resume 1 (.reports "10 %"), .resume 1 (.exits { code := 0, stats := "100 %" })]

def hasFigures (run : Uuid) (stats : Option String) (server : Server) : Bool :=
  (server.db.jobRuns.get? run).any fun row => row.stats = stats

theorem hasFigures_iff {run : Uuid} {stats : Option String} {server : Server} :
    hasFigures run stats server = true ↔ Known server.db run fun row => row.stats = stats := by
  unfold hasFigures Known
  simp only [Option.any_eq_true, decide_eq_true_eq]

/-- The write of the progress is executed after that of the success. -/
theorem progress_replaces_figures :
    ¬ ∀ (settings : Settings) (id : Uuid) (stats : Option String) server action next later,
      (runningServer settings).Reachable (fun _ _ => True) server →
      server.step settings action = some next →
      recordsRun settings server action id stats = true →
      (runningServer settings).Steps (fun _ _ => True) next later →
      Known later.db id fun row => row.stats = stats := by
  intro always
  have ends : ((runningServer hourSettings).runWithin (fun _ _ => True) (installation nightlyJob)
      reportedBackup).any (fun server =>
        recordsRun hourSettings server (.returns 1) 0 (some "100 %") &&
          (server.step hourSettings (.returns 1)).any fun next =>
            ((runningServer hourSettings).runWithin (fun _ _ => True) next [.returns 2]).any
              (hasFigures 0 (some "10 %"))) = true := by decide
  obtain ⟨server, reached, both⟩ :=
    System.exists_reachable (fresh_installation hourSettings nightlyJob) ends
  simp only [Bool.and_eq_true, Option.any_eq_true] at both
  obtain ⟨records, next, stepped, later, ran, lost⟩ := both
  obtain ⟨row, found, kept⟩ := always hourSettings 0 (some "100 %") server (.returns 1) next later
    reached stepped records (System.steps_of_runWithin ran)
  obtain ⟨other, found', replaced⟩ := hasFigures_iff.mp lost
  rw [found] at found'
  cases found'
  rw [kept] at replaced
  exact absurd replaced (by decide)

/-- A nightly backup whose progress is written on the way keeps the figures of its success. -/
theorem nightly_figures_stay : ∃ later : Server, Known later.db 0 fun row =>
    row.stats = some "100 %" := by
  have ends : ((runningServer hourSettings).runWithin (InTime hourSettings)
      (installation nightlyJob) (reportedBackup ++ [.returns 2])).any (fun server =>
        recordsRun hourSettings server (.returns 1) 0 (some "100 %") &&
          decide (InTime hourSettings server (.returns 1)) &&
          (server.step hourSettings (.returns 1)).any fun next =>
            ((runningServer hourSettings).runWithin (InTime hourSettings) next [.returns 1]).isSome)
      = true := by decide
  obtain ⟨server, reached, both⟩ :=
    System.exists_reachable (fresh_installation hourSettings nightlyJob) ends
  simp only [Bool.and_eq_true, Option.any_eq_true, decide_eq_true_eq] at both
  obtain ⟨⟨records, permitted⟩, next, stepped, finishes⟩ := both
  obtain ⟨later, ran⟩ := Option.isSome_iff_exists.mp finishes
  exact ⟨later, (figures_stay hourSettings 0 (some "100 %")).1 server (.returns 1) next later
    reached permitted stepped records (System.steps_of_runWithin ran)⟩

end AmberBackup
