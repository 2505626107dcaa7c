import AmberBackup.Server.RestoreExecution
import AmberBackup.Server.SingleExecution

/-! # Final states

An execution on the server marks its row running and records its outcome without looking
at the row, and so does the cancel of a run. In a run of the server in which these writes
are not overtaken, an outcome once recorded is never replaced (`final_states_stay`). The
invariant is that a row whose outcome an execution has yet to record is running
(`HeldRunning`).
-/

namespace AmberBackup

open Relational Transition Pool

/-- Between the opening of a run and the record of its outcome. -/
def Stage.held : Stage → Bool
  | .opened | .child _ | .finishing | .failing | .deciding _ => true
  | .waiting | .recorded => false

/-- A call of the backup or the prune runner that is going to record the outcome of a run,
whatever the row says by then. -/
def Call.holds (run : Uuid) (call : Call) : Bool :=
  match call.execution with
  | some (.backup, other, stage) => other = run && stage.held
  | some (.prune, other, stage) => other = run && stage.held
  | _ => false

theorem Call.holds_iff {call : Call} {run : Uuid} :
    call.holds run = true ↔ ∃ runner stage, call.execution = some (runner, run, stage) ∧
      (runner = .backup ∨ runner = .prune) ∧ stage.held = true := by
  unfold holds
  cases executes : call.execution with
  | none => simp
  | some execution =>
      obtain ⟨runner, other, stage⟩ := execution
      cases runner <;> simp

/-- The same for a restore. -/
def Call.holdsRestore (id : Uuid) : Call → Bool
  | .restore other phase => other = id && phase.stage = .held
  | _ => false

theorem Call.holdsRestore_iff {call : Call} {id : Uuid} :
    call.holdsRestore id = true ↔ ∃ phase, call = .restore id phase ∧ phase.stage = .held := by
  cases call with
  | restore other phase => simp [holdsRestore, and_comm]
  | _ => simp [holdsRestore]

/-- The restore whose opening write a call is about to execute. -/
def Call.opensRestore : Call → Option Uuid
  | .restore id (.openRun _) => some id
  | _ => none

/-- The restore whose outcome a call that does not execute it is about to write. -/
def Call.overridesRestore : Call → Option Uuid
  | .cancelRestore id (.write _) => some id
  | .submitResult _ task _ .recordRestore => some task
  | .submitResult _ task _ .cancelledRestore => some task
  | _ => none

def activeRow (db : Db) (run : Uuid) : Bool :=
  (db.jobRuns.get? run).all fun row => row.status.active

/-- What a step of a call must meet: an opening write and the write of a cancel find their
row queued or running, nobody writes the outcome of a row that an execution holds, and the
row of the prune after a successful backup is not refused. -/
def Call.keepsOutcomes (server : Server) (call : Call) (outcome : Outcome) : Bool :=
  call.opens.all (activeRow server.db) && call.cancels.all (activeRow server.db) &&
    call.overrides.all (fun run => !server.calls.any (Call.holds run)) &&
    call.opensRestore.all (fun id =>
      (server.db.restoreRuns.get? id).all fun row => row.status.active) &&
    call.overridesRestore.all (fun id => !server.calls.any (Call.holdsRestore id)) &&
    match call, outcome with
    | .backup _ (.createPruneRow _), .throws _ => false
    | _, _ => true

def keepsOutcomes : Server → Action → Bool :=
  onSteps fun server call outcome => call.keepsOutcomes server outcome

/-- The same, spelled out. -/
structure Call.KeepsOutcomes (server : Server) (call : Call) (outcome : Outcome) : Prop where
  opens : ∀ run row, call.opens = some run → server.db.jobRuns.get? run = some row →
    row.status.final = false
  cancels : ∀ run row, call.cancels = some run → server.db.jobRuns.get? run = some row →
    row.status.final = false
  overrides : ∀ run, call.overrides = some run → ∀ other ∈ server.calls, other.holds run = false
  opensRestore : ∀ id row, call.opensRestore = some id →
    server.db.restoreRuns.get? id = some row → row.status.active = true
  overridesRestore : ∀ id, call.overridesRestore = some id →
    ∀ other ∈ server.calls, other.holdsRestore id = false
  prune : ∀ run context error, call = .backup run (.createPruneRow context) →
    outcome ≠ .throws error

/-- The rows that executions hold are running. -/
structure HeldRunning (server : Server) : Prop where
  runs : ∀ call ∈ server.calls, ∀ run, call.holds run = true →
    Known server.db run fun row => row.status = .running
  restores : ∀ call ∈ server.calls, ∀ id, call.holdsRestore id = true →
    KnownRestore server.db id fun row => row.status = .running

theorem keepsOutcomes_resume {server : Server} {index : Nat} {outcome : Outcome} {call : Call}
    (permitted : keepsOutcomes server (.resume index outcome) = true)
    (present : server.calls[index]? = some call) : call.KeepsOutcomes server outcome := by
  have all := onSteps_resume permitted present
  unfold Call.keepsOutcomes at all
  simp only [Bool.and_eq_true] at all
  obtain ⟨⟨⟨⟨⟨opens, cancels⟩, overrides⟩, opensRestore⟩, overridesRestore⟩, prune⟩ := all
  refine ⟨?_, ?_, ?_, ?_, ?_, ?_⟩
  · intro run row equal found
    simpa [equal, activeRow, found, RunStatus.final] using opens
  · intro run row equal found
    simpa [equal, activeRow, found, RunStatus.final] using cancels
  · intro run equal
    simpa [equal] using overrides
  · intro id row equal found
    simpa [equal, found] using opensRestore
  · intro id equal
    simpa [equal] using overridesRestore
  · rintro run context error rfl rfl
    simp at prune

section Step

variable {settings : Settings} {server : Server} {index : Nat} {current : Call}
  {outcome : Outcome} {effect : Effect}

theorem Call.holds_of_execution {call : Call} {runner : Runner} {run : Uuid} {stage : Stage}
    (executes : call.execution = some (runner, run, stage))
    (owner : runner = .backup ∨ runner = .prune) (held : stage.held = true) :
    call.holds run = true := Call.holds_iff.mpr ⟨runner, stage, executes, owner, held⟩

/-- A run held by an execution that does not move stays running. -/
theorem HeldRunning.run_kept (held : HeldRunning server) (grounded : Grounded server)
    (keeps : current.KeepsOutcomes server outcome)
    (move : Move settings server index current outcome effect)
    (present : current ∈ server.calls) {call : Call} {run : Uuid} (member : call ∈ server.calls)
    (holds : call.holds run = true)
    (apart : ∀ runner stage, current.execution = some (runner, run, stage) → runner ≠ .check →
      effect.next.execution ≠ some (runner, run, .recorded)) :
    Known (server.after index effect).db run fun row => row.status = .running := by
  obtain ⟨runner, stage, executes, owner, opened⟩ := Call.holds_iff.mp holds
  obtain ⟨row, found, running⟩ := held.runs call member run holds
  obtain ⟨after, later, -⟩ := effect.statement.execute_later server.now server.db run row found
  refine ⟨after, later, ?_⟩
  have kind := (grounded.known member executes).row found |>.1
  have notCheck : row.kind ≠ .check := by
    rw [kind]
    rcases owner with same | same <;> rw [same] <;> simp [Runner.kind]
  rcases move.running_kept found running later with same | overrides | settles |
    ⟨runner', stage', executes', records⟩
  · exact same
  · rw [keeps.overrides run overrides call member] at holds
    cases holds
  · exact absurd (((grounded.calls current present).settlingCheck run settles).row found) notCheck
  · rcases records with check | records
    · subst check
      exact absurd ((grounded.known present executes').row found).1 notCheck
    · by_cases check : runner' = .check
      · subst check
        exact absurd ((grounded.known present executes').row found).1 notCheck
      · exact absurd records (apart runner' stage' executes' check)

/-- The executions that hold a run after a step find it running. -/
theorem HeldRunning.runs_after {allowed : Server → Action → Prop} (held : HeldRunning server)
    (reached : (runningServer settings).Reachable allowed server)
    (present : server.calls[index]? = some current)
    (keeps : current.KeepsOutcomes server outcome)
    (move : Move settings server index current outcome effect) :
    ∀ call ∈ (server.after index effect).calls, ∀ run, call.holds run = true →
      Known (server.after index effect).db run fun row => row.status = .running := by
  have grounded := grounded_of_reachable reached
  have mine := List.mem_of_getElem? present
  intro call listed run holds
  obtain ⟨runner, stage, executes, owner, opened⟩ := Call.holds_iff.mp holds
  have fromEffect : effect.Leaves call →
      Known (server.after index effect).db run fun row => row.status = .running := by
    intro leaves
    have waits : stage ≠ .waiting := by
      rintro rfl
      cases opened
    rcases move.opened_from leaves executes waits with ⟨earlier, executed, past, next⟩ |
      ⟨issues, context, same⟩ | ⟨fresh, -, row, inserts, running⟩
    · have unrecorded : earlier ≠ .recorded := by
        rintro rfl
        rcases move.recorded_stays leaves executed executes
          (grounded.known mine executed).ne_fresh with same | ⟨context, error, same, refused⟩
        · rw [same] at opened
          cases opened
        · exact keeps.prune run context error same refused
      have holding : current.holds run = true := by
        refine Call.holds_of_execution executed owner ?_
        cases earlier with
        | waiting => exact absurd rfl past
        | recorded => exact absurd rfl unrecorded
        | opened | child | finishing | failing | deciding => rfl
      refine held.run_kept grounded keeps move mine mine holding ?_
      intro runner' stage' _ _ records
      rw [← next, executes] at records
      cases records
      cases opened
    · subst same
      obtain ⟨row, found, -⟩ := grounded.known mine rfl
      change Known (effect.statement.execute server.now server.db) run _
      rw [issues]
      exact Known.updated (Db.mem_runsHit.mpr ⟨row, found, by simp [RunUpdate.hits]⟩)
        fun _ _ _ => rfl
    · change Known (effect.statement.execute server.now server.db) run _
      rw [inserts, fresh]
      exact Known.inserted running
  obtain ⟨place, stands⟩ := List.mem_iff_getElem?.mp listed
  rcases getElem?_advance stands with ⟨-, same⟩ | ⟨apart, stood⟩ | ⟨-, started⟩
  · exact fromEffect (Or.inl same)
  · refine held.run_kept grounded keeps move mine (List.mem_of_getElem? stood) holds ?_
    intro runner' stage' executes' _ _
    exact apart (one_execution reached stood present executes executes')
  · exact fromEffect (Or.inr started)

/-- Which call issues an update of a restore. -/
def RestoreUpdate.Source (current : Call) (effect : Effect) : RestoreUpdate → Prop
  | .openLocal id => current.opensRestore = some id
  | .succeedLocal id .. | .failLocal id .. =>
      current.holdsRestore id = true ∧ effect.next = .restore id .unregister ∧ effect.spawned = []
  | .cancel id _ | .cancelledOnAgent id _ | .recordResult id _ => current.overridesRestore = some id
  | .claim _ | .writeStats .. | .restoreProgress .. => True

theorem RestoreMove.update_source (move : RestoreMove settings server index current effect)
    {update : RestoreUpdate} (issues : effect.statement = .updateRestores update) :
    update.Source current effect := by
  cases move with
  | elsewhere was spares =>
      have statement := spares.statement
      rw [issues] at statement
      cases statement
  | poll _ _ _ _ _ _ _ statement =>
      rw [issues] at statement
      cases statement
  | openRun | cancelWrite =>
      cases issues
      exact rfl
  | record other was write =>
      cases issues
      rcases write with ⟨_, _, _, _, equal⟩ | ⟨_, _, _, equal⟩ <;> subst equal <;>
        exact ⟨Call.holdsRestore_iff.mpr ⟨_, rfl, was⟩, rfl, rfl⟩
  | claim =>
      cases issues
      trivial
  | report agent task result before update' write =>
      cases issues
      rcases write with ⟨first, equal⟩ | ⟨first, equal⟩ <;> subst first <;> subst equal <;>
        exact rfl
  | figures was update' write =>
      cases issues
      rcases write with ⟨_, _, equal⟩ | ⟨_, _, _, equal⟩ <;> subst equal <;> trivial
  | _ => cases issues

/-- A running restore goes on running until its execution, a cancel or an agent records its
outcome. -/
theorem RestoreMove.running_kept (move : RestoreMove settings server index current effect)
    {id : Uuid} {row after : RestoreRun} (present : server.db.restoreRuns.get? id = some row)
    (running : row.status = .running)
    (found : (effect.statement.execute server.now server.db).restoreRuns.get? id = some after) :
    after.status = .running ∨ current.overridesRestore = some id ∨
      (current.holdsRestore id = true ∧ effect.next = .restore id .unregister) := by
  rcases Statement.restore_after found with ⟨-, fresh⟩ | ⟨old, before, same⟩
  · rw [fresh, get?_freshId] at present
    cases present
  · rw [present] at before
    cases before
    rcases same with same | ⟨update, issues, hit, same⟩
    · exact Or.inl (same ▸ running)
    · have source := move.update_source issues
      subst same
      cases update with
      | openLocal => exact Or.inl rfl
      | succeedLocal | failLocal =>
          simp only [RestoreUpdate.hits, decide_eq_true_eq] at hit
          subst hit
          exact Or.inr (Or.inr ⟨source.1, source.2.1⟩)
      | cancel | recordResult | cancelledOnAgent =>
          simp only [RestoreUpdate.hits, Bool.and_eq_true, decide_eq_true_eq] at hit
          rw [← hit.1] at source
          exact Or.inr (Or.inl source)
      | claim =>
          simp only [RestoreUpdate.hits, Bool.and_eq_true, decide_eq_true_eq] at hit
          rw [running] at hit
          cases hit.2
      | writeStats | restoreProgress => exact Or.inl running

/-- The guarded updates leave a settled restore its status and its figures. -/
theorem RestoreUpdate.set_final {now : Nat} {update : RestoreUpdate} {id : Uuid}
    {row : RestoreRun} (hit : update.hits id row = true) (final : row.status.final = true) :
    ((update.set now row).status = row.status ∧ (update.set now row).stats = row.stats) ∨
      update = .openLocal id ∨
      (∃ stats destination expires log, update = .succeedLocal id stats destination expires log) ∨
      ∃ aborted error log, update = .failLocal id aborted error log := by
  have settled : row.status ≠ .queued ∧ row.status ≠ .running := by
    constructor <;> intro same <;> rw [same] at final <;> cases final
  cases update with
  | openLocal =>
      simp only [RestoreUpdate.hits, decide_eq_true_eq] at hit
      exact Or.inr (Or.inl (by rw [hit]))
  | succeedLocal other stats destination expires log =>
      simp only [RestoreUpdate.hits, decide_eq_true_eq] at hit
      exact Or.inr (Or.inr (Or.inl ⟨stats, destination, expires, log, by rw [hit]⟩))
  | failLocal other aborted error log =>
      simp only [RestoreUpdate.hits, decide_eq_true_eq] at hit
      exact Or.inr (Or.inr (Or.inr ⟨aborted, error, log, by rw [hit]⟩))
  | writeStats | recordResult | restoreProgress =>
      simp only [RestoreUpdate.hits, Bool.and_eq_true, decide_eq_true_eq] at hit
      exact absurd hit.2 settled.2
  | cancel =>
      simp only [RestoreUpdate.hits, Bool.and_eq_true, decide_eq_true_eq] at hit
      unfold RunStatus.final at final
      rw [hit.2] at final
      cases final
  | claim =>
      simp only [RestoreUpdate.hits, Bool.and_eq_true, decide_eq_true_eq] at hit
      exact absurd hit.2 settled.1
  | cancelledOnAgent =>
      simp only [RestoreUpdate.hits, Bool.and_eq_true, Bool.or_eq_true, decide_eq_true_eq] at hit
      rcases hit.2 with running | cancelled
      · exact absurd running settled.2
      · exact Or.inl ⟨cancelled.symm, rfl⟩

/-- A settled restore changes its status and its figures only through a write of its
execution. -/
theorem RestoreMove.settled_kept (move : RestoreMove settings server index current effect)
    {id : Uuid} {row after : RestoreRun} (present : server.db.restoreRuns.get? id = some row)
    (final : row.status.final = true)
    (found : (effect.statement.execute server.now server.db).restoreRuns.get? id = some after) :
    (after.status = row.status ∧ after.stats = row.stats) ∨ current.opensRestore = some id ∨
      current.holdsRestore id = true := by
  rcases Statement.restore_after found with ⟨-, fresh⟩ | ⟨old, before, same⟩
  · rw [fresh, get?_freshId] at present
    cases present
  · rw [present] at before
    cases before
    rcases same with same | ⟨update, issues, hit, same⟩
    · subst same
      exact Or.inl ⟨rfl, rfl⟩
    · have source := move.update_source issues
      subst same
      rcases RestoreUpdate.set_final hit final with kept | opens | ⟨_, _, _, _, succeeds⟩ |
        ⟨_, _, _, fails⟩
      · exact Or.inl kept
      · subst opens
        exact Or.inr (Or.inl source)
      · subst succeeds
        exact Or.inr (Or.inr source.1)
      · subst fails
        exact Or.inr (Or.inr source.1)

theorem RestoreMove.final_kept (move : RestoreMove settings server index current effect)
    {id : Uuid} {row after : RestoreRun} (present : server.db.restoreRuns.get? id = some row)
    (final : row.status.final = true)
    (found : (effect.statement.execute server.now server.db).restoreRuns.get? id = some after) :
    after.status = row.status ∨ current.opensRestore = some id ∨
      current.holdsRestore id = true := by
  rcases move.settled_kept present final found with kept | writes
  · exact Or.inl kept.1
  · exact Or.inr writes

theorem Call.not_holdsRestore {call : Call} {id : Uuid} (none : call.restoring = none) :
    call.holdsRestore id ≠ true := by
  intro holds
  obtain ⟨phase, same, -⟩ := Call.holdsRestore_iff.mp holds
  rw [same] at none
  cases none

/-- An execution that holds a restore held it before, or executes its opening write. -/
theorem RestoreMove.holds_from (move : RestoreMove settings server index current effect)
    {call : Call} (leaves : effect.Leaves call) {id : Uuid} (holds : call.holdsRestore id = true) :
    (current.holdsRestore id = true ∧ call = effect.next) ∨
      (current.opensRestore = some id ∧ effect.statement = .updateRestores (.openLocal id)) := by
  have unstarted : (∀ other ∈ effect.spawned, other.SparesRestores) → call ∉ effect.spawned :=
    fun spares started => Call.not_holdsRestore (spares call started).restoring holds
  obtain ⟨phase, restores, stage⟩ := Call.holdsRestore_iff.mp holds
  cases move with
  | elsewhere was spares =>
      rcases leaves with same | started
      · exact (Call.not_holdsRestore (same ▸ spares.next) holds).elim
      · exact absurd started (unstarted spares.spawned)
  | poll agent dto before after next claiming spawned =>
      rcases leaves with same | started
      · rw [same, next] at restores
        cases restores
      · rw [spawned] at started
        cases started
  | dispatch other =>
      rcases leaves with same | started
      · rw [same] at restores
        cases restores
      · rcases dispatchedRestore_cases server.db other with none | one
        · simp [none] at started
        · rw [one, List.mem_singleton, restores] at started
          cases started
          cases stage
  | advance other was becomes loaded target others =>
      rcases leaves with same | started
      · rw [same] at restores
        cases restores
        exact Or.inl ⟨Call.holdsRestore_iff.mpr ⟨_, rfl, was⟩, same⟩
      · exact absurd started (unstarted others)
  | openRun other run =>
      rcases leaves with same | started
      · rw [same] at restores
        cases restores
        exact Or.inr ⟨rfl, rfl⟩
      · cases started
  | start other run targetPath deaf =>
      rcases leaves with same | started
      · rw [same] at restores
        cases restores
        exact Or.inl ⟨Call.holdsRestore_iff.mpr ⟨_, rfl, rfl⟩, same⟩
      · cases started
  | load | register | record =>
      rcases leaves with same | started
      · rw [same] at restores
        cases restores
        cases stage
      · cases started
  | create | abandon | finish | cancelWrite | claim | report | figures =>
      rcases leaves with same | started
      · rw [same] at restores
        cases restores
      · cases started

/-- The executions that hold a restore after a step find it running. -/
theorem HeldRunning.restores_after {allowed : Server → Action → Prop} (held : HeldRunning server)
    (reached : (runningServer settings).Reachable allowed server)
    (present : server.calls[index]? = some current)
    (keeps : current.KeepsOutcomes server outcome)
    (move : RestoreMove settings server index current effect) :
    ∀ call ∈ (server.after index effect).calls, ∀ id, call.holdsRestore id = true →
      KnownRestore (server.after index effect).db id fun row => row.status = .running := by
  have mine := List.mem_of_getElem? present
  intro call listed id holds
  obtain ⟨phase, same, stage⟩ := Call.holdsRestore_iff.mp holds
  have kept : ∀ other ∈ server.calls, other.holdsRestore id = true →
      (current.holdsRestore id = true → effect.next ≠ .restore id .unregister) →
      KnownRestore (server.after index effect).db id fun row => row.status = .running := by
    intro other member holding unrecorded
    obtain ⟨row, found, running⟩ := held.restores other member id holding
    obtain ⟨after, later, -⟩ := effect.statement.restore_kept server.now found
    refine ⟨after, later, ?_⟩
    rcases move.running_kept found running later with goes | overrides | ⟨holds, records⟩
    · exact goes
    · rw [keeps.overridesRestore id overrides other member] at holding
      cases holding
    · exact absurd records (unrecorded holds)
  have fromEffect : effect.Leaves call →
      KnownRestore (server.after index effect).db id fun row => row.status = .running := by
    intro leaves
    rcases move.holds_from leaves holds with ⟨holding, next⟩ | ⟨opens, issues⟩
    · refine kept current mine holding fun _ records => ?_
      rw [← next, same] at records
      cases records
      cases stage
    · have restoring : current.restoring = some id := by
        cases current with
        | restore other phase' =>
            cases phase' <;> cases opens
            rfl
        | _ => cases opens
      obtain ⟨row, found, -⟩ := (restoresGrounded_of_reachable reached).known current mine id restoring
      refine ⟨RestoreUpdate.set server.now (.openLocal id) row, ?_, rfl⟩
      change (effect.statement.execute server.now server.db).restoreRuns.get? id = _
      rw [issues]
      change (server.db.updateRestores server.now (.openLocal id)).restoreRuns.get? id = _
      rw [Db.get?_updateRestores, found]
      simp [RestoreUpdate.hits]
  obtain ⟨place, stands⟩ := List.mem_iff_getElem?.mp listed
  rcases getElem?_advance stands with ⟨-, next⟩ | ⟨apart, stood⟩ | ⟨-, started⟩
  · exact fromEffect (Or.inl next)
  · refine kept call (List.mem_of_getElem? stood) holds fun holding => ?_
    obtain ⟨phase', same', -⟩ := Call.holdsRestore_iff.mp holding
    exact absurd (one_restore_execution reached stood present (by rw [same]; rfl)
      (by rw [same']; rfl)) apart
  · exact fromEffect (Or.inr started)

end Step

/-- The runs of the server in which no outcome is overtaken. -/
abbrev KeepsOutcomes (server : Server) (action : Action) : Prop :=
  keepsOutcomes server action = true

section Reachable

variable {settings : Settings} {server : Server}

theorem heldRunning_of_reachable
    (reached : (runningServer settings).Reachable KeepsOutcomes server) : HeldRunning server := by
  refine System.Invariant.onTopOf ((runningServer settings).Reachable KeepsOutcomes) _
    (fun _ here => here) ?_ ?_ reached
  · intro state fresh
    exact ⟨by simp [Server.Fresh.calls fresh], by simp [Server.Fresh.calls fresh]⟩
  · intro state action next here _ held permitted stepped
    rcases Server.step_taken stepped with ⟨elapsed, -, same⟩ | ⟨entry, -, same⟩ |
      ⟨index, outcome, current, effect, resumes, present, taken, same⟩
    · subst same
      exact ⟨held.runs, held.restores⟩
    · subst same
      refine ⟨fun call member run holds => ?_, fun call member id holds => ?_⟩
      · rcases List.mem_append.mp member with old | new
        · exact held.runs call old run holds
        · rw [List.mem_singleton.mp new] at holds
          obtain ⟨_, _, executes, -⟩ := Call.holds_iff.mp holds
          exact ((Entry.call_unbound settings state.now entry).not_executing executes).elim
      · rcases List.mem_append.mp member with old | new
        · exact held.restores call old id holds
        · rw [List.mem_singleton.mp new] at holds
          exact absurd holds (Call.not_holdsRestore
            (Entry.call_spares settings state.now entry).restoring)
    · subst resumes
      subst same
      have keeps := keepsOutcomes_resume permitted present
      exact ⟨held.runs_after here present keeps (Call.step_move taken),
        held.restores_after here present keeps (Call.step_restoreMove taken)⟩

variable {next : Server} {action : Action}

theorem final_run_step (reached : (runningServer settings).Reachable KeepsOutcomes server)
    (permitted : KeepsOutcomes server action) (stepped : server.step settings action = some next)
    {run : Uuid} {status : RunStatus} (final : status.final = true)
    (known : Known server.db run fun row => row.status = status) :
    Known next.db run fun row => row.status = status := by
  rcases Server.step_cases stepped with ⟨elapsed, -, same⟩ | ⟨entry, -, same⟩ |
    ⟨index, outcome, current, effect, resumes, present, move, same⟩
  · exact same ▸ known
  · exact same ▸ known
  · subst resumes
    subst same
    have keeps := keepsOutcomes_resume permitted present
    obtain ⟨row, found, same⟩ := known
    subst same
    obtain ⟨after, later, -⟩ := effect.statement.execute_later server.now server.db run row found
    refine ⟨after, later, ?_⟩
    rcases move.final_kept found final later with kept | ⟨context, opens⟩ |
      ⟨runner, stage, owner, executes, stages⟩ | ⟨⟨error, cancels⟩, -⟩
    · exact kept
    · subst opens
      rw [keeps.opens run row rfl found] at final
      cases final
    · have holds : current.holds run = true := by
        refine Call.holds_of_execution executes owner ?_
        rcases stages with same | ⟨aborted, same⟩ <;> rw [same] <;> rfl
      have running := ((heldRunning_of_reachable reached).runs current
        (List.mem_of_getElem? present) run holds).row found
      rw [running] at final
      cases final
    · subst cancels
      rw [keeps.cancels run row rfl found] at final
      cases final

theorem final_restore_step (reached : (runningServer settings).Reachable KeepsOutcomes server)
    (permitted : KeepsOutcomes server action) (stepped : server.step settings action = some next)
    {id : Uuid} {status : RunStatus} (final : status.final = true)
    (known : KnownRestore server.db id fun row => row.status = status) :
    KnownRestore next.db id fun row => row.status = status := by
  rcases Server.step_taken stepped with ⟨elapsed, -, same⟩ | ⟨entry, -, same⟩ |
    ⟨index, outcome, current, effect, resumes, present, taken, same⟩
  · exact same ▸ known
  · exact same ▸ known
  · subst resumes
    subst same
    have keeps := keepsOutcomes_resume permitted present
    obtain ⟨row, found, same⟩ := known
    subst same
    obtain ⟨after, later, -⟩ := effect.statement.restore_kept server.now found
    refine ⟨after, later, ?_⟩
    rcases (Call.step_restoreMove taken).final_kept found final later with kept | opens | holds
    · exact kept
    · have active := keeps.opensRestore id row opens found
      unfold RunStatus.final at final
      rw [active] at final
      cases final
    · obtain ⟨other, found', running⟩ := (heldRunning_of_reachable reached).restores current
        (List.mem_of_getElem? present) id holds
      rw [found] at found'
      cases found'
      rw [running] at final
      cases final

/-- **Final states stay.** As long as opening writes and cancels find their rows queued or
running, nobody else writes the outcome of a row an execution holds, and the row of a prune
is not refused, a run or a restore that succeeded, failed or was cancelled keeps that
status. -/
theorem final_states_stay {later : Server}
    (reached : (runningServer settings).Reachable KeepsOutcomes server)
    (steps : (runningServer settings).Steps KeepsOutcomes server later)
    {status : RunStatus} (final : status.final = true) (id : Uuid) :
    (Known server.db id (fun row => row.status = status) →
        Known later.db id fun row => row.status = status) ∧
      (KnownRestore server.db id (fun row => row.status = status) →
        KnownRestore later.db id fun row => row.status = status) := by
  constructor
  · intro known
    refine steps.stable
      (fun state => Known state.db id fun row => row.status = status) reached ?_ known
    intro state action next here settled permitted stepped
    exact final_run_step here permitted stepped final settled
  · intro known
    refine steps.stable
      (fun state => KnownRestore state.db id fun row => row.status = status) reached ?_ known
    intro state action next here settled permitted stepped
    exact final_restore_step here permitted stepped final settled

end Reachable

/-- An agent reports the success of a run between the probe and the write of its cancel. -/
def resultDuringCancel : List Action :=
  [.begin (.runJob none 1), .returns 0, .returns 0, .begin (.poll 7 none {})] ++
    claimedBackup 1 ++ [.begin (.cancelRun root 0), .returns 2, .returns 2,
      .begin (.submitResult 7 0 { status := .success }), .returns 3, .returns 3, .returns 3,
      .returns 3]

/-- Then the cancel overwrites the success. -/
theorem success_cancelled : ∃ server later,
    (runningServer hourSettings).Reachable (fun _ _ => True) server ∧
      (runningServer hourSettings).Steps (fun _ _ => True) server later ∧
      Known server.db 0 (fun row => row.status = .success) ∧
      Known later.db 0 fun row => row.status = .cancelled := by
  have ends : ((runningServer hourSettings).runWithin (fun _ _ => True)
      (installation agentJob) resultDuringCancel).any (fun server =>
        hasStatus 0 .success server && ((runningServer hourSettings).runWithin (fun _ _ => True)
          server [.returns 2]).any (hasStatus 0 .cancelled)) = true := by decide
  obtain ⟨server, reached, both⟩ :=
    System.exists_reachable (fresh_installation hourSettings agentJob) ends
  rw [Bool.and_eq_true] at both
  cases ran : (runningServer hourSettings).runWithin (fun _ _ => True) server [.returns 2] with
  | none => simp [ran] at both
  | some later =>
      rw [ran] at both
      exact ⟨server, later, reached, System.steps_of_runWithin ran, hasStatus_iff.mp both.1,
        hasStatus_iff.mp both.2⟩

/-- A nightly backup that succeeded keeps its state when its cancel is asked for. -/
theorem nightly_success_stays : ∃ server later : Server,
    Known server.db 0 (fun row => row.status = .success) ∧
      Known later.db 0 fun row => row.status = .success := by
  have ends : ((runningServer hourSettings).runWithin KeepsOutcomes (installation nightlyJob)
      ([.begin (.runJob none 1), .returns 0, .returns 0] ++ spawnedBackup 1 ++
        [.exits 1 0, .returns 1])).any (fun server => hasStatus 0 .success server &&
          ((runningServer hourSettings).runWithin KeepsOutcomes server
            [.begin (.cancelRun root 0), .returns 3, .returns 1]).isSome) = true := by decide
  obtain ⟨server, reached, both⟩ :=
    System.exists_reachable (fresh_installation hourSettings nightlyJob) ends
  rw [Bool.and_eq_true] at both
  obtain ⟨later, ran⟩ := Option.isSome_iff_exists.mp both.2
  have success := hasStatus_iff.mp both.1
  exact ⟨server, later, success,
    (final_states_stay reached (System.steps_of_runWithin ran) rfl 0).1 success⟩

end AmberBackup
