import AmberBackup.Server.StartBound

/-! # Runs settled in the queue

A run that is settled while it is queued, by a cancel or by the sweep, was not executed by
then. It keeps its status and is never executed, unless its opening write or the write of a
cancel lands on it later (`Unexecuted.step`).
-/

namespace AmberBackup

open Relational Transition Pool

/-- An agent claims the run. -/
def Event.claims (run : Uuid) : Event → Bool
  | .claimed other _ => other = run
  | _ => false

/-- How often the restic backup of a run was started, by the server or by an agent that
claimed the run. -/
def executions (run : Uuid) (journal : List Event) : Nat :=
  starts run journal + journal.countP (Event.claims run)

/-- A run that is settled and was never executed; the calls that may still execute it have
not opened it. -/
structure Unexecuted (status : RunStatus) (server : Server) (run : Uuid) : Prop where
  settled : Known server.db run fun row => row.status = status
  never : executions run server.journal = 0
  unopened : ∀ call ∈ server.calls, ∀ runner stage,
    call.execution = some (runner, run, stage) → stage = .waiting

/-- A claim is an event of its agent. -/
theorem exists_claimed {run : Uuid} {journal : List Event}
    (some : journal.countP (Event.claims run) ≠ 0) : ∃ agent, .claimed run agent ∈ journal := by
  obtain ⟨event, member, claims⟩ := List.countP_pos_iff.mp (Nat.pos_of_ne_zero some)
  cases event with
  | claimed other agent =>
      simp only [Event.claims, decide_eq_true_eq] at claims
      exact ⟨agent, claims ▸ member⟩
  | _ => cases claims

/-- What a step adds to the executions of a run. -/
theorem executions_append (run : Uuid) (journal events : List Event) :
    executions run (journal ++ events) = executions run journal + executions run events := by
  unfold executions starts
  rw [List.count_append, List.countP_append]
  omega

theorem executions_eq_zero {run : Uuid} {events : List Event}
    (unstarted : .started run ∉ events) (unclaimed : ∀ agent, .claimed run agent ∉ events) :
    executions run events = 0 := by
  have none : events.countP (Event.claims run) = 0 := by
    by_contra some
    obtain ⟨agent, listed⟩ := exists_claimed some
    exact unclaimed agent listed
  unfold executions starts
  rw [List.count_eq_zero.mpr unstarted, none]

section Step

variable {settings : Settings} {server : Server} {index : Nat} {current : Call}
  {outcome : Outcome} {effect : Effect} {status : RunStatus} {run : Uuid}

/-- A run in the queue was not executed yet. -/
theorem Grounded.never_executed (grounded : Grounded server) {run : Uuid}
    (queued : queuedRow server.db run = true) : executions run server.journal = 0 := by
  obtain ⟨row, present, status⟩ := queuedRow_iff.mp queued
  have unstarted : starts run server.journal = 0 :=
    List.count_eq_zero.mpr fun listed => (grounded.journal _ listed).row present status
  have unclaimed : server.journal.countP (Event.claims run) = 0 := by
    by_contra some
    obtain ⟨agent, listed⟩ := exists_claimed some
    exact ((grounded.journal _ listed).row present).1 status
  unfold executions
  omega

/-- The calls a step leaves do not open a run that the call it resumes did not open. -/
theorem Move.unopened_after (move : Move settings server index current outcome effect)
    (known : run ≠ freshId server.db.jobRuns)
    (before : ∀ runner stage, current.execution = some (runner, run, stage) → stage = .waiting)
    (notOpening : ∀ context, current ≠ .backup run (.openRun context)) {call : Call}
    (leaves : effect.Leaves call) {runner : Runner} {stage : Stage}
    (executes : call.execution = some (runner, run, stage)) : stage = .waiting := by
  by_contra opened
  rcases move.opened_from leaves executes opened with ⟨earlier, executed, past, -⟩ |
    ⟨-, context, opening⟩ | ⟨fresh, -⟩
  · exact past (before runner earlier executed)
  · exact notOpening context opening
  · exact known fresh

/-- A run settled in the queue stays as it is. -/
theorem Unexecuted.step (unexecuted : Unexecuted status server run) (final : status.final = true)
    (present : server.calls[index]? = some current)
    (notOpening : ∀ context, current ≠ .backup run (.openRun context))
    (notCancelled : status = .cancelled ∨ ∀ error, current ≠ .cancelRun run (.write error))
    (move : Move settings server index current outcome effect) :
    Unexecuted status (server.after index effect) run := by
  have member := List.mem_of_getElem? present
  obtain ⟨row, found, same⟩ := unexecuted.settled
  obtain ⟨after, kept, -⟩ := effect.statement.execute_later server.now server.db run row found
  have unopened : ∀ runner stage, current.execution = some (runner, run, stage) →
      stage = .waiting := unexecuted.unopened current member
  refine ⟨⟨after, kept, ?_⟩, ?_, ?_⟩
  · rcases move.final_kept found (same ▸ final) kept with still | ⟨context, opening⟩ |
      ⟨runner, stage, -, executes, stages⟩ | ⟨⟨error, cancels⟩, becomes⟩
    · exact still.trans same
    · exact absurd opening (notOpening context)
    · have waiting := unopened runner stage executes
      rcases stages with other | ⟨aborted, other⟩ <;> rw [waiting] at other <;> cases other
    · rcases notCancelled with cancelled | not
      · exact becomes.trans cancelled.symm
      · exact absurd cancels (not error)
  · change executions run (server.journal ++ effect.events) = 0
    rw [executions_append, unexecuted.never, executions_eq_zero]
    · intro listed
      obtain ⟨runner, executes, -⟩ := move.event_source listed
      cases unopened runner _ executes
    · intro agent listed
      obtain ⟨-, queued⟩ := move.event_source listed
      obtain ⟨other, here, waits⟩ := queuedRow_iff.mp queued
      rw [found] at here
      cases here
      rw [← same, waits] at final
      cases final
  · intro call listed runner stage executes
    rcases mem_advance listed with old | leaves
    · exact unexecuted.unopened call old runner stage executes
    · exact move.unopened_after unexecuted.settled.ne_fresh unopened notOpening leaves executes

/-- An update that settles a queued run, by a call that executes none. -/
theorem unexecuted_of_queued (grounded : Grounded server)
    (move : Move settings server index current outcome effect)
    (idle : current.execution = none) {update : RunUpdate}
    (issues : effect.statement = .updateRuns update) (hit : run ∈ server.db.runsHit update)
    (queued : queuedRow server.db run = true)
    (sets : ∀ row, (update.set server.now row).status = status)
    (unclaimed : ∀ agent, .claimed run agent ∉ effect.events) :
    Unexecuted status (server.after index effect) run := by
  obtain ⟨row, found, waits⟩ := queuedRow_iff.mp queued
  have notExecuting : ∀ runner stage, current.execution ≠ some (runner, run, stage) := by
    intro runner stage executes
    rw [idle] at executes
    cases executes
  refine ⟨?_, ?_, ?_⟩
  · change Known (effect.statement.execute server.now server.db) run _
    rw [issues]
    exact Known.updated hit fun row _ _ => sets row
  · change executions run (server.journal ++ effect.events) = 0
    rw [executions_append, grounded.never_executed queued, executions_eq_zero]
    · intro started
      obtain ⟨runner, executes, -⟩ := move.event_source started
      exact notExecuting runner _ executes
    · exact unclaimed
  · intro call member runner stage executes
    rcases mem_advance member with old | leaves
    · by_contra opened
      have known := (grounded.calls call old).execution runner run stage executes
      exact ((known.row found).2.1 opened).1 waits
    · refine move.unopened_after ?_ (fun runner stage executed =>
        (notExecuting runner stage executed).elim) ?_ leaves executes
      · have known : Known server.db run fun row => row.status = .queued := ⟨row, found, waits⟩
        exact known.ne_fresh
      · rintro context rfl
        exact notExecuting _ _ rfl

end Step

end AmberBackup
