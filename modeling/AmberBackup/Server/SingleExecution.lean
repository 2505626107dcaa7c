import AmberBackup.Server.Unexecuted

/-! # One executor for a run

Whether the server executes a backup is decided from the location of its job, whether an
agent may claim it from the job's agent, and the server marks a run running without
looking at it. In a run of the server whose opening writes find their runs unclaimed and
not cancelled, each run is executed by at most one of the server and the agents, and a run
that was withdrawn from the queue by none (`single_executor`). Without that condition an
edit of the job lets both execute it (`executed_twice`).
-/

namespace AmberBackup

open Relational Transition Pool

/-- An opening write finds its run unclaimed and not cancelled. -/
def opensUnclaimed (server : Server) (action : Action) : Bool :=
  (server.openedRow action).all fun row => row.agentId = none && row.status ≠ .cancelled

/-- Left the queue and never handed to an agent. -/
def keptFact (row : JobRun) : Prop := row.status ≠ .queued ∧ row.agentId = none

/-- The runs that the server has opened were not handed to an agent. -/
def OpenedKept (server : Server) : Prop :=
  ∀ call ∈ server.calls, ∀ runner run stage,
    call.execution = some (runner, run, stage) → stage ≠ .waiting → Known server.db run keptFact

structure Single (server : Server) : Prop where
  opened : ∀ call ∈ server.calls, ∀ runner run stage,
    call.execution = some (runner, run, stage) → stage ≠ .waiting → Known server.db run keptFact
  started : ∀ run, .started run ∈ server.journal → Known server.db run keptFact
  claimed : ∀ run, server.journal.countP (Event.claims run) ≤ 1
  withdrawn : ∀ run, .withdrawn run ∈ server.journal → Unexecuted .cancelled server run

theorem openedRow_of_resume {server : Server} {index : Nat} {outcome : Outcome} {run : Uuid}
    {context : RunContext} (present : server.calls[index]? = some (.backup run (.openRun context))) :
    server.openedRow (.resume index outcome) = server.db.jobRuns.get? run := by
  simp [Server.openedRow, Server.resumed, present, Call.opens]

section Step

variable {settings : Settings} {server : Server} {index : Nat} {current : Call}
  {outcome : Outcome} {effect : Effect}

theorem count_claims_le_one (move : Move settings server index current outcome effect)
    (run : Uuid) : effect.events.countP (Event.claims run) ≤ 1 := by
  by_cases some : effect.events.countP (Event.claims run) = 0
  · omega
  · obtain ⟨agent, listed⟩ := exists_claimed some
    cases move with
    | claim was becomes other agent =>
        dsimp only
        split
        · exact List.countP_le_length
        · simp
    | sweep =>
        obtain ⟨_, -, same⟩ := List.mem_map.mp listed
        cases same
    | idle _ _ _ _ events => exact Bool.noConfusion (events _ listed)
    | cancelWrite =>
        simp only [List.mem_cons, reduceCtorEq, false_or] at listed
        split at listed <;> simp at listed
    | exits | notify =>
        dsimp only at listed
        split at listed <;> simp at listed
    | _ => simp at listed

/-- The opening write of a permitted step. -/
theorem opened_unclaimed {run : Uuid} {context : RunContext} {row : JobRun}
    (permitted : opensUnclaimed server (.resume index outcome) = true)
    (present : server.calls[index]? = some (.backup run (.openRun context)))
    (found : server.db.jobRuns.get? run = some row) :
    row.agentId = none ∧ row.status ≠ .cancelled := by
  unfold opensUnclaimed at permitted
  rw [openedRow_of_resume present, found] at permitted
  simpa using permitted

/-- An execution that opened its run goes on with a run that no agent was handed. -/
theorem OpenedKept.after (kept : OpenedKept server) (grounded : Grounded server)
    (present : server.calls[index]? = some current)
    (unclaimed : ∀ run context row, current = .backup run (.openRun context) →
      server.db.jobRuns.get? run = some row → row.agentId = none)
    (move : Move settings server index current outcome effect) :
    OpenedKept (server.after index effect) := by
  intro call listed runner run stage executes opened
  have member := List.mem_of_getElem? present
  have later := effect.statement.execute_later server.now server.db
  have fromEffect : effect.Leaves call → Known (server.after index effect).db run keptFact := by
    intro leaves
    rcases move.opened_from leaves executes opened with ⟨earlier, executed, past, -⟩ |
      ⟨issues, context, same⟩ | ⟨fresh, other, -⟩
    · exact (kept current member runner run earlier executed past).later later stable_kept
    · have executing : current.execution = some (.backup, run, .waiting) := by
        rw [same]
        rfl
      obtain ⟨row, found, -⟩ := grounded.known member executing
      have free := unclaimed run context row same found
      change Known (effect.statement.execute server.now server.db) run keptFact
      rw [issues]
      refine Known.updated (Db.mem_runsHit.mpr ⟨row, found, by simp [RunUpdate.hits]⟩) ?_
      intro same here _
      rw [found] at here
      cases here
      exact ⟨by simp [RunUpdate.set], free⟩
    · have after := move.grounded grounded member
      have known : call.Grounded (effect.statement.execute server.now server.db) := by
        rcases leaves with same | started
        · exact same ▸ after.next
        · exact after.spawned call started
      exact (known.execution runner run stage executes).weaken fun _ fact => fact.2.2 other
  rcases mem_advance listed with old | same | started
  · exact (kept call old runner run stage executes opened).later later stable_kept
  · exact fromEffect (Or.inl same)
  · exact fromEffect (Or.inr started)

theorem Single.opened_after (single : Single server) (grounded : Grounded server)
    (present : server.calls[index]? = some current)
    (permitted : opensUnclaimed server (.resume index outcome) = true)
    (move : Move settings server index current outcome effect) :
    OpenedKept (server.after index effect) := by
  refine OpenedKept.after single.opened grounded present ?_ move
  intro run context row same found
  exact (opened_unclaimed permitted (same ▸ present) found).1

theorem Single.started_after (single : Single server)
    (present : server.calls[index]? = some current)
    (move : Move settings server index current outcome effect) :
    ∀ run, .started run ∈ (server.after index effect).journal →
      Known (server.after index effect).db run keptFact := by
  intro run listed
  have later := effect.statement.execute_later server.now server.db
  rcases List.mem_append.mp listed with old | new
  · exact (single.started run old).later later stable_kept
  · obtain ⟨runner, executes, -⟩ := move.event_source new
    exact (single.opened current (List.mem_of_getElem? present) runner run .opened executes
      (by simp)).later later stable_kept

theorem Single.claimed_after (single : Single server) (grounded : Grounded server)
    (move : Move settings server index current outcome effect) :
    ∀ run, (server.after index effect).journal.countP (Event.claims run) ≤ 1 := by
  intro run
  have before := single.claimed run
  change (server.journal ++ effect.events).countP (Event.claims run) ≤ 1
  rw [List.countP_append]
  by_cases some : effect.events.countP (Event.claims run) = 0
  · omega
  · obtain ⟨agent, listed⟩ := exists_claimed some
    obtain ⟨-, queued⟩ := move.event_source listed
    have never := grounded.never_executed queued
    have once := count_claims_le_one move run
    unfold executions at never
    omega

/-- A cancel that finds its run queued withdraws it. -/
theorem withdrawn_of_event {run : Uuid} (grounded : Grounded server)
    (move : Move settings server index current outcome effect)
    (listed : .withdrawn run ∈ effect.events) :
    Unexecuted .cancelled (server.after index effect) run := by
  obtain ⟨queued, error, same, issues⟩ := move.event_source listed
  obtain ⟨row, found, -⟩ := queuedRow_iff.mp queued
  refine unexecuted_of_queued grounded move (by rw [same]; rfl) issues
    (Db.mem_runsHit.mpr ⟨row, found, by simp [RunUpdate.hits]⟩) queued (fun _ => rfl) ?_
  intro agent claimed
  obtain ⟨other, -⟩ := move.event_source claimed
  rw [issues] at other
  cases other

theorem Single.step {action : Action} {next : Server} (single : Single server)
    (grounded : Grounded server) (permitted : opensUnclaimed server action = true)
    (stepped : server.step settings action = some next) : Single next := by
  rcases Server.step_cases stepped with ⟨elapsed, -, same⟩ | ⟨entry, -, same⟩ |
    ⟨index, outcome, current, effect, resumes, present, move, same⟩
  · subst same
    exact ⟨single.opened, single.started, single.claimed,
      fun run listed => ⟨(single.withdrawn run listed).settled,
        (single.withdrawn run listed).never, (single.withdrawn run listed).unopened⟩⟩
  · subst same
    have idle := Entry.call_unbound settings server.now entry
    refine ⟨?_, single.started, single.claimed, fun run listed =>
      ⟨(single.withdrawn run listed).settled, (single.withdrawn run listed).never, ?_⟩⟩
    · intro call member runner run stage executes opened
      rcases List.mem_append.mp member with old | new
      · exact single.opened call old runner run stage executes opened
      · rw [List.mem_singleton.mp new] at executes
        exact (idle.not_executing executes).elim
    · intro call member runner stage executes
      rcases List.mem_append.mp member with old | new
      · exact (single.withdrawn run listed).unopened call old runner stage executes
      · rw [List.mem_singleton.mp new] at executes
        exact (idle.not_executing executes).elim
  · subst resumes
    subst same
    refine ⟨single.opened_after grounded present permitted move,
      single.started_after present move, single.claimed_after grounded move, ?_⟩
    intro run listed
    rcases List.mem_append.mp listed with old | new
    · refine (single.withdrawn run old).step rfl present ?_ (Or.inl rfl) move
      rintro context rfl
      obtain ⟨row, found, cancelled⟩ := (single.withdrawn run old).settled
      exact (opened_unclaimed permitted present found).2 cancelled
    · exact withdrawn_of_event grounded move new

end Step

/-- The runs of the server whose opening writes find their runs unclaimed and not
cancelled. -/
abbrev OpensUnclaimed (server : Server) (action : Action) : Prop :=
  opensUnclaimed server action = true

theorem single_of_reachable {settings : Settings} {server : Server}
    (reached : (runningServer settings).Reachable OpensUnclaimed server) : Single server := by
  refine System.Invariant.onTopOf _ _ (fun _ here => grounded_of_reachable here) ?_ ?_ reached
  · intro state fresh
    have calls := Server.Fresh.calls fresh
    have journal := Server.Fresh.journal fresh
    exact ⟨by simp [calls], by simp [journal], by simp [journal], by simp [journal]⟩
  · intro state action next grounded _ single permitted stepped
    exact single.step grounded permitted stepped

/-- **A run is executed at most once.** As long as every opening write finds its run
unclaimed and not cancelled, each run is executed at most once by the server and the
agents together, and a run withdrawn from the queue is not executed at all. -/
theorem single_executor {settings : Settings} {server : Server}
    (reached : (runningServer settings).Reachable OpensUnclaimed server) (run : Uuid) :
    executions run server.journal ≤ 1 ∧
      (.withdrawn run ∈ server.journal → executions run server.journal = 0) := by
  have single := single_of_reachable reached
  have started := start_bound reached run
  refine ⟨?_, fun listed => (single.withdrawn run listed).never⟩
  have claimed := single.claimed run
  unfold executions
  by_cases none : starts run server.journal = 0
  · omega
  · have kept : Known server.db run keptFact :=
      single.started run (by
        by_contra missing
        exact none (List.count_eq_zero.mpr missing))
    have unclaimed : server.journal.countP (Event.claims run) = 0 := by
      by_contra some
      obtain ⟨agent, listed⟩ := exists_claimed some
      obtain ⟨row, present, fact⟩ := kept
      exact ((grounded_of_reachable reached).journal _ listed |>.row present).2 fact.2
    omega

/-- An edit hands the job to an agent between the dispatch and the execution, and the agent
polls. -/
def editedDuringDispatch : List Action :=
  [.begin (.runJob (some root) 1), .returns 0, .returns 0,
    .begin (.updateJob root 1 { agentId := some (some 7) }), .returns 2,
    .begin (.poll 7 none {})] ++ claimedBackup 3 ++ spawnedBackup 1

/-- Then the agent and the server both execute the run. -/
theorem executed_twice : ∃ server,
    (runningServer hourSettings).Reachable (fun _ _ => True) server ∧
      executions 0 server.journal = 2 := by
  have ends : ((runningServer hourSettings).runWithin (fun _ _ => True)
      (installation nightlyJob) editedDuringDispatch).any
        (fun server => executions 0 server.journal = 2) = true := by decide
  obtain ⟨server, reached, twice⟩ :=
    System.exists_reachable (fresh_installation hourSettings nightlyJob) ends
  exact ⟨server, reached, by simpa using twice⟩

/-- A run of the nightly job that nobody interferes with is executed once. -/
theorem nightly_executed_once : ∃ server : Server, starts 0 server.journal = 1 ∧
    executions 0 server.journal ≤ 1 := by
  have ends : ((runningServer hourSettings).runWithin OpensUnclaimed (installation nightlyJob)
      ([.begin (.runJob none 1), .returns 0, .returns 0] ++ spawnedBackup 1)).any
        (fun server => starts 0 server.journal = 1) = true := by decide
  obtain ⟨server, reached, once⟩ :=
    System.exists_reachable (fresh_installation hourSettings nightlyJob) ends
  exact ⟨server, by simpa using once, (single_executor reached 0).1⟩

end AmberBackup
