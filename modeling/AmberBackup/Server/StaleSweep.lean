import AmberBackup.Server.Unexecuted

/-! # The sweep of the queue

The sweep fails a queued run once it has waited for longer than the timeout, counted for a
retry from the instant it became due. The starter of the retries erases that instant when
it releases a retry, and neither the execution of the run nor a cancel looks at its status
again. In a run of the server where a released retry is swept late enough, and no opening
write and no cancel lands on a swept run, the sweep keeps its law (`sweep_in_time`).
-/

namespace AmberBackup

open Relational Transition Pool

/-- More than the timeout has passed since the retry became due. -/
def overdue (settings : Settings) (server : Server) (run : Uuid) : Bool :=
  server.journal.all fun event =>
    match event with
    | .retryQueued retry dueAt =>
        retry ≠ run || dueAt + settings.runQueueTimeoutSeconds * 1000 < server.now
    | _ => true

/-- The sweep has failed the run. -/
def swept (server : Server) (run : Uuid) : Bool := .timedOut run ∈ server.journal

/-- A retry waits for no instant: it was released. -/
def released (db : Db) (run : Uuid) : Bool :=
  (db.jobRuns.get? run).any fun row => row.notBefore.isNone

/-- What a step of a call must meet: a sweep hits a released retry only when it is overdue,
and no opening write and no write of a cancel lands on a swept run. -/
def Call.sweepsInTime (settings : Settings) (server : Server) (call : Call) : Bool :=
  (match call with
    | .runner (.failStale staleBefore (kind :: _) _) =>
        (server.db.runsHit (.failStale kind staleBefore "")).all fun run =>
          !released server.db run || overdue settings server run
    | _ => true) &&
  call.opens.all (fun run => !swept server run) && call.cancels.all fun run => !swept server run

abbrev SweepsInTime (settings : Settings) (server : Server) (action : Action) : Prop :=
  onSteps (fun server call _ => call.sweepsInTime settings server) server action = true

theorem overdue_iff {settings : Settings} {server : Server} {run : Uuid} :
    overdue settings server run = true ↔ ∀ dueAt, .retryQueued run dueAt ∈ server.journal →
      dueAt + settings.runQueueTimeoutSeconds * 1000 < server.now := by
  unfold overdue
  rw [List.all_eq_true]
  constructor
  · intro all dueAt listed
    simpa using all _ listed
  · intro late event listed
    cases event with
    | retryQueued retry dueAt =>
        by_cases same : retry = run
        · subst same
          simpa using late dueAt listed
        · simp [same]
    | _ => rfl

structure StaleSweep (settings : Settings) (server : Server) : Prop where
  since : ∀ call ∈ server.calls, ∀ staleBefore, call.sweepsBefore = some staleBefore →
    staleBefore ≤ server.now - settings.runQueueTimeoutSeconds * 1000
  late : ∀ run dueAt, .timedOut run ∈ server.journal → .retryQueued run dueAt ∈ server.journal →
    dueAt + settings.runQueueTimeoutSeconds * 1000 < server.now
  unexecuted : ∀ run, .timedOut run ∈ server.journal → Unexecuted .failed server run
  announcing : ∀ run, .timedOut run ∈ server.journal → ∀ status channelIds,
    .notifyJobRun run (.readChannels status channelIds) ∈ server.calls → status = .failed
  announced : ∀ run, .timedOut run ∈ server.journal → ∀ status channels,
    .notified run status channels ∈ server.journal → status = .failed

theorem Call.sweepsBefore_of_execution {call : Call} {runner : Runner} {run : Uuid} {stage : Stage}
    (executes : call.execution = some (runner, run, stage)) : call.sweepsBefore = none := by
  cases call with
  | backup | prune | check => rfl
  | _ => cases executes

/-- A sweep starts with the instant that its timeout leads to. -/
theorem Entry.call_sweepsBefore {settings : Settings} {now : Nat} {entry : Entry}
    {before : Nat} (sweeps : (entry.call settings now).sweepsBefore = some before) :
    before = staleBefore settings now := by
  cases entry with
  | failStaleQueuedRuns =>
      by_cases off : settings.runQueueTimeoutSeconds = 0
      · simp [Entry.call, off, Call.sweepsBefore] at sweeps
      · simp only [Entry.call, off, ↓reduceIte, Call.sweepsBefore, Option.some.injEq] at sweeps
        exact sweeps.symm
  | _ => cases sweeps

theorem sweepsBefore_of_dispatched {db : Db} {run : Uuid} {call : Call}
    (started : call ∈ dispatched db run) : call.sweepsBefore = none := by
  rcases dispatched_cases db run with none | one
  · simp [none] at started
  · rw [one, List.mem_singleton] at started
    subst started
    rfl

section Step

variable {settings : Settings} {server : Server} {index : Nat} {current : Call}
  {outcome : Outcome} {effect : Effect}

/-- A sweep goes on with the instant it has started with. -/
theorem Move.sweepsBefore_from (move : Move settings server index current outcome effect)
    {call : Call} (leaves : effect.Leaves call) {staleBefore : Nat}
    (sweeps : call.sweepsBefore = some staleBefore) : current.sweepsBefore = some staleBefore := by
  have stays : ∀ {other : Call}, other.sweepsBefore = none → call ≠ other := by
    rintro other none rfl
    rw [none] at sweeps
    cases sweeps
  have unstarted : (∀ other ∈ effect.spawned, other.Idle) → call ∉ effect.spawned :=
    fun idle started => stays (idle call started).sweepsBefore rfl
  cases move with
  | sweep =>
      rcases leaves with same | started
      · rw [same] at sweeps
        exact sweeps
      · cases started
  | idle was next spawned =>
      rcases leaves with same | started
      · exact absurd same (stays next.sweepsBefore)
      · exact absurd started (unstarted spawned)
  | dispatch other | dispatchDue other =>
      rcases leaves with same | started
      · exact absurd same (stays rfl)
      · exact absurd rfl (stays (sweepsBefore_of_dispatched started))
  | swept staleBefore stale =>
      rcases leaves with same | started
      · exact absurd same (stays rfl)
      · obtain ⟨_, -, equal⟩ := List.mem_map.mp started
        exact absurd equal.symm (stays rfl)
  | advance was becomes idle | recordSuccess was becomes write idle =>
      rcases leaves with same | started
      · exact absurd same (stays (Call.sweepsBefore_of_execution becomes))
      · exact absurd started (unstarted idle)
  | register was becomes | start was becomes | exits _ was becomes | readFlag was becomes
  | recordFailure was owner becomes | fails was before becomes =>
      rcases leaves with same | started
      · exact absurd same (stays (Call.sweepsBefore_of_execution becomes))
      · cases started
  | claim was becomes =>
      rcases leaves with same | started
      · exact absurd same (stays becomes.sweepsBefore)
      · cases started
  | insertCheck was job repository trigger onServer info =>
      rcases leaves with same | started
      · exact absurd same (stays rfl)
      · dsimp only at started
        split at started
        · exact absurd (List.mem_singleton.mp started) (stays rfl)
        · cases started
  | pruneRow | patchRepository | finishBackup | insertPrune | reportFinalize | reportPatch =>
      rcases leaves with same | started
      · exact absurd same (stays rfl)
      · exact absurd (List.mem_singleton.mp started) (stays rfl)
  | reportStats _ _ _ _ _ _ _ _ _ _ idle becomes =>
      rcases leaves with same | started
      · rcases becomes with equal | equal | ⟨equal, -⟩ <;>
          exact absurd (same.trans equal) (stays rfl)
      · exact absurd started (unstarted idle)
  | reportPrune _ _ _ _ _ _ _ _ _ idle =>
      rcases leaves with same | started
      · exact absurd same (stays rfl)
      · exact absurd started (unstarted idle)
  | reportSettle _ _ _ _ _ _ becomes =>
      rcases leaves with same | started
      · rcases becomes with equal | equal <;> exact absurd (same.trans equal) (stays rfl)
      · cases started
  | _ =>
      rcases leaves with same | started
      · exact absurd same (stays rfl)
      · cases started

/-- The sweep that fails a run, and the row it finds. -/
structure Sweeps (server : Server) (current : Call) (effect : Effect) (run : Uuid)
    (kind : RunKind) (staleBefore : Nat) (row : JobRun) : Prop where
  calls : ∃ kinds stale, current = .runner (.failStale staleBefore (kind :: kinds) stale)
  issues : ∃ error, effect.statement = .updateRuns (.failStale kind staleBefore error) ∧
    run ∈ server.db.runsHit (.failStale kind staleBefore error)
  found : server.db.jobRuns.get? run = some row
  queued : row.status = .queued
  stale : row.notBefore.getD row.createdAt < staleBefore

theorem Move.sweeps (move : Move settings server index current outcome effect) {run : Uuid}
    (listed : .timedOut run ∈ effect.events) :
    ∃ kind staleBefore row, Sweeps server current effect run kind staleBefore row := by
  obtain ⟨kind, staleBefore, error, issues, hit⟩ := move.event_source listed
  obtain ⟨row, found, hits⟩ := Db.mem_runsHit.mp hit
  simp only [RunUpdate.hits, Bool.and_eq_true, decide_eq_true_eq] at hits
  exact ⟨kind, staleBefore, row, move.update_source issues, ⟨error, issues, hit⟩, found, hits.1.2,
    hits.2⟩

theorem StaleSweep.late_after (law : StaleSweep settings server) (grounded : Grounded server)
    (mine : current ∈ server.calls) (permitted : current.sweepsInTime settings server = true)
    (move : Move settings server index current outcome effect) {run : Uuid} {dueAt : Nat}
    (timedOut : .timedOut run ∈ server.journal ++ effect.events)
    (due : .retryQueued run dueAt ∈ server.journal ++ effect.events) :
    dueAt + settings.runQueueTimeoutSeconds * 1000 < server.now := by
  rcases List.mem_append.mp timedOut with before | sweeps
  · rcases List.mem_append.mp due with old | new
    · exact law.late run dueAt before old
    · obtain ⟨fresh, -⟩ := move.event_source new
      exact absurd fresh (grounded.journal _ before).ne_fresh
  · obtain ⟨kind, staleBefore, row', sweep⟩ := move.sweeps sweeps
    obtain ⟨kinds, stale, same⟩ := sweep.calls
    rcases List.mem_append.mp due with old | new
    · have since := law.since current mine staleBefore (by rw [same]; rfl)
      have late := sweep.stale
      rcases ((grounded.journal _ old).row sweep.found).2 with waits | free
      · rw [waits, Option.getD_some] at late
        omega
      · simp only [Call.sweepsInTime, same, Bool.and_eq_true, List.all_eq_true] at permitted
        obtain ⟨error, -, hit⟩ := sweep.issues
        have allowed := permitted.1.1 run hit
        have isReleased : released server.db run = true := by
          simp [released, sweep.found, free]
        rw [isReleased, Bool.not_true, Bool.false_or] at allowed
        exact overdue_iff.mp allowed dueAt old
    · obtain ⟨-, parent, failed, other⟩ := move.event_source new
      rw [other] at same
      cases same

theorem StaleSweep.unexecuted_after (law : StaleSweep settings server) (grounded : Grounded server)
    (present : server.calls[index]? = some current)
    (permitted : current.sweepsInTime settings server = true)
    (move : Move settings server index current outcome effect) {run : Uuid}
    (timedOut : .timedOut run ∈ server.journal ++ effect.events) :
    Unexecuted .failed (server.after index effect) run := by
  rcases List.mem_append.mp timedOut with before | sweeps
  · have isSwept : swept server run = true := by simpa [swept] using before
    simp only [Call.sweepsInTime, Bool.and_eq_true] at permitted
    refine (law.unexecuted run before).step rfl present ?_ (Or.inr ?_) move
    · rintro context rfl
      simp [Call.opens, isSwept] at permitted
    · rintro error rfl
      simp [Call.cancels, isSwept] at permitted
  · obtain ⟨kind, staleBefore, row', sweep⟩ := move.sweeps sweeps
    obtain ⟨kinds, stale, same⟩ := sweep.calls
    obtain ⟨error, issues, hit⟩ := sweep.issues
    refine unexecuted_of_queued grounded move (by rw [same]; rfl) issues hit
      (queuedRow_iff.mpr ⟨row', sweep.found, sweep.queued⟩) (fun _ => rfl) ?_
    intro agent claimed
    obtain ⟨other, -⟩ := move.event_source claimed
    rw [issues] at other
    cases other

theorem StaleSweep.announcing_after (law : StaleSweep settings server) (grounded : Grounded server)
    (move : Move settings server index current outcome effect) {run : Uuid}
    (timedOut : .timedOut run ∈ server.journal ++ effect.events) {status : RunStatus}
    {channelIds : List Uuid}
    (listed : .notifyJobRun run (.readChannels status channelIds) ∈
      (server.after index effect).calls) : status = .failed := by
  rcases mem_advance listed with old | leaves
  · rcases List.mem_append.mp timedOut with before | sweeps
    · exact law.announcing run before status channelIds old
    · obtain ⟨kind, staleBefore, row', sweep⟩ := move.sweeps sweeps
      exact absurd sweep.queued (((grounded.calls _ old).settling run rfl).row sweep.found)
  · obtain ⟨reads, row, job, found, -, -, same, -⟩ := move.settling_source leaves
    rcases List.mem_append.mp timedOut with before | sweeps
    · exact same.trans ((law.unexecuted run before).settled.row found)
    · obtain ⟨kind, staleBefore, row', sweep⟩ := move.sweeps sweeps
      obtain ⟨kinds, stale, other⟩ := sweep.calls
      rw [reads] at other
      cases other

theorem StaleSweep.announced_after (law : StaleSweep settings server) (grounded : Grounded server)
    (mine : current ∈ server.calls)
    (move : Move settings server index current outcome effect) {run : Uuid}
    (timedOut : .timedOut run ∈ server.journal ++ effect.events) {status : RunStatus}
    {channels : List Uuid}
    (listed : .notified run status channels ∈ server.journal ++ effect.events) :
    status = .failed := by
  rcases List.mem_append.mp listed with old | new
  · rcases List.mem_append.mp timedOut with before | sweeps
    · exact law.announced run before status channels old
    · obtain ⟨kind, staleBefore, row', sweep⟩ := move.sweeps sweeps
      exact absurd sweep.queued ((grounded.journal _ old).row sweep.found)
  · obtain ⟨channelIds, reads, -⟩ := move.event_source new
    rcases List.mem_append.mp timedOut with before | sweeps
    · exact law.announcing run before status channelIds (reads ▸ mine)
    · obtain ⟨kind, staleBefore, row', sweep⟩ := move.sweeps sweeps
      obtain ⟨kinds, stale, other⟩ := sweep.calls
      rw [reads] at other
      cases other

end Step

section Reachable

variable {settings : Settings} {server : Server}

theorem staleSweep_of_reachable
    (reached : (runningServer settings).Reachable (SweepsInTime settings) server) :
    StaleSweep settings server := by
  refine System.Invariant.onTopOf _ _ (fun _ here => grounded_of_reachable here) ?_ ?_ reached
  · intro state fresh
    have journal := Server.Fresh.journal fresh
    exact ⟨by simp [Server.Fresh.calls fresh], by simp [journal], by simp [journal],
      by simp [journal], by simp [journal]⟩
  · intro state action next grounded _ law permitted stepped
    rcases Server.step_cases stepped with ⟨elapsed, -, same⟩ | ⟨entry, -, same⟩ |
      ⟨index, outcome, current, effect, resumes, present, move, same⟩
    · subst same
      refine ⟨fun call member staleBefore sweeps => ?_, fun run dueAt timedOut due => ?_,
        fun run timedOut => ?_, law.announcing, law.announced⟩
      · have since := law.since call member staleBefore sweeps
        change staleBefore ≤ state.now + elapsed - _
        omega
      · have late := law.late run dueAt timedOut due
        change _ < state.now + elapsed
        omega
      · have before := law.unexecuted run timedOut
        exact ⟨before.settled, before.never, before.unopened⟩
    · subst same
      have unbound := Entry.call_unbound settings state.now entry
      refine ⟨fun call member staleBefore sweeps => ?_, law.late, fun run timedOut => ?_,
        fun run timedOut status channelIds member => ?_, law.announced⟩
      · rcases List.mem_append.mp member with old | new
        · exact law.since call old staleBefore sweeps
        · rw [List.mem_singleton.mp new] at sweeps
          exact Nat.le_of_eq (Entry.call_sweepsBefore sweeps)
      · have before := law.unexecuted run timedOut
        refine ⟨before.settled, before.never, fun call member runner stage executes => ?_⟩
        rcases List.mem_append.mp member with old | new
        · exact before.unopened call old runner stage executes
        · rw [List.mem_singleton.mp new] at executes
          exact (unbound.not_executing executes).elim
      · rcases List.mem_append.mp member with old | new
        · exact law.announcing run timedOut status channelIds old
        · have none := unbound.settling
          rw [← List.mem_singleton.mp new] at none
          cases none
    · subst resumes
      subst same
      have mine := List.mem_of_getElem? present
      have permits := onSteps_resume permitted present
      refine ⟨fun call member staleBefore sweeps => ?_,
        fun run dueAt timedOut due => law.late_after grounded mine permits move timedOut due,
        fun run timedOut => law.unexecuted_after grounded present permits move timedOut,
        fun run timedOut status channelIds listed =>
          law.announcing_after grounded move timedOut listed,
        fun run timedOut status channels listed =>
          law.announced_after grounded mine move timedOut listed⟩
      rcases mem_advance member with old | leaves
      · exact law.since call old staleBefore sweeps
      · exact law.since current mine staleBefore (move.sweepsBefore_from leaves sweeps)

/-- **The sweep is in time.** As long as a released retry is swept only once it is overdue,
and no opening write and no cancel lands on a swept run, a retry is swept only when more
than the timeout has passed since it became due, and a swept run stays failed, is never
executed and is announced as nothing but failed. -/
theorem sweep_in_time
    (reached : (runningServer settings).Reachable (SweepsInTime settings) server) (run : Uuid)
    (timedOut : .timedOut run ∈ server.journal) :
    (∀ dueAt, .retryQueued run dueAt ∈ server.journal →
        dueAt + settings.runQueueTimeoutSeconds * 1000 < server.now) ∧
      Known server.db run (fun row => row.status = .failed) ∧
      executions run server.journal = 0 ∧
      ∀ status channels, .notified run status channels ∈ server.journal → status = .failed := by
  have law := staleSweep_of_reachable reached
  exact ⟨fun dueAt due => law.late run dueAt timedOut due, (law.unexecuted run timedOut).settled,
    (law.unexecuted run timedOut).never, law.announced run timedOut⟩

end Reachable

/-- The nightly job, with one retry after two hours. -/
def retriedJob : BackupJob :=
  { nightlyJob with retryMax := 1, retryDelaySeconds := 7200 }

/-- A backup fails and its retry becomes due; the starter releases the retry, and the sweep
comes before the dispatch. -/
def sweptAtRelease : List Action :=
  [.begin (.runJob none 1), .returns 0, .returns 0] ++ spawnedBackup 1 ++ failedBackup 1 2 ++
    [.tick 7200001, .begin .startDueRetries, .returns 3, .begin .failStaleQueuedRuns, .returns 4,
      .returns 3] ++ spawnedBackup 5

/-- The retry is failed as not picked up as soon as it is due, and executed all the same. -/
theorem released_retry_swept : ∃ server dueAt,
    (runningServer hourSettings).Reachable (fun _ _ => True) server ∧
      .retryQueued 1 dueAt ∈ server.journal ∧ .timedOut 1 ∈ server.journal ∧
      server.now ≤ dueAt + 1 ∧ executions 1 server.journal = 1 := by
  have ends : ((runningServer hourSettings).runWithin (fun _ _ => True)
      (installation retriedJob) sweptAtRelease).any (fun server =>
        .retryQueued 1 7201000 ∈ server.journal ∧ .timedOut 1 ∈ server.journal ∧
          server.now ≤ 7201001 ∧ executions 1 server.journal = 1) = true := by decide
  obtain ⟨server, reached, all⟩ :=
    System.exists_reachable (fresh_installation hourSettings retriedJob) ends
  simp only [decide_eq_true_eq] at all
  exact ⟨server, 7201000, reached, all⟩

/-- A backup that its agent does not fetch is swept in time. -/
theorem offline_agent_swept : ∃ server : Server, .timedOut 0 ∈ server.journal ∧
    Known server.db 0 (fun row => row.status = .failed) := by
  have ends : ((runningServer hourSettings).runWithin (SweepsInTime hourSettings)
      (installation agentJob) [.begin (.runJob none 1), .returns 0, .returns 0, .tick 3600001,
        .begin .failStaleQueuedRuns, .returns 1]).any
          (fun server => .timedOut 0 ∈ server.journal) = true := by decide
  obtain ⟨server, reached, listed⟩ :=
    System.exists_reachable (fresh_installation hourSettings agentJob) ends
  have timedOut : .timedOut 0 ∈ server.journal := by simpa using listed
  exact ⟨server, timedOut, (sweep_in_time reached 0 timedOut).2.1⟩

end AmberBackup
