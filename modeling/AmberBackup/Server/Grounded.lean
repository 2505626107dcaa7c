import AmberBackup.Server.Later

/-! # What calls and events know of the runs

A call in flight and an event of the past refer to runs that exist and are of the right
kind, that have left the queue where the call or the event implies it, and whose agent is
as they expect. All of this holds in every reachable state, whatever the order of the steps
(`grounded_of_reachable`).
-/

namespace AmberBackup

open Relational Transition

/-- The kind of the runs a runner executes. -/
def Runner.kind : Runner → RunKind
  | .prune => .prune
  | .check => .check
  | .backup | .restore => .backup

/-- What an execution implies about its run. -/
def executionFact (runner : Runner) (stage : Stage) (row : JobRun) : Prop :=
  row.kind = runner.kind ∧
    (stage ≠ .waiting → row.status ≠ .queued ∧ row.startedAt ≠ none) ∧
    (runner ≠ .backup → row.status ≠ .queued ∧ row.agentId = none)

/-- The failed run a call is about to retry. -/
def Call.retrying : Call → Option (Uuid × FailedRun)
  | .finalize run (.retryActive failed) => some (run, failed)
  | .finalize run (.retryInsert failed _) => some (run, failed)
  | _ => none

/-- The check a call is about to settle for an agent. -/
def Call.settlingCheck : Call → Option Uuid
  | .submitResult _ task _ (.settleCheck ..) => some task
  | _ => none

def failedFact (failed : FailedRun) (row : JobRun) : Prop :=
  row.kind = .backup ∧ row.jobId = failed.jobId ∧ row.attempt = failed.attempt

structure Call.Grounded (db : Db) (call : Call) : Prop where
  starting : ∀ run ∈ call.starting, Known db run fun row => row.kind = .backup
  sweeping : ∀ run ∈ call.sweeping, Known db run fun row => row.status ≠ .queued
  execution : ∀ runner run stage, call.execution = some (runner, run, stage) →
    Known db run (executionFact runner stage)
  settling : ∀ run, call.settling = some run → Known db run fun row => row.status ≠ .queued
  retrying : ∀ run failed, call.retrying = some (run, failed) → Known db run (failedFact failed)
  reporting : ∀ run, call.reporting = some run →
    Known db run fun row => row.status ≠ .queued ∧ row.agentId ≠ none
  settlingCheck : ∀ run, call.settlingCheck = some run →
    Known db run fun row => row.kind = .check

/-- What an event implies about its run. -/
def Event.Grounded (db : Db) : Event → Prop
  | .started run | .finished run | .withdrawn run | .timedOut run | .notified run _ _ =>
      Known db run fun row => row.status ≠ .queued
  | .claimed run _ => Known db run fun row => row.status ≠ .queued ∧ row.agentId ≠ none
  | .retryQueued retry dueAt =>
      Known db retry fun row =>
        row.retryOfRunId ≠ none ∧ (row.notBefore = some dueAt ∨ row.notBefore = none)
  | .cancelAnswered _ | .restoreCreated .. | .restoreStarted .. | .restoreClaimed .. => True

/-- What a retry implies about the run it repeats. -/
def parentFact (retry : JobRun) (row : JobRun) : Prop :=
  row.status ≠ .queued ∧ row.kind = .backup ∧ row.jobId = retry.jobId ∧
    retry.attempt = row.attempt + 1

/-- What holds of every run. -/
structure JobRun.Sound (db : Db) (row : JobRun) : Prop where
  queued : row.status = .queued → row.agentId = none
  notBefore : row.notBefore ≠ none → row.retryOfRunId ≠ none
  retry : ∀ parent, row.retryOfRunId = some parent →
    row.kind = .backup ∧ Known db parent (parentFact row)

structure Grounded (server : Server) : Prop where
  calls : ∀ call ∈ server.calls, call.Grounded server.db
  journal : ∀ event ∈ server.journal, event.Grounded server.db
  rows : ∀ id row, server.db.jobRuns.get? id = some row → row.Sound server.db

theorem stable_executionFact (runner : Runner) (stage : Stage) :
    Stable (executionFact runner stage) :=
  (stable_kind _).and (((stable_left.and stable_started).imp).and stable_kept.imp)

theorem stable_failedFact (failed : FailedRun) : Stable (failedFact failed) :=
  fun _ _ later fact => ⟨later.identity.kind.trans fact.1, later.identity.jobId.trans fact.2.1,
    later.identity.attempt.trans fact.2.2⟩

theorem stable_parentFact (retry : JobRun) : Stable (parentFact retry) :=
  fun before _ later fact => ⟨stable_left before _ later fact.1,
    later.identity.kind.trans fact.2.1, later.identity.jobId.trans fact.2.2.1,
    fact.2.2.2.trans (by rw [later.identity.attempt])⟩

theorem Call.Grounded.later {before after : Db} {call : Call} (grounded : call.Grounded before)
    (later : before.Later after) : call.Grounded after where
  starting := fun run listed => (grounded.starting run listed).later later (stable_kind _)
  sweeping := fun run listed => (grounded.sweeping run listed).later later stable_left
  execution := fun runner run stage executes =>
    (grounded.execution runner run stage executes).later later (stable_executionFact runner stage)
  settling := fun run settles => (grounded.settling run settles).later later stable_left
  retrying := fun run failed retries =>
    (grounded.retrying run failed retries).later later (stable_failedFact failed)
  reporting := fun run reports =>
    (grounded.reporting run reports).later later (stable_left.and stable_handed)
  settlingCheck := fun run settles =>
    (grounded.settlingCheck run settles).later later (stable_kind _)

theorem Event.Grounded.later {before after : Db} {event : Event}
    (grounded : event.Grounded before) (later : before.Later after) : event.Grounded after := by
  cases event with
  | started | finished | withdrawn | timedOut | notified =>
      exact Known.later grounded later stable_left
  | claimed => exact Known.later grounded later (stable_left.and stable_handed)
  | retryQueued retry dueAt =>
      refine Known.later grounded later fun row row' grown fact => ?_
      refine ⟨fun none => fact.1 (grown.identity.retryOfRunId.symm.trans none), ?_⟩
      rcases grown.notBefore with same | cleared
      · rw [same]
        exact fact.2
      · exact Or.inr cleared
  | cancelAnswered | restoreCreated | restoreStarted | restoreClaimed => trivial

section Duties

variable {db : Db} {call : Call}

theorem Call.Unbound.retrying (idle : call.Unbound) : call.retrying = none := by
  cases call with
  | finalize run phase => cases idle.settling
  | _ => rfl

theorem Call.Unbound.settlingCheck (idle : call.Unbound) : call.settlingCheck = none := by
  cases call with
  | submitResult agent task result phase =>
      cases phase with
      | settleCheck => cases idle.reporting
      | _ => rfl
  | _ => rfl

/-- A call without a duty refers to no run. -/
theorem Call.Unbound.grounded (idle : call.Unbound) : call.Grounded db where
  starting := by simp [idle.starting]
  sweeping := by simp [idle.sweeping]
  execution := by simp [idle.execution]
  settling := by simp [idle.settling]
  retrying := by simp [idle.retrying]
  reporting := by simp [idle.reporting]
  settlingCheck := by simp [idle.settlingCheck]

/-- An execution has no other duty. -/
theorem Call.grounded_of_execution {runner : Runner} {run : Uuid} {stage : Stage}
    (executes : call.execution = some (runner, run, stage))
    (known : Known db run (executionFact runner stage)) : call.Grounded db := by
  have only : ∀ runner' run' stage', call.execution = some (runner', run', stage') →
      Known db run' (executionFact runner' stage') := by
    intro runner' run' stage' same
    rw [executes] at same
    cases same
    exact known
  cases call with
  | backup | prune | check =>
      exact ⟨by simp [starting], by simp [sweeping], only, by simp [settling],
        by simp [retrying], by simp [reporting], by simp [settlingCheck]⟩
  | _ => cases executes

/-- A call that settles a run has no other duty. -/
theorem Call.grounded_of_settling {run : Uuid} (settles : call.settling = some run)
    (known : Known db run fun row => row.status ≠ .queued)
    (retries : ∀ failed, call.retrying = some (run, failed) → Known db run (failedFact failed)) :
    call.Grounded db := by
  cases call with
  | finalize other phase =>
      cases settles
      refine ⟨by simp [starting], by simp [sweeping], by simp [execution], ?_, ?_,
        by simp [reporting], by simp [settlingCheck]⟩
      · intro same equal
        cases equal
        exact known
      · intro same failed equal
        cases phase with
        | retryRead => cases equal
        | retryActive =>
            cases equal
            exact retries _ rfl
        | retryInsert =>
            cases equal
            exact retries _ rfl
  | notifyJobRun other phase =>
      cases settles
      refine ⟨by simp [starting], by simp [sweeping], by simp [execution], ?_,
        by simp [retrying], by simp [reporting], by simp [settlingCheck]⟩
      intro same equal
      cases equal
      exact known
  | _ => cases settles

theorem Call.grounded_retryRead {run : Uuid}
    (known : Known db run fun row => row.status ≠ .queued) :
    Call.Grounded db (.finalize run .retryRead) :=
  grounded_of_settling rfl known fun _ none => nomatch none

theorem Call.grounded_notify {run : Uuid} {phase : NotifyPhase}
    (known : Known db run fun row => row.status ≠ .queued) :
    Call.Grounded db (.notifyJobRun run phase) :=
  grounded_of_settling rfl known fun _ none => nomatch none

/-- A call that reports a result has no other duty. -/
theorem Call.grounded_of_reporting {agent task : Uuid} {result : TaskResult} {phase : ResultPhase}
    (known : Known db task fun row => row.status ≠ .queued ∧ row.agentId ≠ none)
    (check : ∀ info repository, phase = .settleCheck info repository →
      Known db task fun row => row.kind = .check) :
    Call.Grounded db (.submitResult agent task result phase) := by
  refine ⟨by simp [starting], by simp [sweeping], by simp [execution], by simp [settling],
    by simp [retrying], ?_, ?_⟩
  · intro run reports
    have same : run = task := by cases phase <;> cases reports <;> rfl
    exact same ▸ known
  · intro run settles
    cases phase with
    | settleCheck info repository =>
        cases settles
        exact check info repository rfl
    | _ => cases settles

theorem dispatched_grounded {run : Uuid} (known : Known db run fun row => row.kind = .backup) :
    ∀ call ∈ dispatched db run, call.Grounded db := by
  intro call member
  rcases dispatched_cases db run with none | one
  · rw [none] at member
    cases member
  · rw [one, List.mem_singleton] at member
    subst member
    exact Call.grounded_of_execution rfl (known.weaken fun row kind =>
      ⟨kind, fun other => absurd rfl other, fun other => absurd rfl other⟩)

end Duties

section Moves

variable {settings : Settings} {server : Server} {index : Nat} {current : Call}
  {outcome : Outcome} {effect : Effect}

/-- What an update makes of the rows it hits. -/
theorem Known.updated {db : Db} {now : Nat} {update : RunUpdate} {run : Uuid}
    {fact : JobRun → Prop} (hit : run ∈ db.runsHit update)
    (writes : ∀ row, db.jobRuns.get? run = some row → update.hits db run row = true →
      fact (update.set now row)) :
    Known ((Statement.updateRuns update).execute now db) run fact := by
  obtain ⟨row, present, hits⟩ := Db.mem_runsHit.mp hit
  refine ⟨update.set now row, ?_, writes row present hits⟩
  change (db.updateRuns now update).jobRuns.get? run = _
  rw [db.get?_updateRuns, present]
  simp [hits]

theorem queuedRow_iff {db : Db} {run : Uuid} :
    queuedRow db run = true ↔ ∃ row, db.jobRuns.get? run = some row ∧ row.status = .queued := by
  unfold queuedRow
  cases db.jobRuns.get? run with
  | none => simp
  | some row => simp

/-- A claim hits the claimed run or none. -/
theorem claimHit_iff {db : Db} {run agent : Uuid} :
    (!(db.runsHit (.claim run agent)).isEmpty) = true ↔ run ∈ db.runsHit (.claim run agent) := by
  constructor
  · intro some
    cases hits : db.runsHit (.claim run agent) with
    | nil => simp [hits] at some
    | cons first rest =>
        have listed : first ∈ db.runsHit (.claim run agent) := hits ▸ List.mem_cons_self
        obtain ⟨row, present, hit⟩ := Db.mem_runsHit.mp listed
        have same : first = run := by simp_all [RunUpdate.hits]
        exact same ▸ List.mem_cons_self
  · intro listed
    cases hits : db.runsHit (.claim run agent) with
    | nil => simp [hits] at listed
    | cons first rest => rfl

/-- An execution that is past its opening keeps what it knows of its run. -/
theorem executionFact_of_opened {runner : Runner} {stage : Stage} {row : JobRun}
    (fact : executionFact runner stage row) (opened : stage ≠ .waiting) (other : Stage) :
    executionFact runner other row :=
  ⟨fact.1, fun _ => fact.2.1 opened, fact.2.2⟩

theorem Grounded.known (before : Grounded server) (member : current ∈ server.calls)
    {runner : Runner} {run : Uuid} {stage : Stage}
    (executes : current.execution = some (runner, run, stage)) :
    Known server.db run (executionFact runner stage) :=
  (before.calls current member).execution runner run stage executes

/-- The run of an execution has left the queue once it is opened. -/
theorem Grounded.left (before : Grounded server) (member : current ∈ server.calls)
    {runner : Runner} {run : Uuid} {stage : Stage}
    (executes : current.execution = some (runner, run, stage)) (opened : stage ≠ .waiting) :
    Known server.db run fun row => row.status ≠ .queued :=
  (before.known member executes).weaken fun _ fact => (fact.2.1 opened).1

/-- The calls and events of a step know what they should. -/
structure Effect.Grounded (effect : Effect) (after : Db) : Prop where
  next : effect.next.Grounded after
  spawned : ∀ call ∈ effect.spawned, call.Grounded after
  events : ∀ event ∈ effect.events, event.Grounded after

/-- An execution that gets to another stage past its opening. -/
theorem Grounded.moved (before : Grounded server) (member : current ∈ server.calls)
    {next : Call} {runner : Runner} {run : Uuid} {stage other : Stage} {statement : Statement}
    (was : current.execution = some (runner, run, stage)) (opened : stage ≠ .waiting)
    (becomes : next.execution = some (runner, run, other)) :
    next.Grounded (statement.execute server.now server.db) :=
  Call.grounded_of_execution becomes
    (((before.known member was).weaken fun _ fact =>
      executionFact_of_opened fact opened other).later
        (statement.execute_later server.now server.db) (stable_executionFact runner other))

theorem Move.grounded (move : Move settings server index current outcome effect)
    (before : Grounded server) (member : current ∈ server.calls) :
    effect.Grounded (effect.statement.execute server.now server.db) := by
  have here := before.calls current member
  have later := effect.statement.execute_later server.now server.db
  cases move with
  | idle was next spawned statement events access =>
      refine ⟨next.grounded, fun call listed => (spawned call listed).grounded, ?_⟩
      intro event listed
      have passive := events event listed
      cases event with
      | restoreCreated | restoreStarted | restoreClaimed => trivial
      | _ => cases passive
  | updateJob | abandon => exact ⟨Call.idle_done.grounded, by simp, by simp⟩
  | createRun requester job _ present =>
      refine ⟨⟨?_, by simp [Call.sweeping], by simp [Call.execution], by simp [Call.settling],
        by simp [Call.retrying], by simp [Call.reporting], by simp [Call.settlingCheck]⟩,
        by simp, by simp⟩
      intro run listed
      rw [List.mem_singleton.mp listed]
      exact Known.inserted rfl
  | dispatch run =>
      exact ⟨Call.idle_done.grounded, dispatched_grounded (here.starting run List.mem_cons_self),
        by simp⟩
  | dispatchDue run rest =>
      refine ⟨⟨?_, by simp [Call.sweeping], by simp [Call.execution], by simp [Call.settling],
        by simp [Call.retrying], by simp [Call.reporting], by simp [Call.settlingCheck]⟩,
        dispatched_grounded (here.starting run List.mem_cons_self), by simp⟩
      intro other listed
      exact here.starting other (List.mem_cons_of_mem _ listed)
  | startDueRetries asOf =>
      refine ⟨⟨?_, by simp [Call.sweeping], by simp [Call.execution], by simp [Call.settling],
        by simp [Call.retrying], by simp [Call.reporting], by simp [Call.settlingCheck]⟩,
        by simp, by simp⟩
      intro run listed
      refine Known.updated listed fun row _ hits => ?_
      simp only [RunUpdate.hits, Bool.and_eq_true, decide_eq_true_eq] at hits
      exact hits.1.1.1
  | sweep staleBefore kind kinds stale error =>
      have swept : ∀ run ∈ server.db.runsHit (.failStale kind staleBefore error),
          Known ((Statement.updateRuns (.failStale kind staleBefore error)).execute server.now
            server.db) run fun row => row.status ≠ .queued :=
        fun run listed => Known.updated listed fun row _ _ => by simp [RunUpdate.set]
      refine ⟨⟨by simp [Call.starting], ?_, by simp [Call.execution], by simp [Call.settling],
        by simp [Call.retrying], by simp [Call.reporting], by simp [Call.settlingCheck]⟩,
        by simp, ?_⟩
      · intro run listed
        rcases List.mem_append.mp listed with old | new
        · exact (here.sweeping run old).later later stable_left
        · exact swept run new
      · intro event listed
        obtain ⟨run, hit, same⟩ := List.mem_map.mp listed
        exact same ▸ swept run hit
  | swept staleBefore stale =>
      refine ⟨Call.idle_done.grounded, ?_, by simp⟩
      intro call listed
      obtain ⟨run, swept, same⟩ := List.mem_map.mp listed
      exact same ▸ Call.grounded_retryRead (here.sweeping run swept)
  | advance was becomes idle =>
      exact ⟨Call.grounded_of_execution becomes (before.known member was),
        fun call listed => (idle call listed).grounded, by simp⟩
  | register was becomes =>
      exact ⟨Call.grounded_of_execution becomes (before.known member was), by simp, by simp⟩
  | openRun run context =>
      obtain ⟨row, present, fact⟩ := before.known member rfl
      refine ⟨Call.grounded_of_execution rfl ?_, by simp, by simp⟩
      refine Known.updated (Db.mem_runsHit.mpr ⟨row, present, by simp [RunUpdate.hits]⟩) ?_
      intro other found _
      rw [present] at found
      cases found
      exact ⟨fact.1, by simp [RunUpdate.set], fun other => absurd rfl other⟩
  | start was becomes =>
      refine ⟨before.moved member was (by simp) becomes, by simp, ?_⟩
      intro event listed
      rw [List.mem_singleton.mp listed]
      exact before.left member was (by simp)
  | fails was stage becomes =>
      refine ⟨before.moved member was ?_ becomes, by simp, by simp⟩
      rcases stage with same | ⟨deaf, same⟩ | same <;> simp [same]
  | exits exit was becomes result =>
      refine ⟨before.moved member was (by simp) becomes, by simp, ?_⟩
      intro event listed
      dsimp only at listed
      split at listed
      · cases listed
      · rw [List.mem_singleton.mp listed]
        exact before.left member was (by simp)
  | recordSuccess was becomes write idle =>
      exact ⟨before.moved member was (by simp) becomes,
        fun call listed => (idle call listed).grounded, by simp⟩
  | pruneRow run context =>
      refine ⟨before.moved member rfl (by simp [BackupPhase.stage]) rfl, ?_, by simp⟩
      intro call listed
      rw [List.mem_singleton.mp listed]
      refine Call.grounded_of_execution rfl (Known.inserted ?_)
      exact ⟨rfl, fun _ => ⟨by simp [localPruneRow], by simp [localPruneRow]⟩,
        fun _ => ⟨by simp [localPruneRow], rfl⟩⟩
  | pruneRefused run context error =>
      exact ⟨before.moved member rfl (by simp [BackupPhase.stage]) rfl, by simp, by simp⟩
  | readFlag was becomes =>
      exact ⟨before.moved member was (by simp) becomes, by simp, by simp⟩
  | recordFailure was owner becomes =>
      exact ⟨before.moved member was (by simp) becomes, by simp, by simp⟩
  | settle run repository info verdict next _ becomes =>
      refine ⟨before.moved member rfl ?_ (congrArg (fun stage => some (_, _, stage)) becomes),
        by simp, by simp⟩
      unfold CheckPhase.stage
      dsimp only
      split <;> simp
  | patchRepository run repository info verdict =>
      refine ⟨before.moved member rfl (by simp [CheckPhase.stage]) rfl, ?_, by simp⟩
      intro call listed
      rw [List.mem_singleton.mp listed]
      exact Call.grounded_notify
        ((before.left member rfl (by simp [CheckPhase.stage])).later later stable_left)
  | finishBackup run =>
      refine ⟨Call.idle_done.grounded, ?_, by simp⟩
      intro call listed
      rw [List.mem_singleton.mp listed]
      exact Call.grounded_retryRead (before.left member rfl (by simp [BackupPhase.stage]))
  | finish was owner => exact ⟨Call.idle_done.grounded, by simp, by simp⟩
  | insertCheck was job repository trigger «local» info =>
      refine ⟨Call.idle_done.grounded, ?_, by simp⟩
      intro call listed
      dsimp only at listed
      split at listed
      case isFalse => cases listed
      case isTrue onServer =>
        rw [List.mem_singleton.mp listed]
        refine Call.grounded_of_execution rfl (Known.inserted ?_)
        exact ⟨rfl, fun _ => ⟨by simp [checkRow, onServer], by simp [checkRow, onServer]⟩,
          fun _ => ⟨by simp [checkRow, onServer], rfl⟩⟩
  | insertPrune was job repository =>
      refine ⟨Call.idle_done.grounded, ?_, by simp⟩
      intro call listed
      rw [List.mem_singleton.mp listed]
      refine Call.grounded_of_execution rfl (Known.inserted ?_)
      exact ⟨rfl, fun _ => ⟨by simp [localPruneRow], by simp [localPruneRow]⟩,
        fun _ => ⟨by simp [localPruneRow], rfl⟩⟩
  | retryDue run row job _ present owner allowed =>
      refine ⟨Call.grounded_of_settling rfl (here.settling run rfl) ?_, by simp, by simp⟩
      intro failed same
      cases same
      simp only [retryAllowed, Bool.and_eq_true, decide_eq_true_eq] at allowed
      exact ⟨row, present, allowed.1.1, rfl, rfl⟩
  | noRetry run => exact ⟨Call.grounded_notify (here.settling run rfl), by simp, by simp⟩
  | retryRedundant run =>
      exact ⟨Call.grounded_notify (here.settling run rfl), by simp, by simp⟩
  | retryClear run failed notBefore =>
      refine ⟨Call.grounded_of_settling rfl (here.settling run rfl) ?_, by simp, by simp⟩
      intro other same
      cases same
      exact here.retrying run failed rfl
  | retryInsert run failed notBefore =>
      refine ⟨Call.idle_done.grounded, by simp, ?_⟩
      intro event listed
      rw [List.mem_singleton.mp listed]
      exact Known.inserted ⟨by simp [retryRow], Or.inl rfl⟩
  | notifyNone run => exact ⟨Call.idle_done.grounded, by simp, by simp⟩
  | notifyRead run => exact ⟨Call.grounded_notify (here.settling run rfl), by simp, by simp⟩
  | notify run status channelIds =>
      refine ⟨Call.idle_done.grounded, by simp, ?_⟩
      intro event listed
      dsimp only at listed
      split at listed
      · cases listed
      · rw [List.mem_singleton.mp listed]
        exact here.settling run rfl
  | cancelProbe run =>
      refine ⟨Call.idle_done.grounded, by simp, ?_⟩
      intro event listed
      rw [List.mem_singleton.mp listed]
      trivial
  | cancelWrite run error =>
      refine ⟨Call.idle_done.grounded, by simp, ?_⟩
      intro event listed
      rcases List.mem_cons.mp listed with same | listed
      · rw [same]
        trivial
      · split at listed
        case isFalse => cases listed
        case isTrue queued =>
          rw [List.mem_singleton.mp listed]
          obtain ⟨row, present, -⟩ := queuedRow_iff.mp queued
          refine Known.updated (Db.mem_runsHit.mpr ⟨row, present, ?_⟩) fun _ _ _ => ?_
          · simp [RunUpdate.hits]
          · simp [RunUpdate.set]
  | claim was becomes run agent =>
      refine ⟨becomes.grounded, by simp, ?_⟩
      intro event listed
      dsimp only at listed
      split at listed
      case isFalse => cases listed
      case isTrue hit =>
        rw [List.mem_singleton.mp listed]
        exact Known.updated (claimHit_iff.mp hit) fun row _ _ => by simp [RunUpdate.set]
  | reportRead agent task result phase after row was present handed becomes =>
      have left : row.status ≠ .queued := by
        intro queued
        rw [(before.rows task row present).queued queued] at handed
        cases handed
      refine ⟨Call.grounded_of_reporting ⟨row, present, left, by simp [handed]⟩ ?_,
        by simp, by simp⟩
      intro info repository same
      rcases becomes with other | other | ⟨_, _, _, other, -⟩ | ⟨_, _, other, -, kind⟩
      · rw [other] at same
        cases same
      · rw [other] at same
        cases same
      · rw [other] at same
        cases same
      · exact ⟨row, present, kind⟩
  | reportCancelled agent task result phase => exact ⟨Call.idle_done.grounded, by simp, by simp⟩
  | reportRun agent task job repository result trigger =>
      exact ⟨Call.grounded_of_reporting ((here.reporting task rfl).later later
        (stable_left.and stable_handed)) (by simp), by simp, by simp⟩
  | reportStats agent task job repository result trigger _ statement spawned passive idle becomes =>
      have known := (here.reporting task rfl).later later (stable_left.and stable_handed)
      refine ⟨?_, fun call listed => (idle call listed).grounded, by simp⟩
      rcases becomes with same | same | ⟨same, -⟩
      · rw [same]
        exact Call.grounded_of_reporting known (by simp)
      · rw [same]
        exact Call.grounded_of_reporting known (by simp)
      · rw [same]
        exact Call.idle_done.grounded
  | reportPrune agent task job repository result trigger prune _ spawned idle =>
      exact ⟨Call.grounded_of_reporting ((here.reporting task rfl).later later
        (stable_left.and stable_handed)) (by simp),
        fun call listed => (idle call listed).grounded, by simp⟩
  | reportFinalize agent task =>
      refine ⟨Call.idle_done.grounded, ?_, by simp⟩
      intro call listed
      rw [List.mem_singleton.mp listed]
      exact Call.grounded_retryRead ((here.reporting task rfl).weaken fun _ fact => fact.1)
  | reportSettle agent task repository result info _ becomes =>
      refine ⟨?_, by simp, by simp⟩
      rcases becomes with same | same
      · rw [same]
        exact Call.idle_done.grounded
      · rw [same]
        exact Call.grounded_of_reporting ((here.reporting task rfl).later later
          (stable_left.and stable_handed)) (by simp)
  | reportPatch agent task =>
      refine ⟨Call.idle_done.grounded, ?_, by simp⟩
      intro call listed
      rw [List.mem_singleton.mp listed]
      exact Call.grounded_notify (((here.reporting task rfl).weaken fun _ fact => fact.1).later
        later stable_left)

/-- What a row implies stays true as the database grows. -/
theorem JobRun.Sound.later {before after : Db} {row : JobRun} (sound : row.Sound before)
    (later : before.Later after) : row.Sound after where
  queued := sound.queued
  notBefore := sound.notBefore
  retry := fun parent same =>
    ⟨(sound.retry parent same).1,
      (sound.retry parent same).2.later later (stable_parentFact row)⟩

theorem JobRun.Sound.updated {db after : Db} {now : Nat} {update : RunUpdate} {id : Uuid}
    {row : JobRun} (sound : row.Sound db) (hit : update.hits db id row = true)
    (later : db.Later after) : (update.set now row).Sound after := by
  have grown := RunUpdate.set_later now hit
  refine ⟨?_, ?_, ?_⟩
  · intro queued
    have before := grown.queued queued
    rcases update.set_agentId now row with same | ⟨_, agent, claim, -⟩
    · exact same.trans (sound.queued before)
    · subst claim
      cases queued
  · intro waits
    rw [grown.identity.retryOfRunId]
    rcases grown.notBefore with same | none
    · exact sound.notBefore (same ▸ waits)
    · exact absurd none waits
  · intro parent same
    rw [grown.identity.retryOfRunId] at same
    obtain ⟨kind, known⟩ := sound.retry parent same
    refine ⟨grown.identity.kind.trans kind, (known.later later (stable_parentFact row)).weaken ?_⟩
    intro other fact
    exact ⟨fact.1, fact.2.1, fact.2.2.1.trans grown.identity.jobId.symm,
      grown.identity.attempt.trans fact.2.2.2⟩

/-- A run that does not wait and repeats none. -/
theorem JobRun.sound_of_first {db : Db} {row : JobRun}
    (agent : row.status = .queued → row.agentId = none) (notBefore : row.notBefore = none)
    (first : row.retryOfRunId = none) : row.Sound db :=
  ⟨agent, fun waits => absurd notBefore waits, fun parent same => by simp [first] at same⟩

/-- The run a step inserts is sound. -/
theorem Move.inserted_sound (move : Move settings server index current outcome effect)
    (before : Grounded server) (member : current ∈ server.calls) {row : JobRun}
    (inserts : effect.statement = .insertRun row) : row.Sound server.db := by
  cases move with
  | retryInsert run failed notBefore =>
      cases inserts
      have here := before.calls _ member
      refine ⟨fun _ => rfl, fun _ => by simp [retryRow], ?_⟩
      intro parent same
      cases same
      obtain ⟨row, present, kind, jobId, attempt⟩ := here.retrying run failed rfl
      refine ⟨rfl, row, present, (here.settling run rfl).row present, kind, jobId, ?_⟩
      exact congrArg (· + 1) attempt.symm
  | insertCheck was job repository trigger «local» info =>
      cases inserts
      exact JobRun.sound_of_first (fun _ => rfl) rfl rfl
  | reportPrune agent task job repository result trigger prune =>
      cases inserts
      refine JobRun.sound_of_first ?_ rfl rfl
      intro queued
      simp only [AmberBackup.pruneRow] at queued
      split at queued <;> cases queued
  | createRun | pruneRow | insertPrune =>
      cases inserts
      exact JobRun.sound_of_first (fun _ => rfl) rfl rfl
  | idle _ _ _ statement => rw [inserts] at statement; cases statement
  | reportStats _ _ _ _ _ _ _ statement _ passive =>
      dsimp only at inserts
      subst inserts
      cases passive
  | _ => cases inserts

theorem Move.rows_sound (move : Move settings server index current outcome effect)
    (before : Grounded server) (member : current ∈ server.calls) (id : Uuid) (row : JobRun)
    (present : (effect.statement.execute server.now server.db).jobRuns.get? id = some row) :
    row.Sound (effect.statement.execute server.now server.db) := by
  have later := effect.statement.execute_later server.now server.db
  by_cases passive : effect.statement.passive = true
  · obtain ⟨stats, same⟩ := Statement.passive_runs passive server.now server.db id
    rw [present] at same
    obtain ⟨old, found, equal⟩ := Option.map_eq_some_iff.mp same.symm
    have sound := (before.rows id old found).later later
    subst equal
    exact ⟨sound.queued, sound.notBefore, sound.retry⟩
  · cases statement : effect.statement with
    | updateRuns update =>
        rw [statement] at present later
        change (server.db.updateRuns server.now update).jobRuns.get? id = some row at present
        rw [Db.get?_updateRuns] at present
        obtain ⟨old, found, equal⟩ := Option.map_eq_some_iff.mp present
        have sound := before.rows id old found
        subst equal
        split
        case isTrue hit => exact sound.updated hit later
        case isFalse => exact sound.later later
    | insertRun inserted =>
        have sound := (move.inserted_sound before member statement).later later
        rw [statement] at present sound
        change (server.db.jobRuns.insert (freshId server.db.jobRuns) inserted).get? id = some row
          at present
        rw [Table.get?_insert (get?_freshId _)] at present
        split at present
        · cases present
          exact sound
        · exact (before.rows id row present).later (statement ▸ later)
    | updateJob job patch =>
        rw [statement] at present later
        exact (before.rows id row present).later later
    | _ => simp [statement, Statement.passive] at passive

end Moves

/-- A fresh server has nothing to know. -/
theorem Server.Fresh.grounded {server : Server} (fresh : server.Fresh) : Grounded server where
  calls := by simp [fresh.calls]
  journal := by simp [fresh.journal]
  rows := by
    intro id row present
    rw [fresh.jobRuns] at present
    cases present

theorem Grounded.step {settings : Settings} {server next : Server} {action : Action}
    (grounded : Grounded server) (stepped : server.step settings action = some next) :
    Grounded next := by
  rcases Server.step_cases stepped with ⟨elapsed, -, same⟩ | ⟨entry, -, same⟩ |
    ⟨index, outcome, current, effect, -, present, move, same⟩
  · subst same
    exact ⟨grounded.calls, grounded.journal, grounded.rows⟩
  · subst same
    refine ⟨?_, grounded.journal, grounded.rows⟩
    intro call member
    rcases List.mem_append.mp member with old | new
    · exact grounded.calls call old
    · rw [List.mem_singleton.mp new]
      exact (Entry.call_unbound settings server.now entry).grounded
  · subst same
    have member := List.mem_of_getElem? present
    have later := effect.statement.execute_later server.now server.db
    have after := move.grounded grounded member
    refine ⟨?_, ?_, move.rows_sound grounded member⟩
    · intro call listed
      rcases Pool.mem_advance listed with old | same | new
      · exact (grounded.calls call old).later later
      · exact same ▸ after.next
      · exact after.spawned call new
    · intro event listed
      rcases List.mem_append.mp listed with old | new
      · exact (grounded.journal event old).later later
      · exact after.events event new

/-- Whatever the order of the steps, calls and events know what they should. -/
theorem grounded_of_reachable {settings : Settings} {allowed : Server → Action → Prop}
    {server : Server} (reached : (runningServer settings).Reachable allowed server) :
    Grounded server := by
  have invariant : (runningServer settings).Invariant allowed Grounded :=
    ⟨fun _ fresh => Server.Fresh.grounded fresh,
      fun _ _ _ grounded _ stepped => Grounded.step grounded stepped⟩
  exact invariant.holds reached

end AmberBackup
