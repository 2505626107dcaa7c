import AmberBackup.Server.Grounded

/-! # Where things come from

What a step writes, starts or reports, traced back to the call that does it: an opened
execution comes from an opened one or from the opening write, a settled run changes its
status only through a write without a status guard, and each event has its one source.
-/

namespace AmberBackup

open Relational

/-- Success, failed or cancelled. -/
def RunStatus.final (status : RunStatus) : Bool := !status.active

/-- The run an execution writes without looking at its status. -/
def RunUpdate.unguarded : RunUpdate → Option Uuid
  | .openLocal run | .succeedLocal run .. | .failLocal run .. | .succeedPrune run _ => some run
  | .writeStats .. | .failStale .. | .clearNotBefore _ | .forceCancel .. | .settleCheck ..
  | .cancelledOnAgent .. | .claim .. | .recordResult .. | .backupProgress .. => none

/-- The guarded updates leave the status of a settled run as it is. -/
theorem RunUpdate.set_final {db : Db} {now : Nat} {update : RunUpdate} {id : Uuid} {row : JobRun}
    (hit : update.hits db id row = true) (final : row.status.final = true) :
    (update.set now row).status = row.status ∨ update.unguarded = some id ∨
      ∃ error, update = .forceCancel id error := by
  have settled : row.status ≠ .queued ∧ row.status ≠ .running := by
    constructor <;> intro same <;> rw [same] at final <;> cases final
  cases update with
  | openLocal | succeedLocal | failLocal | succeedPrune =>
      simp only [RunUpdate.hits, decide_eq_true_eq] at hit
      exact Or.inr (Or.inl (congrArg some hit.symm))
  | writeStats | clearNotBefore | backupProgress => exact Or.inl rfl
  | failStale kind staleBefore error =>
      simp only [RunUpdate.hits, Bool.and_eq_true, decide_eq_true_eq] at hit
      exact absurd hit.1.2 settled.1
  | forceCancel run error =>
      simp only [RunUpdate.hits, decide_eq_true_eq] at hit
      exact Or.inr (Or.inr ⟨error, by rw [hit]⟩)
  | settleCheck | recordResult =>
      simp only [RunUpdate.hits, Bool.and_eq_true, decide_eq_true_eq] at hit
      exact absurd hit.2 settled.2
  | claim =>
      simp only [RunUpdate.hits, Bool.and_eq_true, decide_eq_true_eq] at hit
      exact absurd hit.2 settled.1
  | cancelledOnAgent run log =>
      simp only [RunUpdate.hits, Bool.and_eq_true, Bool.or_eq_true, decide_eq_true_eq] at hit
      rcases hit.2 with running | cancelled
      · exact absurd running settled.2
      · exact Or.inl cancelled.symm

section Moves

variable {settings : Settings} {server : Server} {index : Nat} {current : Call}
  {outcome : Outcome} {effect : Effect}

/-- The row of a run after a statement: the inserted one, or what its row has become. -/
theorem Statement.run_after {statement : Statement} {now : Nat} {db : Db} {id : Uuid}
    {row : JobRun} (present : (statement.execute now db).jobRuns.get? id = some row) :
    (statement = .insertRun row ∧ id = freshId db.jobRuns) ∨
      ∃ old, db.jobRuns.get? id = some old ∧ (row = old ∨
        ∃ update, statement = .updateRuns update ∧ update.hits db id old = true ∧
          row = update.set now old) := by
  cases statement with
  | updateRuns update =>
      change (db.updateRuns now update).jobRuns.get? id = some row at present
      rw [Db.get?_updateRuns] at present
      obtain ⟨old, found, equal⟩ := Option.map_eq_some_iff.mp present
      refine Or.inr ⟨old, found, ?_⟩
      split at equal
      case isTrue hit => exact Or.inr ⟨update, rfl, hit, equal.symm⟩
      case isFalse => exact Or.inl equal.symm
  | insertRun inserted =>
      change (db.jobRuns.insert (freshId db.jobRuns) inserted).get? id = some row at present
      rw [Table.get?_insert (get?_freshId _)] at present
      split at present
      case isTrue same =>
        cases present
        exact Or.inl ⟨rfl, same⟩
      case isFalse => exact Or.inr ⟨row, present, Or.inl rfl⟩
  | recordStats repository reading =>
      unfold Statement.execute at present
      dsimp only at present
      split at present <;> exact Or.inr ⟨row, present, Or.inl rfl⟩
  | _ => exact Or.inr ⟨row, present, Or.inl rfl⟩

/-- The row of a run after a statement: the inserted one, or a later state of its row. -/
theorem Statement.row_after {statement : Statement} {now : Nat} {db : Db} {id : Uuid}
    {row : JobRun} (present : (statement.execute now db).jobRuns.get? id = some row) :
    (statement = .insertRun row ∧ id = freshId db.jobRuns) ∨
      ∃ old, db.jobRuns.get? id = some old ∧
        ((∃ stats, row = { old with stats }) ∨
          ∃ update, statement = .updateRuns update ∧ update.hits db id old = true ∧
            row = update.set now old) := by
  rcases Statement.run_after present with inserted | ⟨old, found, same | updated⟩
  · exact Or.inl inserted
  · exact Or.inr ⟨old, found, Or.inl ⟨old.stats, same⟩⟩
  · exact Or.inr ⟨old, found, Or.inr updated⟩

theorem Call.Unbound.not_executing {call : Call} (idle : call.Unbound) {runner : Runner} {run : Uuid}
    {stage : Stage} (executes : call.execution = some (runner, run, stage)) : False := by
  rw [idle.execution] at executes
  cases executes

/-- An opened execution comes from an opened one of the same run, from the opening write,
or, for a prune or a check, from the insertion of the run. -/
theorem Move.opened_from (move : Move settings server index current outcome effect)
    {call : Call} (leaves : effect.Leaves call) {runner : Runner} {run : Uuid} {stage : Stage}
    (executes : call.execution = some (runner, run, stage)) (opened : stage ≠ .waiting) :
    (∃ earlier, current.execution = some (runner, run, earlier) ∧ earlier ≠ .waiting ∧
        call = effect.next) ∨
      (effect.statement = .updateRuns (.openLocal run) ∧
        ∃ context, current = .backup run (.openRun context)) ∨
      (run = freshId server.db.jobRuns ∧ runner ≠ .backup ∧
        ∃ row, effect.statement = .insertRun row ∧ row.status = .running) := by
  cases move with
  | idle was next spawned =>
      rcases leaves with same | started
      · exact (next.not_executing (same ▸ executes)).elim
      · exact ((spawned call started).not_executing executes).elim
  | advance was becomes idle =>
      rcases leaves with same | started
      · subst same
        rw [becomes] at executes
        cases executes
        exact Or.inl ⟨_, was, opened, rfl⟩
      · exact ((idle call started).not_executing executes).elim
  | register was becomes =>
      rcases leaves with same | started
      · subst same
        rw [becomes] at executes
        cases executes
        exact Or.inl ⟨_, was, opened, rfl⟩
      · cases started
  | openRun other context =>
      rcases leaves with same | started
      · subst same
        cases executes
        exact Or.inr (Or.inl ⟨rfl, context, rfl⟩)
      · cases started
  | start was becomes | readFlag was becomes | exits _ was becomes =>
      rcases leaves with same | started
      · subst same
        rw [becomes] at executes
        cases executes
        exact Or.inl ⟨_, was, by simp, rfl⟩
      · cases started
  | fails was before becomes =>
      rcases leaves with same | started
      · subst same
        rw [becomes] at executes
        cases executes
        refine Or.inl ⟨_, was, ?_, rfl⟩
        rcases before with equal | ⟨deaf, equal⟩ | equal <;> simp [equal]
      · cases started
  | recordSuccess was becomes write idle =>
      rcases leaves with same | started
      · subst same
        rw [becomes] at executes
        cases executes
        exact Or.inl ⟨_, was, by simp, rfl⟩
      · exact ((idle call started).not_executing executes).elim
  | recordFailure was owner becomes =>
      rcases leaves with same | started
      · subst same
        rw [becomes] at executes
        cases executes
        exact Or.inl ⟨_, was, by simp, rfl⟩
      · cases started
  | settle other repository info verdict next _ becomes =>
      rcases leaves with same | started
      · subst same
        cases executes
        refine Or.inl ⟨_, rfl, ?_, rfl⟩
        unfold CheckPhase.stage
        dsimp only
        split <;> simp
      · cases started
  | patchRepository other repository info verdict =>
      rcases leaves with same | started
      · subst same
        cases executes
        exact Or.inl ⟨_, rfl, by simp [CheckPhase.stage], rfl⟩
      · rw [List.mem_singleton.mp started] at executes
        cases executes
  | pruneRow other context =>
      rcases leaves with same | started
      · subst same
        cases executes
        exact Or.inl ⟨_, rfl, by simp [BackupPhase.stage], rfl⟩
      · rw [List.mem_singleton.mp started] at executes
        cases executes
        exact Or.inr (Or.inr ⟨rfl, by simp, _, rfl, rfl⟩)
  | pruneRefused other context error =>
      rcases leaves with same | started
      · subst same
        cases executes
        exact Or.inl ⟨_, rfl, by simp [BackupPhase.stage], rfl⟩
      · cases started
  | insertPrune was job repository =>
      rcases leaves with same | started
      · subst same
        cases executes
      · rw [List.mem_singleton.mp started] at executes
        cases executes
        exact Or.inr (Or.inr ⟨rfl, by simp, _, rfl, rfl⟩)
  | insertCheck was job repository trigger onServer info =>
      rcases leaves with same | started
      · subst same
        cases executes
      · dsimp only at started
        split at started
        case isTrue here =>
          rw [List.mem_singleton.mp started] at executes
          cases executes
          exact Or.inr (Or.inr ⟨rfl, by simp, _, rfl, by simp [checkRow, here]⟩)
        case isFalse => cases started
  | dispatch other | dispatchDue other =>
      rcases leaves with same | started
      · subst same
        cases executes
      · rcases dispatched_cases server.db other with none | one
        · simp [none] at started
        · rw [one] at started
          rw [List.mem_singleton.mp started] at executes
          cases executes
          exact absurd rfl opened
  | swept staleBefore stale =>
      rcases leaves with same | started
      · subst same
        cases executes
      · obtain ⟨other, -, equal⟩ := List.mem_map.mp started
        rw [← equal] at executes
        cases executes
  | finishBackup | reportFinalize | reportPatch =>
      rcases leaves with same | started
      · subst same
        cases executes
      · rw [List.mem_singleton.mp started] at executes
        cases executes
  | claim was becomes =>
      rcases leaves with same | started
      · exact (becomes.not_executing (same ▸ executes)).elim
      · cases started
  | reportStats _ _ _ _ _ _ _ _ _ _ idle becomes =>
      rcases leaves with same | started
      · subst same
        rcases becomes with equal | equal | ⟨equal, -⟩ <;> rw [equal] at executes <;> cases executes
      · exact ((idle call started).not_executing executes).elim
  | reportPrune _ _ _ _ _ _ _ _ _ idle =>
      rcases leaves with same | started
      · subst same
        cases executes
      · exact ((idle call started).not_executing executes).elim
  | reportSettle _ _ _ _ _ _ becomes =>
      rcases leaves with same | started
      · subst same
        rcases becomes with equal | equal <;> rw [equal] at executes <;> cases executes
      · cases started
  | _ =>
      rcases leaves with same | started
      · subst same
        cases executes
      · cases started

/-- Where an event comes from. -/
def Event.Source (server : Server) (index : Nat) (current : Call) (effect : Effect) :
    Event → Prop
  | .started run =>
      ∃ runner, current.execution = some (runner, run, .opened) ∧
        effect.next.execution = some (runner, run, .child (server.aborted index))
  | .finished run =>
      ∃ runner deaf, current.execution = some (runner, run, .child deaf) ∧
        server.killed index deaf = false
  | .claimed run agent =>
      effect.statement = .updateRuns (.claim run agent) ∧ queuedRow server.db run = true
  | .cancelAnswered run =>
      (∃ error owner, current = .cancelRun run (.probe error) ∧
          server.controller run = some owner ∧ effect.access = .abort owner) ∨
        ∃ error, current = .cancelRun run (.write error)
  | .withdrawn run =>
      queuedRow server.db run = true ∧ ∃ error, current = .cancelRun run (.write error) ∧
        effect.statement = .updateRuns (.forceCancel run error)
  | .timedOut run =>
      ∃ kind staleBefore error,
        effect.statement = .updateRuns (.failStale kind staleBefore error) ∧
          run ∈ server.db.runsHit (.failStale kind staleBefore error)
  | .retryQueued retry dueAt =>
      retry = freshId server.db.jobRuns ∧
        ∃ run failed, current = .finalize run (.retryInsert failed dueAt)
  | .notified run status channels =>
      ∃ channelIds, current = .notifyJobRun run (.readChannels status channelIds) ∧
        channels = enabledChannels server.db channelIds
  | .restoreCreated .. | .restoreStarted .. | .restoreClaimed .. => True

theorem queuedRow_of_claim {db : Db} {run agent : Uuid}
    (hit : run ∈ db.runsHit (.claim run agent)) : queuedRow db run = true := by
  obtain ⟨row, present, hits⟩ := Db.mem_runsHit.mp hit
  simp only [RunUpdate.hits, Bool.and_eq_true, decide_eq_true_eq] at hits
  exact queuedRow_iff.mpr ⟨row, present, hits.2⟩

theorem Move.event_source (move : Move settings server index current outcome effect)
    {event : Event} (listed : event ∈ effect.events) :
    event.Source server index current effect := by
  cases move with
  | idle was next spawned statement events =>
      have passive := events event listed
      cases event with
      | restoreCreated | restoreStarted | restoreClaimed => trivial
      | _ => cases passive
  | sweep staleBefore kind kinds stale error =>
      obtain ⟨run, hit, same⟩ := List.mem_map.mp listed
      subst same
      exact ⟨kind, staleBefore, error, rfl, hit⟩
  | start was becomes =>
      rw [List.mem_singleton.mp listed]
      exact ⟨_, was, becomes⟩
  | exits exit was becomes result =>
      dsimp only at listed
      split at listed
      case isTrue => cases listed
      case isFalse alive =>
        rw [List.mem_singleton.mp listed]
        exact ⟨_, _, was, by simpa using alive⟩
  | retryInsert run failed notBefore =>
      rw [List.mem_singleton.mp listed]
      exact ⟨rfl, run, failed, rfl⟩
  | notify run status channelIds =>
      dsimp only at listed
      split at listed
      · cases listed
      · rw [List.mem_singleton.mp listed]
        exact ⟨channelIds, rfl, rfl⟩
  | cancelProbe run owner error _ known =>
      rw [List.mem_singleton.mp listed]
      exact Or.inl ⟨error, owner, rfl, known, rfl⟩
  | cancelWrite run error =>
      rcases List.mem_cons.mp listed with same | listed
      · rw [same]
        exact Or.inr ⟨error, rfl⟩
      · split at listed
        case isFalse => cases listed
        case isTrue queued =>
          rw [List.mem_singleton.mp listed]
          exact ⟨queued, error, rfl, rfl⟩
  | claim was becomes run agent =>
      dsimp only at listed
      split at listed
      case isFalse => cases listed
      case isTrue hit =>
        rw [List.mem_singleton.mp listed]
        exact ⟨rfl, queuedRow_of_claim (claimHit_iff.mp hit)⟩
  | _ => cases listed

/-- Which call issues an update. -/
def RunUpdate.Source (current : Call) (effect : Effect) : RunUpdate → Prop
  | .openLocal run => ∃ context, current = .backup run (.openRun context)
  | .succeedLocal run .. =>
      current.execution = some (.backup, run, .finishing) ∧
        effect.next.execution = some (.backup, run, .recorded)
  | .succeedPrune run _ =>
      current.execution = some (.prune, run, .finishing) ∧
        effect.next.execution = some (.prune, run, .recorded)
  | .failLocal run aborted .. =>
      ∃ runner, (runner = .backup ∨ runner = .prune) ∧
        current.execution = some (runner, run, .deciding aborted) ∧
        effect.next.execution = some (runner, run, .recorded)
  | .forceCancel run error => current = .cancelRun run (.write error)
  | .settleCheck run .. =>
      (∃ stage, current.execution = some (.check, run, stage)) ∨ current.settlingCheck = some run
  | .cancelledOnAgent run _ | .recordResult run _ => current.overrides = some run
  | .failStale kind staleBefore _ =>
      ∃ kinds stale, current = .runner (.failStale staleBefore (kind :: kinds) stale)
  | .clearNotBefore asOf => current = .runner (.startDueRetries asOf)
  | .claim .. | .writeStats .. | .backupProgress .. => True

theorem Move.update_source (move : Move settings server index current outcome effect)
    {update : RunUpdate} (issues : effect.statement = .updateRuns update) :
    update.Source current effect := by
  cases move with
  | idle was next spawned statement =>
      rw [issues] at statement
      cases update with
      | writeStats | backupProgress => trivial
      | _ => cases statement
  | startDueRetries | cancelWrite =>
      cases issues
      exact rfl
  | claim =>
      cases issues
      trivial
  | sweep staleBefore kind kinds stale error =>
      cases issues
      exact ⟨kinds, stale, rfl⟩
  | openRun run context =>
      cases issues
      exact ⟨context, rfl⟩
  | recordSuccess was becomes write =>
      cases issues
      rcases write with ⟨same, _, _, _, _, equal⟩ | ⟨same, _, equal⟩ <;> subst same <;> subst equal
      · exact ⟨was, becomes⟩
      · exact ⟨was, becomes⟩
  | recordFailure was owner becomes =>
      cases issues
      exact ⟨_, owner, was, becomes⟩
  | settle run repository info verdict next =>
      cases issues
      exact Or.inl ⟨_, rfl⟩
  | reportCancelled agent task result before _ was =>
      cases issues
      rcases was with same | same <;> subst same <;> rfl
  | reportRun =>
      cases issues
      exact rfl
  | reportSettle agent task repository result info =>
      cases issues
      exact Or.inr rfl
  | reportStats _ _ _ _ _ _ _ statement _ passive =>
      dsimp only at issues
      subst issues
      cases update with
      | writeStats | backupProgress => trivial
      | _ => cases passive
  | _ => cases issues

/-- The opening write alone makes a settled run active again. -/
theorem RunUpdate.set_final_of_final {db : Db} (now : Nat) {update : RunUpdate} {id : Uuid}
    {row : JobRun} (hit : update.hits db id row = true) (final : row.status.final = true) :
    (update.set now row).status.final = true ∨ update = .openLocal id := by
  cases update with
  | openLocal run =>
      simp only [RunUpdate.hits, decide_eq_true_eq] at hit
      exact Or.inr (by rw [hit])
  | succeedLocal | succeedPrune | failStale | forceCancel | cancelledOnAgent => exact Or.inl rfl
  | failLocal run aborted => cases aborted <;> exact Or.inl rfl
  | writeStats | clearNotBefore | backupProgress => exact Or.inl final
  | settleCheck run info outcome =>
      obtain ⟨status, _, _, _⟩ := outcome
      cases status <;> exact Or.inl rfl
  | recordResult run result =>
      obtain ⟨status, _, _, _, _, _, _, _, _, _⟩ := result
      cases status <;> exact Or.inl rfl
  | claim =>
      simp only [RunUpdate.hits, Bool.and_eq_true, decide_eq_true_eq] at hit
      rw [hit.2] at final
      cases final

theorem Move.final_of_final (move : Move settings server index current outcome effect)
    {run : Uuid} {row after : JobRun} (present : server.db.jobRuns.get? run = some row)
    (final : row.status.final = true)
    (found : (effect.statement.execute server.now server.db).jobRuns.get? run = some after) :
    after.status.final = true ∨ ∃ context, current = .backup run (.openRun context) := by
  rcases Statement.row_after found with ⟨-, fresh⟩ | ⟨old, before, same⟩
  · rw [fresh, get?_freshId] at present
    cases present
  · rw [present] at before
    cases before
    rcases same with ⟨stats, same⟩ | ⟨update, issues, hit, same⟩
    · subst same
      exact Or.inl final
    · subst same
      rcases RunUpdate.set_final_of_final server.now hit final with still | opens
      · exact Or.inl still
      · subst opens
        exact Or.inr (move.update_source issues)

/-- Where an inserted run comes from. -/
theorem Move.insert_source (move : Move settings server index current outcome effect)
    {row : JobRun} (issues : effect.statement = .insertRun row) :
    (∃ requester job, current = .runner (.createRun requester job) ∧
        (mayOperate server.db job requester && (server.db.backupJobs.get? job).isSome) = true ∧
        row = createdRun job (triggerOf requester) server.now) ∨
      (∃ run failed notBefore, current = .finalize run (.retryInsert failed notBefore) ∧
        row = retryRow failed.jobId failed.trigger (failed.attempt + 1) run notBefore server.now) ∨
      (row.kind ≠ .backup ∧ row.retryOfRunId = none ∧ row.attempt = 1) := by
  cases move with
  | idle was next spawned statement =>
      rw [issues] at statement
      cases statement
  | createRun requester job _ accepted =>
      cases issues
      exact Or.inl ⟨requester, job, rfl, accepted, rfl⟩
  | retryInsert run failed notBefore =>
      cases issues
      exact Or.inr (Or.inl ⟨run, failed, notBefore, rfl, rfl⟩)
  | pruneRow | insertCheck | insertPrune | reportPrune =>
      cases issues
      exact Or.inr (Or.inr ⟨by simp [localPruneRow, checkRow, AmberBackup.pruneRow], rfl, rfl⟩)
  | reportStats _ _ _ _ _ _ _ statement _ passive =>
      dsimp only at issues
      rw [issues] at passive
      cases passive
  | _ => cases issues

/-- The row of a job after a statement: an edit of the job aside, it is as before. -/
theorem Statement.job_after {statement : Statement} {now : Nat} {db : Db} {id : Uuid}
    {job : BackupJob} (present : (statement.execute now db).backupJobs.get? id = some job) :
    db.backupJobs.get? id = some job ∨ ∃ patch old, statement = .updateJob id patch ∧
      db.backupJobs.get? id = some old ∧ job = patch.apply now old := by
  by_cases passive : statement.passive = true
  · rw [(Statement.passive_jobs passive now db).1] at present
    exact Or.inl present
  · cases statement with
    | updateRuns | insertRun => exact Or.inl present
    | updateJob other patch =>
        change (db.backupJobs.update (fun id _ => id = other) (patch.apply now)).get? id = some job
          at present
        rw [Table.get?_update] at present
        obtain ⟨old, found, equal⟩ := Option.map_eq_some_iff.mp present
        by_cases same : id = other
        · subst same
          simp only [decide_true, ↓reduceIte] at equal
          exact Or.inr ⟨patch, old, rfl, found, equal.symm⟩
        · simp only [same, decide_false, Bool.false_eq_true, ↓reduceIte] at equal
          exact Or.inl (equal ▸ found)
    | _ => exact absurd rfl passive

/-- Where a call comes from that settles or announces a run. -/
def Call.SettlingSource (call : Call) (server : Server) (current : Call) : Prop :=
  match call with
  | .finalize run .retryRead =>
      (∃ staleBefore stale, current = .runner (.failStale staleBefore [] stale) ∧ run ∈ stale) ∨
        current = .backup run .unregister ∨
        ∃ agent result, current = .submitResult agent run result .finalize
  | .finalize run (.retryActive failed) =>
      current = .finalize run .retryRead ∧ ∃ row job,
        server.db.jobRuns.get? run = some row ∧ server.db.backupJobs.get? row.jobId = some job ∧
        retryAllowed row job = true ∧
        failed = {
          jobId := row.jobId, trigger := row.trigger, attempt := row.attempt
          retryDelaySeconds := job.retryDelaySeconds }
  | .finalize run (.retryInsert failed _) =>
      current = .finalize run (.retryActive failed) ∧
        server.db.jobRuns.anyWhere (otherActive failed.jobId run) = false
  | .notifyJobRun run .readRun =>
      (current = .finalize run .retryRead ∧ ∀ row job,
          server.db.jobRuns.get? run = some row →
          server.db.backupJobs.get? row.jobId = some job → retryAllowed row job = false) ∨
        (∃ failed, current = .finalize run (.retryActive failed) ∧
          server.db.jobRuns.anyWhere (otherActive failed.jobId run) = true) ∨
        (∃ repository info verdict,
          current = .check run repository info (.patchRepository verdict)) ∨
        ∃ agent result info repository,
          current = .submitResult agent run result (.patchRepository info repository)
  | .notifyJobRun run (.readChannels status channelIds) =>
      current = .notifyJobRun run .readRun ∧ ∃ row job,
        server.db.jobRuns.get? run = some row ∧ server.db.backupJobs.get? row.jobId = some job ∧
        wanted job.notify row.status = true ∧ status = row.status ∧
        channelIds = job.notify.channelIds
  | _ => True

theorem Call.settlingSource_of_none {call : Call} (none : call.settling = none) :
    call.SettlingSource server current := by
  cases call with
  | finalize | notifyJobRun => cases none
  | _ => trivial

theorem Call.settling_of_execution {call : Call} {runner : Runner} {run : Uuid} {stage : Stage}
    (executes : call.execution = some (runner, run, stage)) : call.settling = none := by
  cases call with
  | backup | prune | check => rfl
  | _ => cases executes

theorem Move.settling_source (move : Move settings server index current outcome effect)
    {call : Call} (leaves : effect.Leaves call) : call.SettlingSource server current := by
  have quiet : call.settling = none → call.SettlingSource server current :=
    Call.settlingSource_of_none
  have idle : call.Idle → call.SettlingSource server current := fun idle => quiet idle.settling
  have dispatches : ∀ {run}, call ∈ dispatched server.db run →
      call.SettlingSource server current := by
    intro run started
    rcases dispatched_cases server.db run with none | one
    · simp [none] at started
    · rw [one, List.mem_singleton] at started
      exact quiet (started ▸ rfl)
  cases move with
  | idle was next spawned =>
      rcases leaves with same | started
      · exact idle (same ▸ next)
      · exact idle (spawned call started)
  | dispatch other | dispatchDue other =>
      rcases leaves with same | started
      · exact quiet (same ▸ rfl)
      · exact dispatches started
  | swept staleBefore stale =>
      rcases leaves with same | started
      · exact quiet (same ▸ rfl)
      · obtain ⟨run, listed, equal⟩ := List.mem_map.mp started
        exact equal ▸ Or.inl ⟨staleBefore, stale, rfl, listed⟩
  | advance was becomes others | recordSuccess was becomes write others =>
      rcases leaves with same | started
      · exact quiet (same ▸ Call.settling_of_execution becomes)
      · exact idle (others call started)
  | register was becomes | start was becomes | exits _ was becomes | readFlag was becomes
  | recordFailure was owner becomes | fails was before becomes =>
      rcases leaves with same | started
      · exact quiet (same ▸ Call.settling_of_execution becomes)
      · cases started
  | pruneRow | insertPrune =>
      rcases leaves with same | started
      · exact quiet (same ▸ rfl)
      · exact quiet (List.mem_singleton.mp started ▸ rfl)
  | patchRepository run repository info verdict =>
      rcases leaves with same | started
      · exact quiet (same ▸ rfl)
      · rw [List.mem_singleton.mp started]
        exact Or.inr (Or.inr (Or.inl ⟨repository, info, verdict, rfl⟩))
  | finishBackup run =>
      rcases leaves with same | started
      · exact quiet (same ▸ rfl)
      · rw [List.mem_singleton.mp started]
        exact Or.inr (Or.inl rfl)
  | insertCheck was job repository trigger onServer info =>
      rcases leaves with same | started
      · exact quiet (same ▸ rfl)
      · dsimp only at started
        split at started
        · exact quiet (List.mem_singleton.mp started ▸ rfl)
        · cases started
  | retryDue run row job _ present owner allowed =>
      rcases leaves with same | started
      · exact same ▸ ⟨rfl, row, job, present, owner, allowed, rfl⟩
      · cases started
  | noRetry run _ refused =>
      rcases leaves with same | started
      · exact same ▸ Or.inl ⟨rfl, refused⟩
      · cases started
  | retryRedundant run failed _ active =>
      rcases leaves with same | started
      · exact same ▸ Or.inr (Or.inl ⟨failed, rfl, active⟩)
      · cases started
  | retryClear run failed notBefore _ inactive =>
      rcases leaves with same | started
      · exact same ▸ ⟨rfl, inactive⟩
      · cases started
  | notifyRead run row job _ present owner wants =>
      rcases leaves with same | started
      · exact same ▸ ⟨rfl, row, job, present, owner, wants, rfl, rfl⟩
      · cases started
  | claim was becomes =>
      rcases leaves with same | started
      · exact idle (same ▸ becomes)
      · cases started
  | reportStats _ _ _ _ _ _ _ _ _ _ others becomes =>
      rcases leaves with same | started
      · rcases becomes with equal | equal | ⟨equal, -⟩ <;> exact quiet (same ▸ equal ▸ rfl)
      · exact idle (others call started)
  | reportPrune _ _ _ _ _ _ _ _ _ others =>
      rcases leaves with same | started
      · exact quiet (same ▸ rfl)
      · exact idle (others call started)
  | reportSettle _ _ _ _ _ _ becomes =>
      rcases leaves with same | started
      · rcases becomes with equal | equal <;> exact quiet (same ▸ equal ▸ rfl)
      · cases started
  | reportFinalize agent task result =>
      rcases leaves with same | started
      · exact quiet (same ▸ rfl)
      · rw [List.mem_singleton.mp started]
        exact Or.inr (Or.inr ⟨agent, result, rfl⟩)
  | reportPatch agent task repository result info =>
      rcases leaves with same | started
      · exact quiet (same ▸ rfl)
      · rw [List.mem_singleton.mp started]
        exact Or.inr (Or.inr (Or.inr ⟨agent, result, info, repository, rfl⟩))
  | _ =>
      rcases leaves with same | started
      · exact quiet (same ▸ rfl)
      · cases started

/-- An execution whose outcome is recorded records no other, unless the row of the prune it
starts is refused. -/
theorem Move.recorded_stays (move : Move settings server index current outcome effect)
    {call : Call} (leaves : effect.Leaves call) {runner runner' : Runner} {run : Uuid}
    {stage : Stage} (was : current.execution = some (runner, run, .recorded))
    (executes : call.execution = some (runner', run, stage))
    (known : run ≠ freshId server.db.jobRuns) :
    stage = .recorded ∨ ∃ context error,
      current = .backup run (.createPruneRow context) ∧ outcome = .throws error := by
  have same : ∀ {runner' : Runner} {run' : Uuid} {stage' : Stage},
      current.execution = some (runner', run', stage') → stage' = .recorded := by
    intro runner' run' stage' executes'
    rw [was] at executes'
    cases executes'
    rfl
  cases move with
  | idle idle | insertCheck idle | insertPrune idle | claim idle =>
      exact (idle.not_executing was).elim
  | advance was' becomes idle =>
      rcases leaves with equal | started
      · subst equal
        rw [becomes] at executes
        cases executes
        exact Or.inl (same was')
      · exact ((idle call started).not_executing executes).elim
  | register was' becomes =>
      rcases leaves with equal | started
      · subst equal
        rw [becomes] at executes
        cases executes
        exact Or.inl (same was')
      · cases started
  | start was' | readFlag was' | recordSuccess was' | recordFailure was' | exits _ was' =>
      cases same was'
  | fails was' before =>
      rcases before with equal | ⟨deaf, equal⟩ | equal <;> rw [same was'] at equal <;> cases equal
  | pruneRow other context =>
      cases was
      rcases leaves with equal | started
      · subst equal
        cases executes
        exact Or.inl rfl
      · rw [List.mem_singleton.mp started] at executes
        cases executes
        exact absurd rfl known
  | pruneRefused other context error =>
      cases was
      exact Or.inr ⟨context, error, rfl, rfl⟩
  | settle other repository info verdict =>
      have stage := same (rfl : Call.execution _ = some (.check, other, _))
      unfold CheckPhase.stage at stage
      dsimp only at stage
      split at stage <;> cases stage
  | patchRepository | finishBackup =>
      rcases leaves with equal | started
      · subst equal
        cases executes
        try exact Or.inl rfl
      · rw [List.mem_singleton.mp started] at executes
        cases executes
  | finish =>
      rcases leaves with equal | started
      · subst equal
        cases executes
      · cases started
  | _ => cases was

/-- A running run goes on running until an execution of it, a cancel or an agent records its
outcome. -/
theorem Move.running_kept (move : Move settings server index current outcome effect)
    {run : Uuid} {row after : JobRun} (present : server.db.jobRuns.get? run = some row)
    (running : row.status = .running)
    (found : (effect.statement.execute server.now server.db).jobRuns.get? run = some after) :
    after.status = .running ∨ current.overrides = some run ∨ current.settlingCheck = some run ∨
      ∃ runner stage, current.execution = some (runner, run, stage) ∧
        (runner = .check ∨ effect.next.execution = some (runner, run, .recorded)) := by
  rcases Statement.row_after found with ⟨-, fresh⟩ | ⟨old, before, same⟩
  · rw [fresh, get?_freshId] at present
    cases present
  · rw [present] at before
    cases before
    rcases same with ⟨stats, same⟩ | ⟨update, issues, hit, same⟩
    · subst same
      exact Or.inl running
    · have source := move.update_source issues
      subst same
      cases update with
      | openLocal => exact Or.inl rfl
      | writeStats | clearNotBefore | backupProgress => exact Or.inl running
      | failStale =>
          simp only [RunUpdate.hits, Bool.and_eq_true, decide_eq_true_eq] at hit
          rw [running] at hit
          cases hit.1.2
      | claim =>
          simp only [RunUpdate.hits, Bool.and_eq_true, decide_eq_true_eq] at hit
          rw [running] at hit
          cases hit.2
      | succeedLocal | succeedPrune =>
          simp only [RunUpdate.hits, decide_eq_true_eq] at hit
          subst hit
          exact Or.inr (Or.inr (Or.inr ⟨_, _, source.1, Or.inr source.2⟩))
      | failLocal =>
          simp only [RunUpdate.hits, decide_eq_true_eq] at hit
          subst hit
          obtain ⟨runner, -, executes, records⟩ := source
          exact Or.inr (Or.inr (Or.inr ⟨runner, _, executes, Or.inr records⟩))
      | forceCancel =>
          simp only [RunUpdate.hits, decide_eq_true_eq] at hit
          subst hit
          exact Or.inr (Or.inl (by rw [source]; rfl))
      | settleCheck =>
          simp only [RunUpdate.hits, Bool.and_eq_true, decide_eq_true_eq] at hit
          rw [← hit.1] at source
          rcases source with ⟨stage, executes⟩ | settles
          · exact Or.inr (Or.inr (Or.inr ⟨.check, stage, executes, Or.inl rfl⟩))
          · exact Or.inr (Or.inr (Or.inl settles))
      | cancelledOnAgent | recordResult =>
          simp only [RunUpdate.hits, Bool.and_eq_true, decide_eq_true_eq] at hit
          rw [← hit.1] at source
          exact Or.inr (Or.inl source)

/-- A settled run changes its status only through the write of an execution of the run, or
through the write of a cancel. -/
theorem Move.final_kept (move : Move settings server index current outcome effect)
    {run : Uuid} {row after : JobRun} (present : server.db.jobRuns.get? run = some row)
    (final : row.status.final = true)
    (found : (effect.statement.execute server.now server.db).jobRuns.get? run = some after) :
    after.status = row.status ∨ (∃ context, current = .backup run (.openRun context)) ∨
      (∃ runner stage, (runner = .backup ∨ runner = .prune) ∧
        current.execution = some (runner, run, stage) ∧
        (stage = .finishing ∨ ∃ aborted, stage = .deciding aborted)) ∨
      ((∃ error, current = .cancelRun run (.write error)) ∧ after.status = .cancelled) := by
  rcases Statement.row_after found with ⟨-, fresh⟩ | ⟨old, before, same⟩
  · rw [fresh, get?_freshId] at present
    cases present
  · rw [present] at before
    cases before
    rcases same with ⟨stats, same⟩ | ⟨update, issues, hit, same⟩
    · subst same
      exact Or.inl rfl
    · rcases RunUpdate.set_final hit final with kept | targets | ⟨error, forced⟩
      · exact Or.inl ((congrArg JobRun.status same).trans kept)
      · have source := move.update_source issues
        cases update with
        | openLocal other =>
            cases targets
            exact Or.inr (Or.inl source)
        | succeedLocal other =>
            cases targets
            exact Or.inr (Or.inr (Or.inl ⟨_, _, Or.inl rfl, source.1, Or.inl rfl⟩))
        | succeedPrune other =>
            cases targets
            exact Or.inr (Or.inr (Or.inl ⟨_, _, Or.inr rfl, source.1, Or.inl rfl⟩))
        | failLocal other aborted =>
            cases targets
            obtain ⟨runner, owner, executes, -⟩ := source
            exact Or.inr (Or.inr (Or.inl ⟨runner, _, owner, executes, Or.inr ⟨aborted, rfl⟩⟩))
        | _ => cases targets
      · have source := move.update_source issues
        subst forced
        exact Or.inr (Or.inr (Or.inr ⟨⟨error, source⟩, congrArg JobRun.status same⟩))

end Moves

end AmberBackup
