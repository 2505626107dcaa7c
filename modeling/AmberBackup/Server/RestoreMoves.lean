import AmberBackup.Server.MoveCases

/-! # What a step of a call can do about restores

The calls that dispatch or execute a restore, and the few that write its row, as moves of
their own. Every other step leaves the restores alone (`Call.step_restoreMove`).
-/

namespace AmberBackup

open Relational

/-- How far the execution of a restore has got. -/
inductive RestoreStage where
  /-- The restore is not marked running yet. -/
  | waiting
  /-- It is, and its outcome is not recorded yet. -/
  | held
  | recorded
  deriving DecidableEq

def RestorePhase.stage : RestorePhase → RestoreStage
  | .load | .register _ | .openRun _ => .waiting
  | .resolve _ | .makeTarget _ | .prepare .. | .child .. | .createArchive .. | .recordSuccess ..
  | .caught _ | .recordFailure .. => .held
  | .unregister => .recorded

/-- The row an execution has loaded. -/
def RestorePhase.loaded : RestorePhase → Option RestoreRun
  | .register run | .openRun run | .resolve run | .makeTarget run | .prepare run _
  | .child run _ _ | .createArchive run _ _ | .recordSuccess run _ _ => some run
  | .load | .caught _ | .recordFailure .. | .unregister => none

/-- The target path restic is about to be given. -/
def RestorePhase.target : RestorePhase → Option (RestoreRun × String)
  | .prepare run targetPath => some (run, targetPath)
  | _ => none

theorem RestorePhase.loaded_of_target {phase : RestorePhase} {run : RestoreRun} {path : String}
    (target : phase.target = some (run, path)) : phase.loaded = some run := by
  cases phase with
  | prepare =>
      cases target
      rfl
  | _ => cases target

/-- The restore a call dispatches or executes. -/
def Call.restoring : Call → Option Uuid
  | .dispatchRestore id => some id
  | .restore id _ => some id
  | _ => none

/-- The restores a poll has selected and not claimed yet. -/
def PollPhase.claiming : PollPhase → List Uuid
  | .claim .restores rows | .resolve .restores rows => rows
  | _ => []

def Call.claiming : Call → List Uuid
  | .poll _ _ phase => phase.claiming
  | _ => []

/-- A restore of which a fact holds. -/
def KnownRestore (db : Db) (id : Uuid) (fact : RestoreRun → Prop) : Prop :=
  ∃ row, db.restoreRuns.get? id = some row ∧ fact row

/-- A call that has to do with no restore. -/
structure Call.SparesRestores (call : Call) : Prop where
  restoring : call.restoring = none
  claiming : call.claiming = []

theorem Call.spares_iff {call : Call} :
    call.SparesRestores ↔ call.restoring = none ∧ call.claiming = [] :=
  ⟨fun spares => ⟨spares.restoring, spares.claiming⟩, fun both => ⟨both.1, both.2⟩⟩

/-- A statement that leaves `restore_runs` as it is. -/
def Statement.sparesRestores : Statement → Bool
  | .updateRestores _ | .insertRestore _ => false
  | _ => true

/-- A step that has to do with no restore. -/
structure Effect.SparesRestores (effect : Effect) : Prop where
  next : effect.next.restoring = none
  claiming : effect.next.claiming = []
  spawned : ∀ call ∈ effect.spawned, call.SparesRestores
  statement : effect.statement.sparesRestores = true
  events : ∀ event ∈ effect.events, event.passive = false

/-- What a step of the call at an index can do about restores. -/
inductive RestoreMove (settings : Settings) (server : Server) (index : Nat) :
    Call → Effect → Prop where
  | elsewhere {current : Call} {effect : Effect} (was : current.restoring = none)
      (spares : effect.SparesRestores) : RestoreMove settings server index current effect
  /-- A poll goes on with the restores it has selected. -/
  | poll {effect : Effect} (agent : Uuid) (dto : PollDto) (before after : PollPhase)
      (next : effect.next = .poll agent dto after)
      (claiming : ∀ id ∈ after.claiming, id ∈ before.claiming ∨
        KnownRestore server.db id fun row => row.agentId = some agent)
      (spawned : effect.spawned = []) (statement : effect.statement.sparesRestores = true)
      (events : ∀ event ∈ effect.events, event.passive = false) :
      RestoreMove settings server index (.poll agent dto before) effect
  | create (user : RequestUser) (dto : CreateRestoreDto) (repository : Repository)
      (accepted : (can server.db user .job dto.jobId .operate && modeAllowed user dto.mode) = true) :
      RestoreMove settings server index (.createRestore user dto) {
        next := .dispatchRestore (freshId server.db.restoreRuns)
        statement := .insertRestore (createdRestore user dto repository server.now)
        events := [.restoreCreated (freshId server.db.restoreRuns) user.isAdmin] }
  | dispatch (id : Uuid) :
      RestoreMove settings server index (.dispatchRestore id)
        { next := .done, spawned := dispatchedRestore server.db id }
  | abandon (id : Uuid) : RestoreMove settings server index (.restore id .load) { next := .done }
  | load (id : Uuid) (run : RestoreRun) (present : server.db.restoreRuns.get? id = some run) :
      RestoreMove settings server index (.restore id .load)
        { next := .restore id (.register run) }
  | register (id : Uuid) (run : RestoreRun) :
      RestoreMove settings server index (.restore id (.register run))
        { next := .restore id (.openRun run), access := .register .restore id }
  | openRun (id : Uuid) (run : RestoreRun) :
      RestoreMove settings server index (.restore id (.openRun run)) {
        next := .restore id (.resolve run)
        statement := .updateRestores (.openLocal id) }
  /-- An execution gets further before its outcome is recorded. -/
  | advance {before after : RestorePhase} {spawned : List Call} (id : Uuid)
      (was : before.stage = .held) (becomes : after.stage = .held)
      (loaded : after.loaded = before.loaded ∨ after.loaded = none)
      (target : ∀ run path, after.target = some (run, path) →
        serverTargetPath settings id run = .ok path)
      (others : ∀ call ∈ spawned, call.SparesRestores) :
      RestoreMove settings server index (.restore id before) { next := .restore id after, spawned }
  | start (id : Uuid) (run : RestoreRun) (targetPath : String) (deaf : Bool) :
      RestoreMove settings server index (.restore id (.prepare run targetPath)) {
        next := .restore id (.child run targetPath deaf)
        events := [.restoreStarted id targetPath] }
  | record {before : RestorePhase} {update : RestoreUpdate} (id : Uuid)
      (was : before.stage = .held)
      (write : (∃ stats destination expires log,
          update = .succeedLocal id stats destination expires log) ∨
        ∃ aborted error log, update = .failLocal id aborted error log) :
      RestoreMove settings server index (.restore id before)
        { next := .restore id .unregister, statement := .updateRestores update }
  | finish (id : Uuid) :
      RestoreMove settings server index (.restore id .unregister)
        { next := .done, access := .unregister .restore id }
  | cancelWrite (id : Uuid) (error : Option String) :
      RestoreMove settings server index (.cancelRestore id (.write error))
        { next := .done, statement := .updateRestores (.cancel id error) }
  | claim (agent : Uuid) (dto : PollDto) (restore : Uuid) (rest : List Uuid) :
      RestoreMove settings server index (.poll agent dto (.claim .restores (restore :: rest)))
        (claimRestoreEffect server agent dto restore rest)
  | report (agent task : Uuid) (result : TaskResult) (before : ResultPhase)
      (update : RestoreUpdate)
      (write : (before = .recordRestore ∧ update = .recordResult task result) ∨
        (before = .cancelledRestore ∧ update = .cancelledOnAgent task result.log)) :
      RestoreMove settings server index (.submitResult agent task result before)
        { next := .done, statement := .updateRestores update }
  /-- Figures of a restore that runs. -/
  | figures {current : Call} (was : current.restoring = none) (update : RestoreUpdate)
      (write : (∃ id stats, update = .writeStats id stats) ∨
        ∃ id agent stats, update = .restoreProgress id agent stats) :
      RestoreMove settings server index current
        { next := .done, statement := .updateRestores update }

section Complete

variable {settings : Settings} {server : Server} {index : Nat} {current : Call}
  {outcome : Outcome} {effect : Effect}

theorem dispatched_spares (db : Db) (run : Uuid) :
    ∀ call ∈ dispatched db run, call.SparesRestores := by
  intro call member
  rcases dispatched_cases db run with none | one
  · simp [none] at member
  · rw [one, List.mem_singleton] at member
    subst member
    exact ⟨rfl, rfl⟩

theorem RunnerPhase.step_spares {phase : RunnerPhase}
    (stepped : phase.step settings server outcome = some effect) : effect.SparesRestores := by
  unfold RunnerPhase.step at stepped
  split at stepped
  · split at stepped <;> cases stepped <;> exact ⟨rfl, rfl, by simp, rfl, by simp⟩
  · cases stepped
    exact ⟨rfl, rfl, dispatched_spares _ _, rfl, by simp⟩
  · cases stepped
    exact ⟨rfl, rfl, by simp, rfl, by simp⟩
  · cases stepped
    exact ⟨rfl, rfl, by simp, rfl, by simp⟩
  · cases stepped
    exact ⟨rfl, rfl, dispatched_spares _ _, rfl, by simp⟩
  · cases stepped
    exact ⟨rfl, rfl, by simp, rfl, by simp [Event.passive]⟩
  · cases stepped
    exact ⟨rfl, rfl, by simp [Call.spares_iff, Call.restoring, Call.claiming], rfl, by simp⟩
  · cases stepped

theorem BackupPhase.step_spares {run : Uuid} {phase : BackupPhase}
    (stepped : phase.step server index run outcome = some effect) : effect.SparesRestores := by
  unfold BackupPhase.step at stepped
  repeat' split at stepped
  all_goals cases stepped
  all_goals
    exact ⟨rfl, rfl, by simp [Call.spares_iff, Call.restoring, Call.claiming], rfl,
      by simp [Event.passive]⟩

theorem PrunePhase.step_spares {run repository : Uuid} {phase : PrunePhase}
    (stepped : phase.step server index run repository outcome = some effect) :
    effect.SparesRestores := by
  unfold PrunePhase.step at stepped
  repeat' split at stepped
  all_goals cases stepped
  all_goals
    exact ⟨rfl, rfl, by simp [Call.spares_iff, Call.restoring, Call.claiming], rfl,
      by simp [Event.passive]⟩

theorem CheckStart.step_spares {job : Uuid} {trigger : RunTrigger} {phase : CheckStart}
    (stepped : phase.step server job trigger outcome = some effect) : effect.SparesRestores := by
  unfold CheckStart.step at stepped
  repeat' split at stepped
  all_goals cases stepped
  all_goals refine ⟨rfl, rfl, ?_, rfl, by simp⟩
  all_goals simp
  · exact fun _ => ⟨rfl, rfl⟩

theorem CheckPhase.step_spares {run repository : Uuid} {info : CheckInfo} {phase : CheckPhase}
    (stepped : phase.step server index run repository info outcome = some effect) :
    effect.SparesRestores := by
  unfold CheckPhase.step at stepped
  repeat' split at stepped
  all_goals cases stepped
  all_goals
    exact ⟨rfl, rfl, by simp [Call.spares_iff, Call.restoring, Call.claiming], rfl,
      by simp [Event.passive]⟩

theorem RemovalPhase.step_spares {job : Uuid} {reclaim : Bool} {phase : RemovalPhase}
    (stepped : phase.step server job reclaim outcome = some effect) : effect.SparesRestores := by
  unfold RemovalPhase.step at stepped
  repeat' split at stepped
  all_goals cases stepped
  all_goals exact ⟨rfl, rfl, by simp [Call.spares_iff, Call.restoring, Call.claiming], rfl, by simp⟩

theorem FinalizePhase.step_spares {run : Uuid} {phase : FinalizePhase}
    (stepped : phase.step server run outcome = some effect) : effect.SparesRestores := by
  unfold FinalizePhase.step at stepped
  repeat' split at stepped
  all_goals cases stepped
  all_goals exact ⟨rfl, rfl, by simp, rfl, by simp [Event.passive]⟩

theorem NotifyPhase.step_spares {run : Uuid} {phase : NotifyPhase}
    (stepped : phase.step server run outcome = some effect) : effect.SparesRestores := by
  unfold NotifyPhase.step at stepped
  repeat' split at stepped
  all_goals cases stepped
  all_goals refine ⟨rfl, rfl, by simp, rfl, ?_⟩
  all_goals simp
  · exact fun _ => rfl

theorem CancelPhase.step_spares {run : Uuid} {phase : CancelPhase}
    (stepped : phase.step server run outcome = some effect) : effect.SparesRestores := by
  unfold CancelPhase.step at stepped
  repeat' split at stepped
  all_goals cases stepped
  all_goals exact ⟨rfl, rfl, by simp, rfl, by simp [Event.passive]⟩

theorem selectedRows_handed {db : Db} (now : Nat) {agent id : Uuid}
    (selected : id ∈ selectedRows db now agent .restores) :
    KnownRestore db id fun row => row.agentId = some agent := by
  obtain ⟨⟨key, row⟩, listed, same⟩ := List.mem_map.mp selected
  obtain ⟨stored, queued⟩ := List.mem_filter.mp listed
  simp only [queuedRestore, Bool.and_eq_true, decide_eq_true_eq] at queued
  exact ⟨row, same ▸ Table.mem_rows.mp stored, queued.1⟩

theorem claiming_followedBy (loop : PollLoop) (dto : PollDto) :
    (loop.followedBy dto).claiming = [] := by
  cases loop with
  | restores =>
      unfold PollLoop.followedBy
      dsimp only
      split <;> rfl
  | backups | checks => rfl

theorem PollPhase.step_restoreMove {agent : Uuid} {dto : PollDto} {phase : PollPhase}
    (stepped : phase.step server agent dto outcome = some effect) :
    RestoreMove settings server index (.poll agent dto phase) effect := by
  unfold PollPhase.step at stepped
  split at stepped
  · cases stepped
    exact .poll agent dto _ _ rfl (by simp [PollPhase.claiming]) rfl rfl (by simp)
  · next loop _ =>
      cases stepped
      refine .poll agent dto _ _ rfl (fun id listed => ?_) rfl rfl (by simp)
      cases loop with
      | restores => exact Or.inr (selectedRows_handed server.now listed)
      | backups | checks => cases listed
  · cases stepped
    exact .poll agent dto _ _ rfl (by simp [claiming_followedBy]) rfl rfl (by simp)
  · cases stepped
    refine .poll agent dto _ _ rfl (fun id listed => ?_) rfl rfl ?_
    · split at listed <;> cases listed
    · unfold claimRunEffect
      dsimp only
      split <;> simp [Event.passive]
  · cases stepped
    refine .poll agent dto _ _ rfl (fun id listed => ?_) rfl rfl ?_
    · split at listed <;> cases listed
    · unfold claimRunEffect
      dsimp only
      split <;> simp [Event.passive]
  · cases stepped
    exact .claim agent dto _ _
  · next loop rest _ =>
      cases stepped
      refine .poll agent dto _ _ rfl (fun id listed => ?_) rfl rfl (by simp)
      cases loop with
      | restores => exact Or.inl listed
      | backups | checks => cases listed
  · cases stepped
    exact .elsewhere rfl ⟨rfl, rfl, by simp, rfl, by simp⟩
  · split at stepped
    · cases stepped
      exact .elsewhere rfl ⟨rfl, rfl, by simp, rfl, by simp⟩
    · cases stepped
      refine .elsewhere rfl ⟨rfl, rfl, fun call member => ?_, rfl, by simp⟩
      obtain ⟨_, -, same⟩ := List.mem_map.mp member
      exact same ▸ ⟨rfl, rfl⟩
  · cases stepped
    exact .elsewhere rfl ⟨rfl, rfl, by simp, rfl, by simp⟩
  · cases stepped
    exact .elsewhere rfl ⟨rfl, rfl, by simp, rfl, by simp⟩
  · cases stepped
    exact .elsewhere rfl ⟨rfl, rfl, by simp, rfl, by simp⟩
  · cases stepped

theorem ResultPhase.step_restoreMove {agent task : Uuid} {result : TaskResult}
    {phase : ResultPhase}
    (stepped : phase.step server agent task result outcome = some effect) :
    RestoreMove settings server index (.submitResult agent task result phase) effect := by
  cases phase with
  | recordRestore =>
      cases outcome with
      | «returns» text =>
          cases stepped
          exact .report agent task result _ _ (Or.inl ⟨rfl, rfl⟩)
      | throws | exits | reports | measures => cases stepped
  | cancelledRestore =>
      cases outcome with
      | «returns» text =>
          cases stepped
          exact .report agent task result _ _ (Or.inr ⟨rfl, rfl⟩)
      | throws | exits | reports | measures => cases stepped
  | _ =>
      refine .elsewhere rfl ?_
      cases outcome with
      | «returns» text =>
          simp only [ResultPhase.step] at stepped
          repeat' split at stepped
          all_goals cases stepped
          all_goals
            exact ⟨rfl, rfl, by simp [Call.spares_iff, Call.restoring, Call.claiming], rfl,
              by simp⟩
      | throws | exits | reports | measures => cases stepped

theorem ProgressPhase.step_restoreMove {agent task : Uuid} {stats : String}
    {phase : ProgressPhase}
    (stepped : phase.step server agent task stats outcome = some effect) :
    RestoreMove settings server index (.submitProgress agent task stats phase) effect := by
  unfold ProgressPhase.step at stepped
  split at stepped
  · cases stepped
    exact .elsewhere rfl ⟨rfl, rfl, by simp, rfl, by simp⟩
  · split at stepped <;> cases stepped <;>
      exact .elsewhere rfl ⟨rfl, rfl, by simp, rfl, by simp⟩
  · cases stepped
    exact .elsewhere rfl ⟨rfl, rfl, by simp, rfl, by simp⟩
  · cases stepped
    exact .figures rfl _ (Or.inr ⟨task, agent, stats, rfl⟩)
  · cases stepped

theorem CancelPhase.restoreStep_restoreMove {id : Uuid} {phase : CancelPhase}
    (stepped : phase.restoreStep server id outcome = some effect) :
    RestoreMove settings server index (.cancelRestore id phase) effect := by
  unfold CancelPhase.restoreStep at stepped
  split at stepped
  case h_3 =>
    cases stepped
    exact .cancelWrite id _
  all_goals repeat' split at stepped
  all_goals cases stepped
  all_goals exact .elsewhere rfl ⟨rfl, rfl, by simp, rfl, by simp⟩

theorem RestorePhase.step_restoreMove {id : Uuid} {phase : RestorePhase}
    (stepped : phase.step settings server index id outcome = some effect) :
    RestoreMove settings server index (.restore id phase) effect := by
  have onward : ∀ {before after : RestorePhase}, before.stage = .held → after.stage = .held →
      (after.loaded = before.loaded ∨ after.loaded = none) → after.target = none →
      RestoreMove settings server index (.restore id before) { next := .restore id after } := by
    intro before after was becomes loaded target
    exact .advance id was becomes loaded (fun run path equal => by simp [target] at equal) (by simp)
  unfold RestorePhase.step at stepped
  split at stepped
  · split at stepped
    · cases stepped
      exact .abandon id
    · next run present =>
        cases stepped
        exact .load id run present
  · cases stepped
    exact .register id _
  · cases stepped
    exact .openRun id _
  · cases stepped
    exact onward rfl rfl (Or.inl rfl) rfl
  · split at stepped
    · next targetPath settled =>
        cases stepped
        refine .advance id rfl rfl (Or.inl rfl) (fun run path equal => ?_) (by simp)
        cases equal
        exact settled
    · cases stepped
      exact onward rfl rfl (Or.inr rfl) rfl
  · cases stepped
    exact .start id _ _ _
  · cases stepped
    refine .advance id rfl rfl (Or.inl rfl) (fun run path equal => by cases equal) ?_
    simp [Call.spares_iff, Call.restoring, Call.claiming]
  · split at stepped
    · cases stepped
      split
      · exact onward rfl rfl (Or.inr rfl) rfl
      · split
        · exact onward rfl rfl (Or.inl rfl) rfl
        · exact onward rfl rfl (Or.inl rfl) rfl
    · cases stepped
  · cases stepped
    exact onward rfl rfl (Or.inl rfl) rfl
  · cases stepped
    exact onward rfl rfl (Or.inr rfl) rfl
  · cases stepped
    exact onward rfl rfl (Or.inr rfl) rfl
  · cases stepped
    exact onward rfl rfl (Or.inr rfl) rfl
  · cases stepped
    exact onward rfl rfl (Or.inr rfl) rfl
  · cases stepped
    exact onward rfl rfl (Or.inr rfl) rfl
  · cases stepped
    exact .record id rfl (Or.inl ⟨_, _, _, _, rfl⟩)
  · cases stepped
    exact onward rfl rfl (Or.inr rfl) rfl
  · cases stepped
    exact .record id rfl (Or.inr ⟨_, _, _, rfl⟩)
  · cases stepped
    exact .finish id
  · cases stepped

/-- Every step of every call is one of the moves. -/
theorem Call.step_restoreMove
    (stepped : current.step settings server index outcome = some effect) :
    RestoreMove settings server index current effect := by
  cases current with
  | runner phase => exact .elsewhere rfl (RunnerPhase.step_spares stepped)
  | backup run phase => exact .elsewhere rfl (BackupPhase.step_spares stepped)
  | prune run repository phase => exact .elsewhere rfl (PrunePhase.step_spares stepped)
  | startCheck job trigger phase => exact .elsewhere rfl (CheckStart.step_spares stepped)
  | check run repository info phase => exact .elsewhere rfl (CheckPhase.step_spares stepped)
  | removeSnapshot job reclaim phase => exact .elsewhere rfl (RemovalPhase.step_spares stepped)
  | finalize run phase => exact .elsewhere rfl (FinalizePhase.step_spares stepped)
  | notifyJobRun run phase => exact .elsewhere rfl (NotifyPhase.step_spares stepped)
  | cancelRun run phase => exact .elsewhere rfl (CancelPhase.step_spares stepped)
  | poll agent dto phase => exact PollPhase.step_restoreMove stepped
  | submitResult agent task result phase => exact ResultPhase.step_restoreMove stepped
  | submitProgress agent task stats phase => exact ProgressPhase.step_restoreMove stepped
  | writeStats run stats =>
      cases stepped
      exact .elsewhere rfl ⟨rfl, rfl, by simp, rfl, by simp⟩
  | refreshStats repository =>
      cases outcome with
      | measures reading =>
          cases stepped
          exact .elsewhere rfl ⟨rfl, rfl, by simp, rfl, by simp⟩
      | «returns» | throws | exits | reports => cases stepped
  | updateJob user job patch =>
      simp only [Call.step] at stepped
      split at stepped <;> cases stepped <;>
        exact .elsewhere rfl ⟨rfl, rfl, by simp, rfl, by simp⟩
  | createRestore user dto =>
      cases stepped
      unfold createRestoreEffect
      split
      · exact .elsewhere rfl ⟨rfl, rfl, by simp, rfl, by simp⟩
      · split
        case isTrue accepted =>
          exact .create user dto _ accepted
        case isFalse => exact .elsewhere rfl ⟨rfl, rfl, by simp, rfl, by simp⟩
  | dispatchRestore id =>
      cases stepped
      exact .dispatch id
  | restore id phase => exact RestorePhase.step_restoreMove stepped
  | cancelRestore id phase => exact CancelPhase.restoreStep_restoreMove stepped
  | writeRestoreStats id stats =>
      cases stepped
      exact .figures rfl _ (Or.inl ⟨id, stats, rfl⟩)
  | done => cases stepped

end Complete

/-- Requests, timers and agents start calls that have to do with no restore yet. -/
theorem Entry.call_spares (settings : Settings) (now : Nat) (entry : Entry) :
    (entry.call settings now).SparesRestores := by
  cases entry with
  | failStaleQueuedRuns =>
      by_cases off : settings.runQueueTimeoutSeconds = 0 <;>
        simp [Entry.call, off, Call.spares_iff, Call.restoring, Call.claiming]
  | _ => exact ⟨rfl, rfl⟩

end AmberBackup
