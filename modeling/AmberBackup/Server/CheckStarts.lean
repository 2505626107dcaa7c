import AmberBackup.Server.Inversions
import AmberBackup.Server.RestoreExecution

/-! # Starts of integrity checks

The start of a check looks for active runs of its job, then for active restores, and inserts
the check last. What it has found stays true only while no other call makes a run or a
restore of the job active. In runs in which none does that under a start that has looked
already, a check is inserted next to nothing, and a job has at most one active check
(`checks_start_exclusively`).
-/

namespace AmberBackup

open Relational Transition

namespace Call

/-- The job for which a start has found no active run. -/
def cleared : Call → Option Uuid
  | .startCheck job _ (.assertNoRestore ..) | .startCheck job _ (.insert ..) => some job
  | _ => none

/-- The job for which a start has found no active restore either. -/
def inserting : Call → Option Uuid
  | .startCheck job _ (.insert ..) => some job
  | _ => none

/-- The job of which the call's next step queues a run, or opens one that is settled. -/
def activatesRun (server : Server) : Call → Outcome → Option Uuid
  | .runner (.createRun requester job), .returns _ =>
      if mayOperate server.db job requester && (server.db.backupJobs.get? job).isSome then some job
      else none
  | .backup run (.openRun _), _ =>
      ((server.db.jobRuns.get? run).filter fun row => row.status.final).map JobRun.jobId
  | .backup _ (.createPruneRow context), .returns _ => some context.jobId
  | .finalize _ (.retryInsert failed _), .returns _ => some failed.jobId
  | .removeSnapshot job _ (.createRow _), .returns _ => some job
  | .startCheck job _ (.insert ..), .returns _ => some job
  | _, _ => none

/-- The same, of a restore from a job's repository. -/
def activatesRestore (server : Server) : Call → Outcome → Option Uuid
  | .createRestore user dto, _ =>
      if can server.db user .job dto.jobId .operate && modeAllowed user dto.mode then
        some dto.jobId
      else none
  | .restore id (.openRun _), _ =>
      ((server.db.restoreRuns.get? id).filter fun row => row.status.final).bind RestoreRun.jobId
  | _, _ => none

theorem exists_of_inserting {call : Call} {job : Uuid} (inserts : call.inserting = some job) :
    ∃ trigger row info, call = .startCheck job trigger (.insert row info) := by
  cases call with
  | startCheck other trigger phase =>
      cases phase with
      | insert row info =>
          obtain rfl := Option.some.inj inserts
          exact ⟨trigger, row, info, rfl⟩
      | getRow | assertAgentCanCheck | assertNoRun | assertNoRestore => cases inserts
  | _ => cases inserts

theorem cleared_of_inserting {call : Call} {job : Uuid} (inserts : call.inserting = some job) :
    call.cleared = some job := by
  obtain ⟨trigger, row, info, rfl⟩ := exists_of_inserting inserts
  rfl

/-- A call that is no start past its first test has found nothing. -/
theorem holds_of_uncleared {call : Call} (none : call.cleared = none) (runs restores : Uuid → Prop) :
    (∀ job, call.cleared = some job → runs job) ∧
      ∀ job, call.inserting = some job → restores job := by
  constructor
  · intro job cleared
    rw [none] at cleared
    cases cleared
  · intro job inserts
    rw [cleared_of_inserting inserts] at none
    cases none

end Call

/-- The run a statement inserts. -/
def Statement.inserted : Statement → Option JobRun
  | .insertRun row => some row
  | _ => none

/-- A step that has to do with no start of a check, and queues runs of the one job only. -/
structure Effect.Aside (effect : Effect) (job : Option Uuid) : Prop where
  next : effect.next.cleared = none
  spawned : ∀ call ∈ effect.spawned, call.cleared = none
  inserts : ∀ row, effect.statement.inserted = some row → row.status.active = true →
    job = some row.jobId ∧ row.kind ≠ .check

theorem Effect.aside_of_quiet {effect : Effect} {job : Option Uuid}
    (next : effect.next.cleared = none) (spawned : ∀ call ∈ effect.spawned, call.cleared = none)
    (statement : effect.statement.inserted = none) : effect.Aside job := by
  refine ⟨next, spawned, fun row inserts => ?_⟩
  rw [statement] at inserts
  cases inserts

theorem Effect.aside_of_insert {effect : Effect} {job : Option Uuid} {inserted : JobRun}
    (next : effect.next.cleared = none) (spawned : ∀ call ∈ effect.spawned, call.cleared = none)
    (statement : effect.statement = .insertRun inserted)
    (allowed : inserted.status.active = true → job = some inserted.jobId ∧ inserted.kind ≠ .check) :
    effect.Aside job := by
  refine ⟨next, spawned, fun row inserts => ?_⟩
  rw [statement] at inserts
  obtain rfl := Option.some.inj inserts
  exact allowed

section Steps

variable {settings : Settings} {server : Server} {index : Nat} {current : Call}
  {outcome : Outcome} {effect : Effect}

theorem dispatched_cleared (db : Db) (run : Uuid) :
    ∀ call ∈ dispatched db run, call.cleared = none := by
  intro call member
  rcases dispatched_cases db run with none | one
  · simp [none] at member
  · rw [one, List.mem_singleton] at member
    subst member
    rfl

theorem RunnerPhase.step_aside {phase : RunnerPhase}
    (stepped : phase.step settings server outcome = some effect) :
    effect.Aside (Call.activatesRun server (.runner phase) outcome) := by
  unfold RunnerPhase.step at stepped
  split at stepped
  case h_1 =>
    split at stepped
    case isTrue accepted =>
      cases stepped
      refine Effect.aside_of_insert rfl (by simp) rfl fun _ => ⟨?_, by simp [createdRun]⟩
      simp only [Call.activatesRun, accepted, if_true]
      rfl
    case isFalse =>
      cases stepped
      exact Effect.aside_of_quiet rfl (by simp) rfl
  case h_2 | h_5 =>
    cases stepped
    exact Effect.aside_of_quiet rfl (dispatched_cleared _ _) rfl
  case h_7 =>
    cases stepped
    exact Effect.aside_of_quiet rfl (by simp [Call.cleared]) rfl
  case h_8 => cases stepped
  all_goals
    cases stepped
    exact Effect.aside_of_quiet rfl (by simp) rfl

theorem BackupPhase.step_aside {run : Uuid} {phase : BackupPhase}
    (stepped : phase.step server index run outcome = some effect) :
    effect.Aside (Call.activatesRun server (.backup run phase) outcome) := by
  unfold BackupPhase.step at stepped
  repeat' split at stepped
  all_goals cases stepped
  all_goals first
    | exact Effect.aside_of_quiet rfl (by simp [Call.cleared]) rfl
    | exact Effect.aside_of_insert rfl (by simp [Call.cleared]) rfl
        fun _ => ⟨rfl, by simp [localPruneRow]⟩

theorem PrunePhase.step_aside {run repository : Uuid} {phase : PrunePhase}
    (stepped : phase.step server index run repository outcome = some effect) : effect.Aside none := by
  unfold PrunePhase.step at stepped
  repeat' split at stepped
  all_goals cases stepped
  all_goals exact Effect.aside_of_quiet rfl (by simp [Call.cleared]) rfl

theorem CheckPhase.step_aside {run repository : Uuid} {info : CheckInfo} {phase : CheckPhase}
    (stepped : phase.step server index run repository info outcome = some effect) :
    effect.Aside none := by
  unfold CheckPhase.step at stepped
  repeat' split at stepped
  all_goals cases stepped
  all_goals exact Effect.aside_of_quiet rfl (by simp [Call.cleared]) rfl

theorem NotifyPhase.step_aside {run : Uuid} {phase : NotifyPhase}
    (stepped : phase.step server run outcome = some effect) : effect.Aside none := by
  unfold NotifyPhase.step at stepped
  repeat' split at stepped
  all_goals cases stepped
  all_goals exact Effect.aside_of_quiet rfl (by simp [Call.cleared]) rfl

theorem CancelPhase.step_aside {run : Uuid} {phase : CancelPhase}
    (stepped : phase.step server run outcome = some effect) : effect.Aside none := by
  unfold CancelPhase.step at stepped
  repeat' split at stepped
  all_goals cases stepped
  all_goals exact Effect.aside_of_quiet rfl (by simp [Call.cleared]) rfl

theorem CancelPhase.restoreStep_aside {id : Uuid} {phase : CancelPhase}
    (stepped : phase.restoreStep server id outcome = some effect) : effect.Aside none := by
  unfold CancelPhase.restoreStep at stepped
  repeat' split at stepped
  all_goals cases stepped
  all_goals exact Effect.aside_of_quiet rfl (by simp [Call.cleared]) rfl

theorem PollPhase.step_aside {agent : Uuid} {dto : PollDto} {phase : PollPhase}
    (stepped : phase.step server agent dto outcome = some effect) : effect.Aside none := by
  unfold PollPhase.step at stepped
  repeat' split at stepped
  all_goals cases stepped
  case h_9.isFalse.refl =>
    refine Effect.aside_of_quiet rfl (fun call member => ?_) rfl
    obtain ⟨repository, -, rfl⟩ := List.mem_map.mp member
    rfl
  all_goals
    exact Effect.aside_of_quiet rfl (by simp [claimRunEffect, claimRestoreEffect]) rfl

theorem ProgressPhase.step_aside {agent task : Uuid} {stats : String} {phase : ProgressPhase}
    (stepped : phase.step server agent task stats outcome = some effect) : effect.Aside none := by
  unfold ProgressPhase.step at stepped
  repeat' split at stepped
  all_goals cases stepped
  all_goals exact Effect.aside_of_quiet rfl (by simp [Call.cleared]) rfl

theorem RestorePhase.step_aside {id : Uuid} {phase : RestorePhase}
    (stepped : phase.step settings server index id outcome = some effect) : effect.Aside none := by
  unfold RestorePhase.step at stepped
  repeat' split at stepped
  all_goals cases stepped
  all_goals exact Effect.aside_of_quiet rfl (by simp [Call.cleared]) rfl

theorem ResultPhase.step_aside {agent task : Uuid} {result : TaskResult} {phase : ResultPhase}
    (stepped : phase.step server agent task result outcome = some effect) : effect.Aside none := by
  unfold ResultPhase.step at stepped
  repeat' split at stepped
  all_goals cases stepped
  all_goals first
    | exact Effect.aside_of_quiet rfl (by simp [Call.cleared]) rfl
    | refine Effect.aside_of_insert rfl (by simp [Call.cleared]) rfl fun active => ?_
      unfold pruneRow at active
      dsimp only at active
      split at active <;> cases active

theorem RemovalPhase.step_aside {job : Uuid} {reclaim : Bool} {phase : RemovalPhase}
    (stepped : phase.step server job reclaim outcome = some effect) :
    effect.Aside (Call.activatesRun server (.removeSnapshot job reclaim phase) outcome) := by
  unfold RemovalPhase.step at stepped
  repeat' split at stepped
  all_goals cases stepped
  all_goals first
    | exact Effect.aside_of_quiet rfl (by simp [Call.cleared]) rfl
    | exact Effect.aside_of_insert rfl (by simp [Call.cleared]) rfl
        fun _ => ⟨rfl, by simp [localPruneRow]⟩

theorem FinalizePhase.step_aside {run : Uuid} {phase : FinalizePhase}
    (stepped : phase.step server run outcome = some effect) :
    effect.Aside (Call.activatesRun server (.finalize run phase) outcome) := by
  unfold FinalizePhase.step at stepped
  repeat' split at stepped
  all_goals cases stepped
  all_goals first
    | exact Effect.aside_of_quiet rfl (by simp [Call.cleared]) rfl
    | exact Effect.aside_of_insert rfl (by simp [Call.cleared]) rfl fun _ => ⟨rfl, by simp [retryRow]⟩

/-- What the start of a check does. -/
inductive CheckStart.Moved (server : Server) (job : Uuid) (trigger : RunTrigger) :
    CheckStart → Outcome → Effect → Prop where
  /-- It looks, and stops or goes on to the runs. -/
  | looks {phase : CheckStart} {outcome : Outcome} {next : Call} (none : next.cleared = none) :
      Moved server job trigger phase outcome { next }
  | noRun (row : BackupJob) (info : CheckInfo) (outcome : Outcome)
      (idle : server.db.jobRuns.anyWhere (activeRun job) = false) :
      Moved server job trigger (.assertNoRun row info) outcome
        { next := .startCheck job trigger (.assertNoRestore row info) }
  | noRestore (row : BackupJob) (info : CheckInfo) (outcome : Outcome)
      (idle : server.db.restoreRuns.anyWhere (activeRestore job) = false) :
      Moved server job trigger (.assertNoRestore row info) outcome
        { next := .startCheck job trigger (.insert row info) }
  | insert (row : BackupJob) (info : CheckInfo) (text : String) («local» : Bool)
      (spawned : List Call) (others : ∀ call ∈ spawned, call.cleared = none) :
      Moved server job trigger (.insert row info) (.returns text) {
        next := .done
        statement := .insertRun (checkRow job trigger «local» info server.now)
        spawned }

theorem CheckStart.step_moved {job : Uuid} {trigger : RunTrigger} {phase : CheckStart}
    (stepped : phase.step server job trigger outcome = some effect) :
    phase.Moved server job trigger outcome effect := by
  unfold CheckStart.step at stepped
  split at stepped
  case h_1 =>
    repeat' split at stepped
    all_goals
      cases stepped
      exact .looks rfl
  case h_2 =>
    split at stepped <;> cases stepped <;> exact .looks rfl
  case h_3 =>
    split at stepped
    case isTrue =>
      cases stepped
      exact .looks rfl
    case isFalse idle =>
      cases stepped
      exact .noRun _ _ _ (Bool.eq_false_iff.mpr idle)
  case h_4 =>
    split at stepped
    case isTrue =>
      cases stepped
      exact .looks rfl
    case isFalse idle =>
      cases stepped
      exact .noRestore _ _ _ (Bool.eq_false_iff.mpr idle)
  case h_5 =>
    cases stepped
    refine .insert _ _ _ _ _ fun call member => ?_
    split at member
    · obtain rfl := List.mem_singleton.mp member
      rfl
    · cases member
  case h_6 => cases stepped

/-- A step of a call starts a check, or keeps aside. -/
theorem Call.step_aside (stepped : current.step settings server index outcome = some effect) :
    effect.Aside (current.activatesRun server outcome) ∨
      ∃ job trigger phase, current = .startCheck job trigger phase ∧
        phase.Moved server job trigger outcome effect := by
  cases current with
  | startCheck job trigger phase => exact .inr ⟨job, trigger, phase, rfl, CheckStart.step_moved stepped⟩
  | runner phase => exact .inl (RunnerPhase.step_aside stepped)
  | backup run phase => exact .inl (BackupPhase.step_aside stepped)
  | prune run repository phase => exact .inl (PrunePhase.step_aside stepped)
  | check run repository info phase => exact .inl (CheckPhase.step_aside stepped)
  | removeSnapshot job reclaim phase => exact .inl (RemovalPhase.step_aside stepped)
  | finalize run phase => exact .inl (FinalizePhase.step_aside stepped)
  | notifyJobRun run phase => exact .inl (NotifyPhase.step_aside stepped)
  | cancelRun run phase => exact .inl (CancelPhase.step_aside stepped)
  | poll agent dto phase => exact .inl (PollPhase.step_aside stepped)
  | submitResult agent task result phase => exact .inl (ResultPhase.step_aside stepped)
  | submitProgress agent task stats phase => exact .inl (ProgressPhase.step_aside stepped)
  | restore id phase => exact .inl (RestorePhase.step_aside stepped)
  | cancelRestore id phase => exact .inl (CancelPhase.restoreStep_aside stepped)
  | refreshStats repository =>
      cases outcome with
      | measures reading =>
          cases stepped
          exact .inl (Effect.aside_of_quiet rfl (by simp) rfl)
      | returns | throws | exits | reports => cases stepped
  | updateJob user job patch =>
      simp only [Call.step] at stepped
      split at stepped <;> cases stepped <;> exact .inl (Effect.aside_of_quiet rfl (by simp) rfl)
  | createRestore user dto =>
      cases stepped
      unfold createRestoreEffect
      repeat' split
      all_goals exact .inl (Effect.aside_of_quiet rfl (by simp) rfl)
  | dispatchRestore id =>
      cases stepped
      refine .inl (Effect.aside_of_quiet rfl (fun call member => ?_) rfl)
      change call ∈ dispatchedRestore server.db id at member
      unfold dispatchedRestore at member
      split at member
      · cases member
      · split at member
        · cases member
        · obtain rfl := List.mem_singleton.mp member
          rfl
  | writeStats run stats | writeRestoreStats id stats =>
      cases stepped
      exact .inl (Effect.aside_of_quiet rfl (by simp) rfl)
  | done => cases stepped

/-- An active run was active before, or the call has queued or opened it. -/
theorem Call.step_activatesRun (taken : current.step settings server index outcome = some effect)
    {id : Uuid} {row : JobRun}
    (found : (effect.statement.execute server.now server.db).jobRuns.get? id = some row)
    (active : row.status.active = true) :
    (∃ old, server.db.jobRuns.get? id = some old ∧ old.status.active = true ∧
        old.jobId = row.jobId) ∨
      current.activatesRun server outcome = some row.jobId := by
  rcases Statement.row_after found with ⟨inserts, -⟩ | ⟨old, before, same⟩
  · rcases Call.step_aside taken with aside | ⟨job, trigger, phase, rfl, moved⟩
    · exact .inr (aside.inserts row (by rw [inserts]; rfl) active).1
    · cases moved with
      | insert checked info text isLocal spawned others =>
          cases inserts
          exact .inr rfl
      | looks | noRun | noRestore => cases inserts
  · rcases same with ⟨stats, rfl⟩ | ⟨update, issues, hit, rfl⟩
    · exact .inl ⟨old, before, active, rfl⟩
    · have job := (update.set_identity server.now old).jobId
      cases was : old.status.active with
      | true => exact .inl ⟨old, before, was, job.symm⟩
      | false =>
          have final : old.status.final = true := by simp [RunStatus.final, was]
          rcases RunUpdate.set_final_of_final server.now hit final with still | opens
          · simp [RunStatus.final, active] at still
          · subst opens
            obtain ⟨context, rfl⟩ := (Call.step_move taken).update_source issues
            refine .inr ?_
            rw [job]
            simp [Call.activatesRun, before, Option.filter, final]

/-- The opening write alone makes a settled restore active again. -/
theorem RestoreUpdate.set_inactive (now : Nat) {update : RestoreUpdate} {id : Uuid}
    {row : RestoreRun} (hit : update.hits id row = true) (settled : row.status.active = false) :
    (update.set now row).status.active = false ∨ update = .openLocal id := by
  cases update with
  | openLocal restore =>
      simp only [RestoreUpdate.hits, decide_eq_true_eq] at hit
      exact .inr (by rw [hit])
  | succeedLocal | cancel | cancelledOnAgent => exact .inl rfl
  | failLocal restore aborted => cases aborted <;> exact .inl rfl
  | writeStats | restoreProgress => exact .inl settled
  | claim restore =>
      simp only [RestoreUpdate.hits, Bool.and_eq_true, decide_eq_true_eq] at hit
      rw [hit.2] at settled
      cases settled
  | recordResult restore result =>
      obtain ⟨status, _, _, _, _, _, _, _, _, _⟩ := result
      cases status <;> exact .inl rfl

theorem RestoreUpdate.set_jobId (now : Nat) (update : RestoreUpdate) (row : RestoreRun) :
    (update.set now row).jobId = row.jobId := by
  cases update <;> rfl

theorem RestoreMove.openLocal_source (move : RestoreMove settings server index current effect)
    {id : Uuid} (opens : effect.statement = .updateRestores (.openLocal id)) :
    ∃ run, current = .restore id (.openRun run) := by
  cases move with
  | openRun restore run =>
      cases opens
      exact ⟨run, rfl⟩
  | elsewhere was spares =>
      have statement := spares.statement
      rw [opens] at statement
      cases statement
  | poll _ _ _ _ _ _ _ statement =>
      rw [opens] at statement
      cases statement
  | record id was write =>
      rcases write with ⟨_, _, _, _, rfl⟩ | ⟨_, _, _, rfl⟩ <;> cases opens
  | report _ _ _ _ _ write => rcases write with ⟨-, rfl⟩ | ⟨-, rfl⟩ <;> cases opens
  | figures was update write => rcases write with ⟨_, _, rfl⟩ | ⟨_, _, _, rfl⟩ <;> cases opens
  | _ => cases opens

theorem RestoreMove.insert_source (move : RestoreMove settings server index current effect)
    {row : RestoreRun} (inserts : effect.statement = .insertRestore row) (outcome : Outcome) :
    current.activatesRestore server outcome = row.jobId := by
  cases move with
  | create user dto repository accepted =>
      cases inserts
      simp only [Call.activatesRestore, accepted, if_true]
      rfl
  | elsewhere was spares =>
      have statement := spares.statement
      rw [inserts] at statement
      cases statement
  | poll _ _ _ _ _ _ _ statement =>
      rw [inserts] at statement
      cases statement
  | _ => cases inserts

/-- An active restore was active before, or the call has created or opened it. -/
theorem Call.step_activatesRestore
    (taken : current.step settings server index outcome = some effect)
    {id : Uuid} {row : RestoreRun}
    (found : (effect.statement.execute server.now server.db).restoreRuns.get? id = some row)
    (active : row.status.active = true) :
    (∃ old, server.db.restoreRuns.get? id = some old ∧ old.status.active = true ∧
        old.jobId = row.jobId) ∨
      current.activatesRestore server outcome = row.jobId := by
  have move : RestoreMove settings server index current effect := Call.step_restoreMove taken
  rcases Statement.restore_after found with ⟨inserts, -⟩ | ⟨old, before, rfl | ⟨update, issues, hit,
    rfl⟩⟩
  · exact .inr (move.insert_source inserts outcome)
  · exact .inl ⟨row, before, active, rfl⟩
  · rw [update.set_jobId]
    cases was : old.status.active with
    | true => exact .inl ⟨old, before, was, rfl⟩
    | false =>
        rcases RestoreUpdate.set_inactive server.now hit was with still | opens
        · rw [active] at still
          cases still
        · subst opens
          obtain ⟨run, rfl⟩ := move.openLocal_source issues
          exact .inr (by simp [Call.activatesRestore, before, Option.filter, RunStatus.final, was])

/-! ## Starts that are not disturbed -/

/-- No call makes a run or a restore of a job active under another call that has found
none and is about to insert a check. -/
def StartsUndisturbed (server : Server) : Action → Prop
  | .resume index outcome => ∀ current ∈ server.calls[index]?, ∀ other ∈ server.calls.eraseIdx index,
      (∀ job ∈ other.cleared, current.activatesRun server outcome ≠ some job) ∧
        ∀ job ∈ other.inserting, current.activatesRestore server outcome ≠ some job
  | .tick _ | .begin _ => True

instance (server : Server) (action : Action) : Decidable (StartsUndisturbed server action) := by
  cases action <;> unfold StartsUndisturbed <;> infer_instance

/-- What a start has found is still so. -/
structure Server.Clear (server : Server) : Prop where
  runs : ∀ call ∈ server.calls, ∀ job, call.cleared = some job →
    server.db.jobRuns.anyWhere (activeRun job) = false
  restores : ∀ call ∈ server.calls, ∀ job, call.inserting = some job →
    server.db.restoreRuns.anyWhere (activeRestore job) = false

theorem idleRuns_iff {db : Db} {job : Uuid} : db.jobRuns.anyWhere (activeRun job) = false ↔
    ∀ id row, db.jobRuns.get? id = some row → row.status.active = true → row.jobId ≠ job := by
  rw [Table.anyWhere_eq_false]
  refine forall_congr' fun id => forall_congr' fun row => imp_congr_right fun _ => ?_
  cases here : row.status.active <;> simp [activeRun, here]

theorem idleRestores_iff {db : Db} {job : Uuid} :
    db.restoreRuns.anyWhere (activeRestore job) = false ↔
      ∀ id row, db.restoreRuns.get? id = some row → row.status.active = true →
        row.jobId ≠ some job := by
  rw [Table.anyWhere_eq_false]
  refine forall_congr' fun id => forall_congr' fun row => imp_congr_right fun _ => ?_
  cases here : row.status.active <;> simp [activeRestore, here]

theorem idleRuns_after (taken : current.step settings server index outcome = some effect) {job : Uuid}
    (idle : server.db.jobRuns.anyWhere (activeRun job) = false)
    (undisturbed : current.activatesRun server outcome ≠ some job) :
    (effect.statement.execute server.now server.db).jobRuns.anyWhere (activeRun job) = false := by
  rw [idleRuns_iff] at idle ⊢
  intro id row found active same
  rcases Call.step_activatesRun taken found active with ⟨old, before, was, job⟩ | activates
  · exact idle id old before was (job.trans same)
  · exact undisturbed (same ▸ activates)

theorem idleRestores_after (taken : current.step settings server index outcome = some effect)
    {job : Uuid} (idle : server.db.restoreRuns.anyWhere (activeRestore job) = false)
    (undisturbed : current.activatesRestore server outcome ≠ some job) :
    (effect.statement.execute server.now server.db).restoreRuns.anyWhere (activeRestore job) =
      false := by
  rw [idleRestores_iff] at idle ⊢
  intro id row found active same
  rcases Call.step_activatesRestore taken found active with ⟨old, before, was, job⟩ | activates
  · exact idle id old before was (job.trans same)
  · exact undisturbed (activates.trans same)

/-- What the call that has moved on has found holds. -/
theorem Server.Clear.moved (clear : server.Clear) (member : current ∈ server.calls)
    (taken : current.step settings server index outcome = some effect) {call : Call}
    (leaves : effect.Leaves call) :
    (∀ job, call.cleared = some job →
      (effect.statement.execute server.now server.db).jobRuns.anyWhere (activeRun job) = false) ∧
    ∀ job, call.inserting = some job →
      (effect.statement.execute server.now server.db).restoreRuns.anyWhere (activeRestore job) =
        false := by
  rcases Call.step_aside taken with aside | ⟨job, trigger, phase, rfl, moved⟩
  · rcases leaves with rfl | spawned
    · exact Call.holds_of_uncleared aside.next _ _
    · exact Call.holds_of_uncleared (aside.spawned call spawned) _ _
  · cases moved with
    | looks none =>
        rcases leaves with rfl | spawned
        · exact Call.holds_of_uncleared none _ _
        · cases spawned
    | noRun row info _ idle =>
        rcases leaves with rfl | spawned
        · refine ⟨?_, nofun⟩
          rintro other ⟨⟩
          exact idle
        · cases spawned
    | noRestore row info _ idle =>
        rcases leaves with rfl | spawned
        · refine ⟨?_, ?_⟩
          · rintro other ⟨⟩
            exact clear.runs _ member job rfl
          · rintro other ⟨⟩
            exact idle
        · cases spawned
    | insert row info text isLocal spawned others =>
        rcases leaves with rfl | spawned
        · exact Call.holds_of_uncleared rfl _ _
        · exact Call.holds_of_uncleared (others call spawned) _ _

theorem Server.Clear.step {action : Action} {next : Server} (clear : server.Clear)
    (undisturbed : StartsUndisturbed server action)
    (stepped : server.step settings action = some next) : next.Clear := by
  rcases Server.step_taken stepped with ⟨elapsed, -, rfl⟩ | ⟨entry, -, rfl⟩ |
    ⟨index, outcome, current, effect, rfl, present, taken, rfl⟩
  · exact ⟨clear.runs, clear.restores⟩
  · have none : (entry.call settings server.now).cleared = none := by
      cases entry with
      | failStaleQueuedRuns =>
          unfold Entry.call
          dsimp only
          split <;> rfl
      | _ => rfl
    have mine := Call.holds_of_uncleared none
      (fun job => server.db.jobRuns.anyWhere (activeRun job) = false)
      (fun job => server.db.restoreRuns.anyWhere (activeRestore job) = false)
    constructor
    · intro call member job cleared
      rcases List.mem_append.mp member with old | new
      · exact clear.runs call old job cleared
      · exact mine.1 job (List.mem_singleton.mp new ▸ cleared)
    · intro call member job inserts
      rcases List.mem_append.mp member with old | new
      · exact clear.restores call old job inserts
      · exact mine.2 job (List.mem_singleton.mp new ▸ inserts)
  · have moved : ∀ call, effect.Leaves call → _ := fun call leaves =>
      clear.moved (List.mem_of_getElem? present) taken leaves
    have others : ∀ call ∈ (server.after index effect).calls, effect.Leaves call ∨
        ∃ other, other ≠ index ∧ server.calls[other]? = some call := by
      intro call member
      obtain ⟨other, found⟩ := List.mem_iff_getElem?.mp member
      rcases Pool.getElem?_advance found with ⟨-, same⟩ | ⟨apart, kept⟩ | ⟨-, started⟩
      · exact .inl (.inl same)
      · exact .inr ⟨other, apart, kept⟩
      · exact .inl (.inr started)
    have aside : ∀ other call, other ≠ index → server.calls[other]? = some call →
        (∀ job ∈ call.cleared, current.activatesRun server outcome ≠ some job) ∧
          ∀ job ∈ call.inserting, current.activatesRestore server outcome ≠ some job :=
      fun other call apart kept =>
        undisturbed current present call (List.mem_eraseIdx_iff_getElem?.mpr ⟨other, apart, kept⟩)
    constructor
    · intro call member job cleared
      rcases others call member with leaves | ⟨other, apart, kept⟩
      · exact (moved call leaves).1 job cleared
      · exact idleRuns_after taken (clear.runs call (List.mem_of_getElem? kept) job cleared)
          ((aside other call apart kept).1 job cleared)
    · intro call member job inserts
      rcases others call member with leaves | ⟨other, apart, kept⟩
      · exact (moved call leaves).2 job inserts
      · exact idleRestores_after taken (clear.restores call (List.mem_of_getElem? kept) job inserts)
          ((aside other call apart kept).2 job inserts)

theorem clear_of_reachable (reached : (runningServer settings).Reachable StartsUndisturbed server) :
    server.Clear := by
  have invariant : (runningServer settings).Invariant StartsUndisturbed Server.Clear := by
    refine ⟨fun state fresh => ?_, fun state action next clear undisturbed stepped => ?_⟩
    · have calls := Server.Fresh.calls fresh
      exact ⟨by simp [calls], by simp [calls]⟩
    · exact clear.step undisturbed stepped
  exact invariant.holds reached

/-- The job has at most one active check. -/
def OneCheck (db : Db) : Prop :=
  ∀ first second row other, db.jobRuns.get? first = some row → db.jobRuns.get? second = some other →
    row.kind = .check → other.kind = .check → row.status.active = true →
    other.status.active = true → row.jobId = other.jobId → first = second

/-- An active check was one before, or its start has inserted it. -/
theorem Grounded.active_check (grounded : Grounded server) (member : current ∈ server.calls)
    (taken : current.step settings server index outcome = some effect) {id : Uuid} {row : JobRun}
    (found : (effect.statement.execute server.now server.db).jobRuns.get? id = some row)
    (check : row.kind = .check) (active : row.status.active = true) :
    (∃ old, server.db.jobRuns.get? id = some old ∧ old.kind = .check ∧ old.status.active = true ∧
        old.jobId = row.jobId) ∨
      id = freshId server.db.jobRuns ∧ current.cleared = some row.jobId := by
  rcases Statement.row_after found with ⟨inserts, fresh⟩ | ⟨old, before, same⟩
  · rcases Call.step_aside taken with aside | ⟨job, trigger, phase, rfl, moved⟩
    · exact absurd check (aside.inserts row (by rw [inserts]; rfl) active).2
    · cases moved with
      | insert checked info text isLocal spawned others =>
          cases inserts
          exact .inr ⟨fresh, rfl⟩
      | looks | noRun | noRestore => cases inserts
  · rcases same with ⟨stats, rfl⟩ | ⟨update, issues, hit, rfl⟩
    · exact .inl ⟨old, before, check, active, rfl⟩
    · have identity := update.set_identity server.now old
      have kind : old.kind = .check := identity.kind.symm.trans check
      cases was : old.status.active with
      | true => exact .inl ⟨old, before, kind, was, identity.jobId.symm⟩
      | false =>
          have final : old.status.final = true := by simp [RunStatus.final, was]
          rcases RunUpdate.set_final_of_final server.now hit final with still | opens
          · simp [RunStatus.final, active] at still
          · subst opens
            obtain ⟨context, rfl⟩ := (Call.step_move taken).update_source issues
            have known := (grounded.calls _ member).execution .backup id .waiting rfl
            have backup := (known.row before).1
            rw [kind] at backup
            cases backup

theorem oneCheck_of_reachable (reached : (runningServer settings).Reachable StartsUndisturbed server) :
    OneCheck server.db := by
  refine System.Invariant.onTopOf (fun state => Grounded state ∧ state.Clear)
    (fun state => OneCheck state.db)
    (fun state here => ⟨grounded_of_reachable here, clear_of_reachable here⟩) ?_ ?_ reached
  · intro state fresh first second row other found
    rw [Server.Fresh.jobRuns fresh] at found
    cases found
  · intro state action next ⟨grounded, clear⟩ _ one _ stepped
    rcases Server.step_taken stepped with ⟨elapsed, -, rfl⟩ | ⟨entry, -, rfl⟩ |
      ⟨index, outcome, current, effect, rfl, present, taken, rfl⟩
    · exact one
    · exact one
    · have member := List.mem_of_getElem? present
      intro first second row other found second_found check second_check active second_active same
      have alone := fun job (cleared : current.cleared = some job) =>
        idleRuns_iff.mp (clear.runs current member job cleared)
      rcases grounded.active_check member taken found check active with
        ⟨old, before, kind, was, job⟩ | ⟨fresh, cleared⟩ <;>
      rcases grounded.active_check member taken second_found second_check second_active with
        ⟨prior, earlier, second_kind, second_was, second_job⟩ | ⟨second_fresh, second_cleared⟩
      · exact one first second old prior before earlier kind second_kind was second_was
          (job.trans (same.trans second_job.symm))
      · exact absurd (job.trans same) (alone _ second_cleared first old before was)
      · exact absurd (second_job.trans same.symm) (alone _ cleared second prior earlier second_was)
      · exact fresh.trans second_fresh.symm

/-- **Checks start exclusively.** In every run in which no call makes a run or a restore of
a job active under the start of a check that has looked already, no backup, prune, check or
restore of the job is active when a check is inserted, and no two checks of a job are active
together. -/
theorem checks_start_exclusively
    (reached : (runningServer settings).Reachable StartsUndisturbed server) :
    (∀ job trigger row info, .startCheck job trigger (.insert row info) ∈ server.calls →
      server.db.jobRuns.anyWhere (activeRun job) = false ∧
        server.db.restoreRuns.anyWhere (activeRestore job) = false) ∧
    ∀ first second row other, server.db.jobRuns.get? first = some row →
      server.db.jobRuns.get? second = some other → row.kind = .check → other.kind = .check →
      row.status.active = true → other.status.active = true → row.jobId = other.jobId →
      first = second := by
  have clear := clear_of_reachable reached
  refine ⟨fun job trigger row info member => ?_, oneCheck_of_reachable reached⟩
  exact ⟨clear.runs _ member job rfl, clear.restores _ member job rfl⟩

end Steps

/-- Two starts of the nightly job's check look before either inserts. -/
def overlappingStarts : List Action :=
  [.begin (.startCheck (some root) 1 none), .begin (.startCheck (some root) 1 none),
    .returns 0, .returns 0, .returns 0, .returns 1, .returns 1, .returns 1, .returns 0, .returns 1]

/-- Both rows are running checks of one job. -/
def twoChecks (server : Server) : Bool :=
  [0, 1].all fun id => (server.db.jobRuns.get? id).any fun row =>
    row.kind = .check ∧ row.status = .running ∧ row.jobId = 1

theorem checks_overlap : ∃ server,
    (runningServer hourSettings).Reachable (fun _ _ => True) server ∧ twoChecks server = true := by
  have ends : ((runningServer hourSettings).runWithin (fun _ _ => True) (installation nightlyJob)
      overlappingStarts).any twoChecks = true := by decide +kernel
  obtain ⟨server, reached, test⟩ :=
    System.exists_reachable (fresh_installation hourSettings nightlyJob) ends
  exact ⟨server, reached, test⟩

/-- A start of the nightly job's check, up to the insertion. -/
def startInTurn : List Action :=
  [.begin (.startCheck (some root) 1 none), .returns 0, .returns 0, .returns 0]

theorem check_starts_alone : ∃ server : Server,
    (runningServer hourSettings).Reachable StartsUndisturbed server ∧
    (∃ trigger row info, .startCheck 1 trigger (.insert row info) ∈ server.calls) ∧
    server.db.jobRuns.anyWhere (activeRun 1) = false := by
  have ends : ((runningServer hourSettings).runWithin StartsUndisturbed (installation nightlyJob)
      startInTurn).any (fun server => server.calls.any fun call => call.inserting = some 1) =
        true := by decide +kernel
  obtain ⟨server, reached, test⟩ :=
    System.exists_reachable (fresh_installation hourSettings nightlyJob) ends
  obtain ⟨call, member, inserts⟩ := List.any_eq_true.mp test
  obtain ⟨trigger, row, info, rfl⟩ := Call.exists_of_inserting (of_decide_eq_true inserts)
  have alone := (checks_start_exclusively reached).1 1 trigger row info member
  exact ⟨server, reached, ⟨trigger, row, info, member⟩, alone.1⟩

end AmberBackup
