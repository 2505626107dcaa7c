import AmberBackup.Server.Moves

/-! # The moves are all there is

Each arm of each service's step function is one of the moves (`Call.step_move`), so a step
of the server lets time pass, starts a call, or takes a move of one call
(`Server.step_cases`).
-/

namespace AmberBackup

open Relational

section Complete

variable {settings : Settings} {server : Server} {index : Nat} {outcome : Outcome}
  {effect : Effect}

/-- A call without a duty that only moves on. -/
theorem Move.still {current next : Call} (was : current.Idle) (becomes : next.Idle) :
    Move settings server index current outcome { next } :=
  .idle was becomes (by simp) rfl (by simp) rfl

/-- A call without a duty that ends with a write that does not concern the runs. -/
theorem Move.writes {current next : Call} {statement : Statement} (was : current.Idle)
    (becomes : next.Idle) (passive : statement.passive = true) :
    Move settings server index current outcome { next, statement } :=
  .idle was becomes (by simp) passive (by simp) rfl

theorem RunnerPhase.step_move {phase : RunnerPhase}
    (stepped : phase.step settings server outcome = some effect) :
    Move settings server index (.runner phase) outcome effect := by
  unfold RunnerPhase.step at stepped
  split at stepped
  · split at stepped
    case isTrue accepted =>
      cases stepped
      exact .createRun _ _ _ accepted
    case isFalse =>
      cases stepped
      exact .still ⟨⟨rfl, rfl, rfl, rfl, rfl⟩, rfl⟩ Call.idle_done
  · cases stepped
    exact .dispatch _ _
  · cases stepped
    exact .startDueRetries _ _
  · cases stepped
    exact .still ⟨⟨rfl, rfl, rfl, rfl, rfl⟩, rfl⟩ Call.idle_done
  · cases stepped
    exact .dispatchDue _ _ _
  · cases stepped
    exact .sweep _ _ _ _ _ _
  · cases stepped
    exact .swept _ _ _
  · cases stepped

/-- A killed child does not end with a code that counts as a success. -/
theorem Server.not_killed_of_mayExit {deaf : Bool} {exit : ChildExit}
    (may : server.mayExit index deaf exit = true) (success : exit.code = 0 ∨ exit.code = 3) :
    server.killed index deaf = false := by
  unfold Server.mayExit at may
  cases killed : server.killed index deaf with
  | false => rfl
  | true =>
      rw [killed] at may
      rcases success with zero | three <;> simp_all

theorem BackupPhase.step_move {run : Uuid} {phase : BackupPhase}
    (stepped : phase.step server index run outcome = some effect) :
    Move settings server index (.backup run phase) outcome effect := by
  unfold BackupPhase.step at stepped
  split at stepped
  · -- load
    split at stepped
    · cases stepped
      exact .abandon _ _
    · cases stepped
      exact .advance rfl rfl (by simp)
  · cases stepped
    exact .register rfl rfl
  · cases stepped
    exact .openRun _ _ _
  · -- setup
    split at stepped
    · cases stepped
      exact .advance rfl rfl (by simp)
    · cases stepped
      exact .start rfl rfl
  · cases stepped
    exact .fails rfl (Or.inl rfl) rfl
  · -- child
    cases stepped
    exact .advance rfl rfl (by simp [Call.idle_writeStats])
  · cases stepped
    exact .fails rfl (Or.inr (Or.inl ⟨_, rfl⟩)) rfl
  · split at stepped
    case isFalse => cases stepped
    case isTrue may =>
      cases stepped
      split
      case isTrue success =>
        refine .exits _ rfl rfl (Or.inl ⟨rfl, fun killed => ?_⟩)
        rw [Server.not_killed_of_mayExit may success] at killed
        cases killed
      case isFalse => exact .exits _ rfl rfl (Or.inr rfl)
  · -- wrap-up
    cases stepped
    exact .advance rfl rfl (by simp)
  · cases stepped
    exact .fails rfl (Or.inr (Or.inr rfl)) rfl
  · cases stepped
    exact .advance rfl rfl (by simp)
  · cases stepped
    exact .advance rfl rfl (by simp)
  · cases stepped
    refine .recordSuccess rfl ?_ (Or.inl ⟨rfl, _, _, _, _, rfl⟩) (by simp [Call.idle_refreshStats])
    split <;> rfl
  · -- the prune
    cases stepped
    exact .pruneRow _ _ _
  · cases stepped
    exact .pruneRefused _ _ _
  · split at stepped
    · cases stepped
      exact .advance rfl rfl (by simp)
    · cases stepped
  · -- the catch block
    split at stepped
    case isTrue unaborted =>
      cases stepped
      refine .readFlag rfl ?_
      have flag : server.aborted index = false := by simp_all
      rw [flag]
      rfl
    case isFalse =>
      cases stepped
      exact .readFlag rfl rfl
  · cases stepped
    exact .advance rfl rfl (by simp)
  · cases stepped
    exact .advance rfl rfl (by simp)
  · cases stepped
    exact .recordFailure rfl (Or.inl rfl) rfl
  · cases stepped
    exact .finishBackup _ _
  · cases stepped

theorem PrunePhase.step_move {run repository : Uuid} {phase : PrunePhase}
    (stepped : phase.step server index run repository outcome = some effect) :
    Move settings server index (.prune run repository phase) outcome effect := by
  unfold PrunePhase.step at stepped
  split at stepped
  · cases stepped
    exact .register rfl rfl
  · cases stepped
    exact .start rfl rfl
  · cases stepped
    exact .fails rfl (Or.inl rfl) rfl
  · cases stepped
    exact .fails rfl (Or.inr (Or.inl ⟨_, rfl⟩)) rfl
  · split at stepped
    case isFalse => cases stepped
    case isTrue may =>
      cases stepped
      split
      case isTrue success =>
        refine .exits _ rfl rfl (Or.inl ⟨rfl, fun killed => ?_⟩)
        rw [Server.not_killed_of_mayExit may (Or.inl success)] at killed
        cases killed
      case isFalse => exact .exits _ rfl rfl (Or.inr rfl)
  · cases stepped
    exact .recordSuccess rfl rfl (Or.inr ⟨rfl, _, rfl⟩) (by simp [Call.idle_refreshStats])
  · cases stepped
    exact .readFlag rfl rfl
  · cases stepped
    exact .recordFailure rfl (Or.inr rfl) rfl
  · cases stepped
    exact .finish rfl (Or.inl rfl)
  · cases stepped

theorem RemovalPhase.step_move {job : Uuid} {reclaim : Bool} {phase : RemovalPhase}
    (stepped : phase.step server job reclaim outcome = some effect) :
    Move settings server index (.removeSnapshot job reclaim phase) outcome effect := by
  have idle : ∀ phase, Call.Idle (.removeSnapshot job reclaim phase) :=
    fun _ => ⟨⟨rfl, rfl, rfl, rfl, rfl⟩, rfl⟩
  unfold RemovalPhase.step at stepped
  split at stepped
  · split at stepped
    · cases stepped
      exact .still (idle _) Call.idle_done
    · split at stepped
      · cases stepped
        exact .still (idle _) (idle _)
      · cases stepped
        exact .still (idle _) Call.idle_done
  · cases stepped
    exact .still (idle _) (idle _)
  · split at stepped
    · cases stepped
      exact .still (idle _) (idle _)
    · cases stepped
      exact .still (idle _) Call.idle_done
  · cases stepped
    exact .insertPrune (idle _) _ _
  · cases stepped
    exact .still (idle _) Call.idle_done
  · cases stepped
    exact .still (idle _) Call.idle_done
  · cases stepped
    exact .still (idle _) Call.idle_done
  · cases stepped

theorem CheckStart.step_move {job : Uuid} {trigger : RunTrigger} {phase : CheckStart}
    (stepped : phase.step server job trigger outcome = some effect) :
    Move settings server index (.startCheck job trigger phase) outcome effect := by
  have idle : ∀ phase, Call.Idle (.startCheck job trigger phase) :=
    fun _ => ⟨⟨rfl, rfl, rfl, rfl, rfl⟩, rfl⟩
  unfold CheckStart.step at stepped
  split at stepped
  · split at stepped
    · cases stepped
      exact .still (idle _) Call.idle_done
    · split at stepped
      · cases stepped
        exact .still (idle _) (idle _)
      · cases stepped
        exact .still (idle _) Call.idle_done
  · split at stepped
    · cases stepped
      exact .still (idle _) Call.idle_done
    · cases stepped
      exact .still (idle _) (idle _)
  · split at stepped
    · cases stepped
      exact .still (idle _) Call.idle_done
    · cases stepped
      exact .still (idle _) (idle _)
  · split at stepped
    · cases stepped
      exact .still (idle _) Call.idle_done
    · cases stepped
      exact .still (idle _) (idle _)
  · cases stepped
    exact .insertCheck (idle _) _ _ _ _ _
  · cases stepped

theorem CheckPhase.step_move {run repository : Uuid} {info : CheckInfo} {phase : CheckPhase}
    (stepped : phase.step server index run repository info outcome = some effect) :
    Move settings server index (.check run repository info phase) outcome effect := by
  unfold CheckPhase.step at stepped
  split at stepped
  · cases stepped
    exact .register rfl rfl
  · cases stepped
    exact .advance rfl rfl (by simp)
  · cases stepped
    exact .start rfl rfl
  · cases stepped
    exact .fails rfl (Or.inl rfl) rfl
  · cases stepped
    exact .fails rfl (Or.inl rfl) rfl
  · cases stepped
    exact .fails rfl (Or.inr (Or.inl ⟨_, rfl⟩)) rfl
  · split at stepped
    case isFalse => cases stepped
    case isTrue may =>
      cases stepped
      split
      case isTrue success =>
        refine .exits _ rfl rfl (Or.inl ⟨rfl, fun killed => ?_⟩)
        rw [Server.not_killed_of_mayExit may (Or.inl success)] at killed
        cases killed
      case isFalse =>
        split
        case isTrue damaged => exact .exits _ rfl rfl (Or.inl ⟨rfl, fun _ => ⟨rfl, damaged⟩⟩)
        case isFalse => exact .exits _ rfl rfl (Or.inr rfl)
  · cases stepped
    refine .readFlag rfl ?_
    cases flag : server.aborted index <;> rfl
  · cases stepped
    refine .settle _ _ _ _ _ _ ?_
    split <;> rfl
  · cases stepped
    exact .patchRepository _ _ _ _ _
  · cases stepped
    exact .finish rfl (Or.inr rfl)
  · cases stepped

theorem FinalizePhase.step_move {run : Uuid} {phase : FinalizePhase}
    (stepped : phase.step server run outcome = some effect) :
    Move settings server index (.finalize run phase) outcome effect := by
  unfold FinalizePhase.step at stepped
  split at stepped
  · split at stepped
    case h_1 missing =>
      cases stepped
      refine .noRetry _ _ fun row job present owner => ?_
      rw [joined_of present owner] at missing
      cases missing
    case h_2 row job found =>
      obtain ⟨present, owner⟩ := of_joined found
      split at stepped
      case isTrue allowed =>
        cases stepped
        exact .retryDue _ row job _ present owner allowed
      case isFalse refused =>
        cases stepped
        refine .noRetry _ _ fun other holder here owns => ?_
        rw [joined_of here owns] at found
        cases found
        simpa using refused
  · split at stepped
    case isTrue active =>
      cases stepped
      exact .retryRedundant _ _ _ active
    case isFalse inactive =>
      cases stepped
      exact .retryClear _ _ _ _ (by simpa using inactive)
  · cases stepped
    exact .retryInsert _ _ _ _
  · cases stepped

theorem NotifyPhase.step_move {run : Uuid} {phase : NotifyPhase}
    (stepped : phase.step server run outcome = some effect) :
    Move settings server index (.notifyJobRun run phase) outcome effect := by
  unfold NotifyPhase.step at stepped
  split at stepped
  · split at stepped
    case h_1 missing =>
      cases stepped
      refine .notifyNone _ _ fun row job present owner => ?_
      rw [joined_of present owner] at missing
      cases missing
    case h_2 row job found =>
      obtain ⟨present, owner⟩ := of_joined found
      split at stepped
      case isTrue wants =>
        cases stepped
        simp only [Bool.and_eq_true] at wants
        exact .notifyRead _ row job _ present owner wants.1
      case isFalse unwanted =>
        cases stepped
        refine .notifyNone _ _ fun other holder here owns => ?_
        rw [joined_of here owns] at found
        cases found
        by_cases wants : wanted job.notify row.status = true
        · exact Or.inr (by simpa [wants] using unwanted)
        · exact Or.inl (by simpa using wants)
  · cases stepped
    exact .notify _ _ _ _
  · cases stepped

theorem CancelPhase.step_move {run : Uuid} {phase : CancelPhase}
    (stepped : phase.step server run outcome = some effect) :
    Move settings server index (.cancelRun run phase) outcome effect := by
  have idle : ∀ phase, Call.Idle (.cancelRun run phase) := fun _ => ⟨⟨rfl, rfl, rfl, rfl, rfl⟩, rfl⟩
  unfold CancelPhase.step at stepped
  split at stepped
  · split at stepped
    · cases stepped
      exact .still (idle _) Call.idle_done
    · split at stepped
      · cases stepped
        exact .still (idle _) (idle _)
      · cases stepped
        exact .still (idle _) Call.idle_done
  · split at stepped
    case h_1 known =>
      cases stepped
      exact .cancelProbe _ _ _ _ known
    case h_2 =>
      cases stepped
      exact .still (idle _) (idle _)
  · cases stepped
    exact .cancelWrite _ _ _
  · cases stepped

theorem PollPhase.step_move {agent : Uuid} {dto : PollDto} {phase : PollPhase}
    (stepped : phase.step server agent dto outcome = some effect) :
    Move settings server index (.poll agent dto phase) outcome effect := by
  have idle : ∀ phase, Call.Idle (.poll agent dto phase) := fun _ => ⟨⟨rfl, rfl, rfl, rfl, rfl⟩, rfl⟩
  unfold PollPhase.step at stepped
  split at stepped
  · cases stepped
    exact .writes (idle _) (idle _) rfl
  · cases stepped
    exact .still (idle _) (idle _)
  · cases stepped
    exact .still (idle _) (idle _)
  · cases stepped
    exact .claim (idle _) (idle _) _ _
  · cases stepped
    exact .claim (idle _) (idle _) _ _
  · cases stepped
    refine .idle (idle _) (idle _) (fun _ member => absurd member List.not_mem_nil) rfl ?_ rfl
    unfold claimRestoreEffect
    dsimp only
    split <;> simp [Event.passive]
  · cases stepped
    exact .still (idle _) (idle _)
  · cases stepped
    exact .still (idle _) Call.idle_done
  · dsimp only at stepped
    split at stepped
    · cases stepped
      exact .writes (idle _) (idle _) rfl
    · cases stepped
      refine .idle (idle _) Call.idle_done ?_ rfl (by simp) rfl
      intro call member
      obtain ⟨repository, -, same⟩ := List.mem_map.mp member
      exact same ▸ Call.idle_refreshStats repository
  · cases stepped
    exact .still (idle _) Call.idle_done
  · cases stepped
    exact .still (idle _) (idle _)
  · cases stepped
    exact .still (idle _) Call.idle_done
  · cases stepped

theorem of_filter_agent {table : Table Uuid JobRun} {agent task : Uuid} {row : JobRun}
    (found : ((table.get? task).filter fun run => run.agentId = some agent) = some row) :
    table.get? task = some row ∧ row.agentId = some agent := by
  obtain ⟨present, handed⟩ := Option.filter_eq_some_iff.mp found
  exact ⟨present, by simpa using handed⟩

theorem of_taskCheck {db : Db} {agent task repository : Uuid} {info : CheckInfo}
    (found : taskCheck db agent task = some (info, repository)) :
    ∃ row, db.jobRuns.get? task = some row ∧ row.agentId = some agent ∧ row.kind = .check := by
  unfold taskCheck at found
  obtain ⟨⟨row, job⟩, task, chosen⟩ := Option.bind_eq_some_iff.mp found
  obtain ⟨present, handed⟩ := of_filter_agent (of_joined task).1
  refine ⟨row, present, handed, ?_⟩
  by_contra other
  simp [other] at chosen

theorem ResultPhase.step_move {agent task : Uuid} {result : TaskResult} {phase : ResultPhase}
    (stepped : phase.step server agent task result outcome = some effect) :
    Move settings server index (.submitResult agent task result phase) outcome effect := by
  unfold ResultPhase.step at stepped
  split at stepped
  · cases stepped
    exact .writes ⟨⟨rfl, rfl, rfl, rfl, rfl⟩, rfl⟩ ⟨⟨rfl, rfl, rfl, rfl, rfl⟩, rfl⟩ rfl
  · split at stepped
    · cases stepped
      refine .still ⟨⟨rfl, rfl, rfl, rfl, rfl⟩, rfl⟩ ?_
      split <;> exact ⟨⟨rfl, rfl, rfl, rfl, rfl⟩, rfl⟩
    · cases stepped
      exact .still ⟨⟨rfl, rfl, rfl, rfl, rfl⟩, rfl⟩ ⟨⟨rfl, rfl, rfl, rfl, rfl⟩, rfl⟩
  · -- the run of the result
    split at stepped
    case h_1 =>
      cases stepped
      exact .still ⟨⟨rfl, rfl, rfl, rfl, rfl⟩, rfl⟩ Call.idle_done
    case h_2 run job found =>
      obtain ⟨present, handed⟩ := of_filter_agent (of_joined found).1
      cases stepped
      refine .reportRead agent task result _ _ run ⟨⟨rfl, rfl, rfl, rfl, rfl⟩, rfl⟩ present handed ?_
      split
      case isTrue => exact Or.inl rfl
      case isFalse other => exact Or.inr (Or.inr (Or.inl ⟨_, _, _, rfl, other⟩))
  · cases stepped
    exact .reportCancelled _ _ _ _ _ (Or.inl rfl)
  · cases stepped
    exact .reportRun _ _ _ _ _ _ _
  · dsimp only at stepped
    split at stepped
    · split at stepped
      case isTrue =>
        cases stepped
        refine .reportStats _ _ _ _ _ _ _ _ _ rfl (by simp) ?_
        split
        · exact Or.inl rfl
        · exact Or.inr (Or.inl rfl)
      case isFalse missing =>
        cases stepped
        exact .reportStats _ _ _ _ _ _ _ _ _ rfl (by simp)
          (Or.inr (Or.inr ⟨rfl, by simpa using missing⟩))
    · cases stepped
      refine .reportStats _ _ _ _ _ _ _ _ _ rfl ?_ ?_
      · split <;> simp [Call.idle_refreshStats]
      · split
        · exact Or.inl rfl
        · exact Or.inr (Or.inl rfl)
  · split at stepped
    · cases stepped
    · cases stepped
      refine .reportPrune _ _ _ _ _ _ _ _ _ ?_
      split <;> simp [Call.idle_refreshStats]
  · cases stepped
    exact .reportFinalize _ _ _ _
  · -- the check of the result
    split at stepped
    case h_1 =>
      cases stepped
      exact .still ⟨⟨rfl, rfl, rfl, rfl, rfl⟩, rfl⟩ Call.idle_done
    case h_2 info repository found =>
      obtain ⟨row, present, handed, kind⟩ := of_taskCheck found
      cases stepped
      refine .reportRead agent task result _ _ row ⟨⟨rfl, rfl, rfl, rfl, rfl⟩, rfl⟩ present handed ?_
      split
      case isTrue => exact Or.inr (Or.inl rfl)
      case isFalse other => exact Or.inr (Or.inr (Or.inr ⟨_, _, rfl, other, kind⟩))
  · cases stepped
    exact .reportCancelled _ _ _ _ _ (Or.inr rfl)
  · cases stepped
    refine .reportSettle _ _ _ _ _ _ ?_
    split
    · exact Or.inr rfl
    · exact Or.inl rfl
  · cases stepped
    exact .reportPatch _ _ _ _ _ _
  · split at stepped
    · cases stepped
      exact .still ⟨⟨rfl, rfl, rfl, rfl, rfl⟩, rfl⟩ Call.idle_done
    · cases stepped
      refine .still ⟨⟨rfl, rfl, rfl, rfl, rfl⟩, rfl⟩ ?_
      split <;> exact ⟨⟨rfl, rfl, rfl, rfl, rfl⟩, rfl⟩
  · cases stepped
    exact .writes ⟨⟨rfl, rfl, rfl, rfl, rfl⟩, rfl⟩ Call.idle_done rfl
  · cases stepped
    exact .writes ⟨⟨rfl, rfl, rfl, rfl, rfl⟩, rfl⟩ Call.idle_done rfl
  · cases stepped

theorem ProgressPhase.step_move {agent task : Uuid} {stats : String} {phase : ProgressPhase}
    (stepped : phase.step server agent task stats outcome = some effect) :
    Move settings server index (.submitProgress agent task stats phase) outcome effect := by
  have idle : ∀ phase, Call.Idle (.submitProgress agent task stats phase) :=
    fun _ => ⟨⟨rfl, rfl, rfl, rfl, rfl⟩, rfl⟩
  unfold ProgressPhase.step at stepped
  split at stepped
  · cases stepped
    exact .writes (idle _) (idle _) rfl
  · split at stepped
    · cases stepped
      exact .still (idle _) (idle _)
    · cases stepped
      exact .still (idle _) (idle _)
  · cases stepped
    exact .writes (idle _) Call.idle_done rfl
  · cases stepped
    exact .writes (idle _) Call.idle_done rfl
  · cases stepped

/-- A call of a restore. -/
theorem Call.idle_restore (id : Uuid) (phase : RestorePhase) : Call.Idle (.restore id phase) :=
  ⟨⟨rfl, rfl, rfl, rfl, rfl⟩, rfl⟩

theorem RestorePhase.step_move {id : Uuid} {phase : RestorePhase}
    (stepped : phase.step settings server index id outcome = some effect) :
    Move settings server index (.restore id phase) outcome effect := by
  have idle := Call.idle_restore id
  unfold RestorePhase.step at stepped
  split at stepped
  · split at stepped
    · cases stepped
      exact .still (idle _) Call.idle_done
    · cases stepped
      exact .still (idle _) (idle _)
  · cases stepped
    exact .idle (idle _) (idle _) (by simp) rfl (by simp) rfl
  · cases stepped
    exact .writes (idle _) (idle _) rfl
  · cases stepped
    exact .still (idle _) (idle _)
  · split at stepped
    · cases stepped
      exact .still (idle _) (idle _)
    · cases stepped
      exact .still (idle _) (idle _)
  · cases stepped
    exact .idle (idle _) (idle _) (by simp) rfl (by simp [Event.passive]) rfl
  · cases stepped
    refine .idle (idle _) (idle _) ?_ rfl (by simp) rfl
    intro call member
    cases List.mem_singleton.mp member
    exact ⟨⟨rfl, rfl, rfl, rfl, rfl⟩, rfl⟩
  · split at stepped
    · cases stepped
      exact .still (idle _) (idle _)
    · cases stepped
  · cases stepped
    exact .still (idle _) (idle _)
  · cases stepped
    exact .still (idle _) (idle _)
  · cases stepped
    exact .still (idle _) (idle _)
  · cases stepped
    exact .still (idle _) (idle _)
  · cases stepped
    exact .still (idle _) (idle _)
  · cases stepped
    exact .still (idle _) (idle _)
  · cases stepped
    exact .writes (idle _) (idle _) rfl
  · cases stepped
    exact .still (idle _) (idle _)
  · cases stepped
    exact .writes (idle _) (idle _) rfl
  · cases stepped
    exact .idle (idle _) Call.idle_done (by simp) rfl (by simp) rfl
  · cases stepped

theorem CancelPhase.restoreStep_move {id : Uuid} {phase : CancelPhase}
    (stepped : phase.restoreStep server id outcome = some effect) :
    Move settings server index (.cancelRestore id phase) outcome effect := by
  have idle : ∀ phase, Call.Idle (.cancelRestore id phase) := fun _ => ⟨⟨rfl, rfl, rfl, rfl, rfl⟩, rfl⟩
  unfold CancelPhase.restoreStep at stepped
  split at stepped
  · split at stepped
    · cases stepped
      exact .still (idle _) Call.idle_done
    · split at stepped
      · cases stepped
        exact .still (idle _) (idle _)
      · cases stepped
        exact .still (idle _) Call.idle_done
  · split at stepped
    · cases stepped
      exact .idle (idle _) Call.idle_done (by simp) rfl (by simp) rfl
    · cases stepped
      exact .still (idle _) (idle _)
  · cases stepped
    exact .writes (idle _) Call.idle_done rfl
  · cases stepped

theorem createRestoreEffect_move (user : RequestUser) (dto : CreateRestoreDto) :
    Move settings server index (.createRestore user dto) outcome
      (createRestoreEffect server user dto) := by
  unfold createRestoreEffect
  split
  · exact .still ⟨⟨rfl, rfl, rfl, rfl, rfl⟩, rfl⟩ Call.idle_done
  · split
    · exact .idle ⟨⟨rfl, rfl, rfl, rfl, rfl⟩, rfl⟩ ⟨⟨rfl, rfl, rfl, rfl, rfl⟩, rfl⟩ (by simp) rfl
        (by simp [Event.passive]) rfl
    · exact .still ⟨⟨rfl, rfl, rfl, rfl, rfl⟩, rfl⟩ Call.idle_done

theorem dispatchedRestore_idle (db : Db) (id : Uuid) :
    ∀ call ∈ dispatchedRestore db id, call.Idle := by
  intro call member
  unfold dispatchedRestore at member
  split at member
  · cases member
  · split at member
    · cases member
    · rw [List.mem_singleton.mp member]
      exact Call.idle_restore id _

/-- Every step of every call is one of the moves. -/
theorem Call.step_move {current : Call}
    (stepped : current.step settings server index outcome = some effect) :
    Move settings server index current outcome effect := by
  cases current with
  | runner phase => exact RunnerPhase.step_move stepped
  | backup run phase => exact BackupPhase.step_move stepped
  | prune run repository phase => exact PrunePhase.step_move stepped
  | startCheck job trigger phase => exact CheckStart.step_move stepped
  | check run repository info phase => exact CheckPhase.step_move stepped
  | removeSnapshot job reclaim phase => exact RemovalPhase.step_move stepped
  | finalize run phase => exact FinalizePhase.step_move stepped
  | notifyJobRun run phase => exact NotifyPhase.step_move stepped
  | cancelRun run phase => exact CancelPhase.step_move stepped
  | poll agent dto phase => exact PollPhase.step_move stepped
  | submitResult agent task result phase => exact ResultPhase.step_move stepped
  | submitProgress agent task stats phase => exact ProgressPhase.step_move stepped
  | writeStats run stats =>
      cases stepped
      exact .writes (Call.idle_writeStats run stats) Call.idle_done rfl
  | refreshStats repository =>
      cases outcome with
      | measures reading =>
          cases stepped
          exact .writes (Call.idle_refreshStats repository) Call.idle_done rfl
      | returns | throws | exits | reports => cases stepped
  | updateJob user job patch =>
      simp only [Call.step] at stepped
      split at stepped
      case isTrue accepted =>
        cases stepped
        exact .updateJob _ _ _ _ accepted
      case isFalse =>
        cases stepped
        exact .still ⟨⟨rfl, rfl, rfl, rfl, rfl⟩, rfl⟩ Call.idle_done
  | createRestore user dto =>
      cases stepped
      exact createRestoreEffect_move user dto
  | dispatchRestore id =>
      cases stepped
      exact .idle ⟨⟨rfl, rfl, rfl, rfl, rfl⟩, rfl⟩ Call.idle_done (dispatchedRestore_idle _ _) rfl
        (by simp) rfl
  | restore id phase => exact RestorePhase.step_move stepped
  | cancelRestore id phase => exact CancelPhase.restoreStep_move stepped
  | writeRestoreStats id stats =>
      cases stepped
      exact .writes ⟨⟨rfl, rfl, rfl, rfl, rfl⟩, rfl⟩ Call.idle_done rfl
  | done => cases stepped

end Complete

/-- Requests, timers and agents start calls without a duty. -/
theorem Entry.call_unbound (settings : Settings) (now : Nat) (entry : Entry) :
    (entry.call settings now).Unbound := by
  cases entry with
  | failStaleQueuedRuns =>
      by_cases off : settings.runQueueTimeoutSeconds = 0
      · simpa only [Entry.call, off, ↓reduceIte] using Call.idle_done.toUnbound
      · simp only [Entry.call, off, ↓reduceIte]
        exact ⟨rfl, rfl, rfl, rfl, rfl⟩
  | _ => exact ⟨rfl, rfl, rfl, rfl, rfl⟩

/-- A step of the server lets time pass, starts a call, or takes a step of one call. -/
theorem Server.step_taken {settings : Settings} {server next : Server} {action : Action}
    (stepped : server.step settings action = some next) :
    (∃ elapsed, action = .tick elapsed ∧ next = { server with now := server.now + elapsed }) ∨
      (∃ entry, action = .begin entry ∧
        next = { server with calls := server.calls ++ [entry.call settings server.now] }) ∨
      ∃ index outcome current effect, action = .resume index outcome ∧
        server.calls[index]? = some current ∧
        current.step settings server index outcome = some effect ∧
        next = server.after index effect := by
  cases action with
  | tick elapsed =>
      cases stepped
      exact Or.inl ⟨elapsed, rfl, rfl⟩
  | begin entry =>
      cases stepped
      exact Or.inr (Or.inl ⟨entry, rfl, rfl⟩)
  | resume index outcome =>
      obtain ⟨current, present, moved⟩ := Option.bind_eq_some_iff.mp stepped
      obtain ⟨effect, taken, same⟩ := Option.map_eq_some_iff.mp moved
      exact Or.inr (Or.inr ⟨index, outcome, current, effect, rfl, present, taken, same.symm⟩)

/-- The same, with the step of the call as one of the moves. -/
theorem Server.step_cases {settings : Settings} {server next : Server} {action : Action}
    (stepped : server.step settings action = some next) :
    (∃ elapsed, action = .tick elapsed ∧ next = { server with now := server.now + elapsed }) ∨
      (∃ entry, action = .begin entry ∧
        next = { server with calls := server.calls ++ [entry.call settings server.now] }) ∨
      ∃ index outcome current effect, action = .resume index outcome ∧
        server.calls[index]? = some current ∧
        Move settings server index current outcome effect ∧ next = server.after index effect := by
  rcases Server.step_taken stepped with ticked | began |
    ⟨index, outcome, current, effect, resumes, present, taken, same⟩
  · exact Or.inl ticked
  · exact Or.inr (Or.inl began)
  · exact Or.inr (Or.inr ⟨index, outcome, current, effect, resumes, present,
      Call.step_move taken, same⟩)

end AmberBackup
