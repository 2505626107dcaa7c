import AmberBackup.Server.FinalStates
import AmberBackup.Server.RestoreGuard

/-! # Who executes a restore

A restore that names an agent is claimed by that agent and is not executed on the server, and
only the agent it names records a result of it (`restoreOwners_of_reachable`). The agent of a
restore is settled when it is created.
-/

namespace AmberBackup

open Relational Transition Pool

section Step

variable {settings : Settings} {server : Server} {index : Nat} {current : Call}
  {outcome : Outcome} {effect : Effect} {id : Uuid}

/-- The agent and the restore whose result a call is about to record. -/
def Call.reportsRestore : Call → Option (Uuid × Uuid)
  | .submitResult agent task _ .recordRestore | .submitResult agent task _ .cancelledRestore =>
      some (agent, task)
  | _ => none

/-- A step that leaves no call about to record the result of a restore. -/
structure Effect.SparesReports (effect : Effect) : Prop where
  next : effect.next.reportsRestore = none
  spawned : ∀ call ∈ effect.spawned, call.reportsRestore = none

theorem dispatched_reports (db : Db) (run : Uuid) :
    ∀ call ∈ dispatched db run, call.reportsRestore = none := by
  intro call member
  rcases dispatched_cases db run with none | one
  · simp [none] at member
  · rw [one, List.mem_singleton] at member
    rw [member]
    rfl

theorem dispatchedRestore_reports (db : Db) (id : Uuid) :
    ∀ call ∈ dispatchedRestore db id, call.reportsRestore = none := by
  intro call member
  rcases dispatchedRestore_cases db id with none | one
  · simp [none] at member
  · rw [one, List.mem_singleton] at member
    rw [member]
    rfl

/-- A call comes to record the result of a restore by reading that its agent was handed it. -/
theorem Call.step_reports (taken : current.step settings server index outcome = some effect) :
    effect.SparesReports ∨ ∃ agent task result phase,
      effect.next = .submitResult agent task result phase ∧ effect.spawned = [] ∧
      KnownRestore server.db task fun row => row.agentId = some agent := by
  cases current with
  | runner phase =>
      change phase.step settings server outcome = some effect at taken
      unfold RunnerPhase.step at taken
      repeat' split at taken
      all_goals cases taken
      all_goals refine Or.inl ⟨rfl, ?_⟩
      all_goals simp [reportsRestore]
      all_goals exact dispatched_reports _ _
  | backup run phase =>
      change phase.step server index run outcome = some effect at taken
      unfold BackupPhase.step at taken
      repeat' split at taken
      all_goals cases taken
      all_goals exact Or.inl ⟨rfl, by simp [reportsRestore]⟩
  | prune run repository phase =>
      change phase.step server index run repository outcome = some effect at taken
      unfold PrunePhase.step at taken
      repeat' split at taken
      all_goals cases taken
      all_goals exact Or.inl ⟨rfl, by simp [reportsRestore]⟩
  | startCheck job trigger phase =>
      change phase.step server job trigger outcome = some effect at taken
      unfold CheckStart.step at taken
      repeat' split at taken
      all_goals cases taken
      all_goals exact Or.inl ⟨rfl, by simp [reportsRestore]⟩
  | check run repository info phase =>
      change phase.step server index run repository info outcome = some effect at taken
      unfold CheckPhase.step at taken
      repeat' split at taken
      all_goals cases taken
      all_goals exact Or.inl ⟨rfl, by simp [reportsRestore]⟩
  | removeSnapshot job reclaim phase =>
      change phase.step server job reclaim outcome = some effect at taken
      unfold RemovalPhase.step at taken
      repeat' split at taken
      all_goals cases taken
      all_goals exact Or.inl ⟨rfl, by simp [reportsRestore]⟩
  | finalize run phase =>
      change phase.step server run outcome = some effect at taken
      unfold FinalizePhase.step at taken
      repeat' split at taken
      all_goals cases taken
      all_goals exact Or.inl ⟨rfl, by simp [reportsRestore]⟩
  | notifyJobRun run phase =>
      change phase.step server run outcome = some effect at taken
      unfold NotifyPhase.step at taken
      repeat' split at taken
      all_goals cases taken
      all_goals exact Or.inl ⟨rfl, by simp [reportsRestore]⟩
  | cancelRun run phase =>
      change phase.step server run outcome = some effect at taken
      unfold CancelPhase.step at taken
      repeat' split at taken
      all_goals cases taken
      all_goals exact Or.inl ⟨rfl, by simp [reportsRestore]⟩
  | cancelRestore id phase =>
      change phase.restoreStep server id outcome = some effect at taken
      unfold CancelPhase.restoreStep at taken
      repeat' split at taken
      all_goals cases taken
      all_goals exact Or.inl ⟨rfl, by simp [reportsRestore]⟩
  | submitProgress agent task stats phase =>
      change phase.step server agent task stats outcome = some effect at taken
      unfold ProgressPhase.step at taken
      repeat' split at taken
      all_goals cases taken
      all_goals exact Or.inl ⟨rfl, by simp [reportsRestore]⟩
  | restore id phase =>
      change phase.step settings server index id outcome = some effect at taken
      unfold RestorePhase.step at taken
      repeat' split at taken
      all_goals cases taken
      all_goals exact Or.inl ⟨rfl, by simp [reportsRestore]⟩
  | poll agent dto phase =>
      change phase.step server agent dto outcome = some effect at taken
      unfold PollPhase.step at taken
      repeat' split at taken
      all_goals cases taken
      all_goals refine Or.inl ⟨rfl, ?_⟩
      all_goals simp [claimRunEffect, claimRestoreEffect]
      · intro call id ref listed same
        rw [← same]
        rfl
  | submitResult agent task result phase =>
      cases outcome with
      | «returns» text =>
          cases phase with
          | readRestore =>
              change ResultPhase.step server agent task result .readRestore (.returns text) =
                some effect at taken
              simp only [ResultPhase.step] at taken
              split at taken
              case h_1 =>
                cases taken
                exact Or.inl ⟨rfl, by simp⟩
              case h_2 run handed =>
                cases taken
                obtain ⟨found, own⟩ := Option.filter_eq_some_iff.mp handed
                exact Or.inr ⟨agent, task, result, _, rfl, rfl, run, found, of_decide_eq_true own⟩
          | _ =>
              simp only [Call.step, ResultPhase.step] at taken
              repeat' split at taken
              all_goals cases taken
              all_goals refine Or.inl ⟨?_, ?_⟩
              all_goals simp [reportsRestore]
      | throws | exits | reports | measures => cases phase <;> cases taken
  | writeStats | writeRestoreStats =>
      cases taken
      exact Or.inl ⟨rfl, by simp⟩
  | refreshStats repository =>
      cases outcome with
      | measures reading =>
          cases taken
          exact Or.inl ⟨rfl, by simp⟩
      | «returns» | throws | exits | reports => cases taken
  | updateJob user job patch =>
      simp only [Call.step] at taken
      split at taken <;> cases taken <;> exact Or.inl ⟨rfl, by simp⟩
  | createRestore user dto =>
      cases taken
      unfold createRestoreEffect
      repeat' split
      all_goals exact Or.inl ⟨rfl, by simp⟩
  | dispatchRestore id =>
      cases taken
      exact Or.inl ⟨rfl, dispatchedRestore_reports _ _⟩
  | done => cases taken

theorem Call.reports_from (taken : current.step settings server index outcome = some effect)
    {call : Call} (leaves : effect.Leaves call) {agent task : Uuid}
    (reports : call.reportsRestore = some (agent, task)) :
    KnownRestore server.db task fun row => row.agentId = some agent := by
  rcases Call.step_reports taken with spares | ⟨agent', task', result, phase, next, spawned, handed⟩
  · rcases leaves with same | started
    · rw [same, spares.next] at reports
      cases reports
    · rw [spares.spawned call started] at reports
      cases reports
  · rcases leaves with same | started
    · rw [same, next] at reports
      cases phase <;> cases reports <;> exact handed
    · rw [spawned] at started
      cases started

/-- A restore is executed by the agent it was created for, or else by the server. -/
structure RestoreOwners (server : Server) : Prop where
  dispatching : ∀ id, .dispatchRestore id ∈ server.calls →
    KnownRestore server.db id fun row => row.destination.agentId = row.agentId
  executing : ∀ id phase, .restore id phase ∈ server.calls →
    KnownRestore server.db id fun row => row.agentId = none
  reporting : ∀ call ∈ server.calls, ∀ agent task, call.reportsRestore = some (agent, task) →
    KnownRestore server.db task fun row => row.agentId = some agent

/-- The destination of a restore changes with its success on the server only. -/
theorem RestoreUpdate.set_destination {now : Nat} {update : RestoreUpdate} {row : RestoreRun}
    (hit : update.hits id row = true) :
    (update.set now row).destination = row.destination ∨
      ∃ stats destination expires log, update = .succeedLocal id stats destination expires log := by
  cases update with
  | succeedLocal other stats destination expires log =>
      simp only [RestoreUpdate.hits, decide_eq_true_eq] at hit
      exact Or.inr ⟨stats, destination, expires, log, by rw [hit]⟩
  | _ => exact Or.inl rfl

/-- A step of a call that does not execute the restore leaves its agent and that of its
destination. -/
theorem RestoreMove.destination_kept (move : RestoreMove settings server index current effect)
    (elsewhere : current.holdsRestore id ≠ true) (fact : Option Uuid → Option Uuid → Prop)
    (known : KnownRestore server.db id fun row => fact row.destination.agentId row.agentId) :
    KnownRestore (server.after index effect).db id fun row =>
      fact row.destination.agentId row.agentId := by
  obtain ⟨row, found, holds⟩ := known
  obtain ⟨after, later, same⟩ := effect.statement.restore_kept server.now found
  refine ⟨after, later, ?_⟩
  rcases Statement.restore_after later with ⟨-, fresh⟩ | ⟨old, before, kept⟩
  · rw [fresh, get?_freshId] at found
    cases found
  · rw [found] at before
    cases before
    rw [same.agentId]
    rcases kept with equal | ⟨update, issues, hit, equal⟩
    · rw [equal]
      exact holds
    · rcases @RestoreUpdate.set_destination id server.now update row hit with stays |
        ⟨_, _, _, _, succeeds⟩
      · rw [equal, stays]
        exact holds
      · subst succeeds
        exact absurd (move.update_source issues).1 elsewhere

theorem createdRestore_agent (user : RequestUser) (dto : CreateRestoreDto)
    (repository : Repository) (now : Nat) :
    (createdRestore user dto repository now).destination.agentId =
      (createdRestore user dto repository now).agentId := by
  unfold createdRestore
  cases dto.destination with
  | none => rfl
  | some destination => rfl

/-- Only the creation of a restore dispatches it. -/
theorem RestoreMove.dispatches (move : RestoreMove settings server index current effect)
    (leaves : effect.Leaves (.dispatchRestore id)) :
    id = freshId server.db.restoreRuns ∧ ∃ user dto repository,
      effect.statement = .insertRestore (createdRestore user dto repository server.now) := by
  cases move with
  | elsewhere was spares =>
      rcases leaves with same | started
      · have none := spares.next
        rw [← same] at none
        cases none
      · cases (spares.spawned _ started).restoring
  | poll agent dto before after next claiming spawned =>
      rcases leaves with same | started
      · rw [next] at same
        cases same
      · rw [spawned] at started
        cases started
  | create user dto repository =>
      rcases leaves with same | started
      · cases same
        exact ⟨rfl, user, dto, repository, rfl⟩
      · cases started
  | dispatch other =>
      rcases leaves with same | started
      · cases same
      · rcases dispatchedRestore_cases server.db other with none | one
        · simp [none] at started
        · simp [one] at started
  | advance other was becomes loaded target others =>
      rcases leaves with same | started
      · cases same
      · cases (others _ started).restoring
  | _ =>
      rcases leaves with same | started
      · cases same
      · cases started

/-- An execution goes on, or is dispatched for a restore without an agent. -/
theorem RestoreMove.executes (move : RestoreMove settings server index current effect)
    {phase : RestorePhase} (leaves : effect.Leaves (.restore id phase)) :
    (∃ before, current = .restore id before) ∨
      (current = .dispatchRestore id ∧
        KnownRestore server.db id fun row => row.destination.agentId = none) := by
  cases move with
  | elsewhere was spares =>
      rcases leaves with same | started
      · have none := spares.next
        rw [← same] at none
        cases none
      · cases (spares.spawned _ started).restoring
  | poll agent dto before after next claiming spawned =>
      rcases leaves with same | started
      · rw [next] at same
        cases same
      · rw [spawned] at started
        cases started
  | dispatch other =>
      rcases leaves with same | started
      · cases same
      · right
        unfold dispatchedRestore at started
        dsimp only at started
        split at started
        · cases started
        · next run found =>
            split at started
            · cases started
            · next unowned =>
                cases List.mem_singleton.mp started
                exact ⟨rfl, run, found, by simpa using unowned⟩
  | advance other was becomes loaded target others =>
      rcases leaves with same | started
      · cases same
        exact Or.inl ⟨_, rfl⟩
      · cases (others _ started).restoring
  | load | register | openRun | start | record =>
      rcases leaves with same | started
      · cases same
        exact Or.inl ⟨_, rfl⟩
      · cases started
  | _ =>
      rcases leaves with same | started
      · cases same
      · cases started

theorem RestoreOwners.after {allowed : Server → Action → Prop} (owners : RestoreOwners server)
    (reached : (runningServer settings).Reachable allowed server)
    (present : server.calls[index]? = some current)
    (taken : current.step settings server index outcome = some effect) :
    RestoreOwners (server.after index effect) := by
  have member := List.mem_of_getElem? present
  have move : RestoreMove settings server index current effect := Call.step_restoreMove taken
  have later {task : Uuid} {agent : Option Uuid}
      (known : KnownRestore server.db task fun row => row.agentId = agent) :
      KnownRestore (server.after index effect).db task fun row => row.agentId = agent :=
    known.later (fun _ _ same handed => same.agentId.trans handed) effect.statement server.now
  refine ⟨?_, ?_, ?_⟩
  · intro id listed
    have fromEffect : effect.Leaves (.dispatchRestore id) →
        KnownRestore (server.after index effect).db id fun row =>
          row.destination.agentId = row.agentId := by
      intro leaves
      obtain ⟨rfl, user, dto, repository, issues⟩ := move.dispatches leaves
      change KnownRestore (effect.statement.execute server.now server.db) _ _
      rw [issues]
      exact KnownRestore.inserted (createdRestore_agent user dto repository server.now)
    obtain ⟨place, stands⟩ := List.mem_iff_getElem?.mp listed
    rcases getElem?_advance stands with ⟨-, same⟩ | ⟨apart, stood⟩ | ⟨-, started⟩
    · exact fromEffect (Or.inl same)
    · refine move.destination_kept ?_ Eq (owners.dispatching id (List.mem_of_getElem? stood))
      intro holds
      obtain ⟨phase, restoring, -⟩ := Call.holdsRestore_iff.mp holds
      exact apart (one_restore_execution reached stood present rfl (by rw [restoring]; rfl))
    · exact fromEffect (Or.inr started)
  · intro id phase listed
    rcases mem_advance listed with old | leaves
    · exact later (owners.executing id phase old)
    · rcases move.executes leaves with ⟨before, same⟩ | ⟨same, row, found, unowned⟩
      · exact later (owners.executing id before (same ▸ member))
      · obtain ⟨other, found', agrees⟩ := owners.dispatching id (same ▸ member)
        rw [found] at found'
        cases found'
        exact later ⟨row, found, agrees.symm.trans unowned⟩
  · intro call listed agent task reports
    rcases mem_advance listed with old | leaves
    · exact later (owners.reporting call old agent task reports)
    · exact later (Call.reports_from taken leaves reports)

theorem restoreOwners_of_reachable {allowed : Server → Action → Prop}
    (reached : (runningServer settings).Reachable allowed server) : RestoreOwners server := by
  refine System.Invariant.onTopOf ((runningServer settings).Reachable allowed) _
    (fun _ here => here) ?_ ?_ reached
  · intro state fresh
    have calls := Server.Fresh.calls fresh
    exact ⟨by simp [calls], by simp [calls], by simp [calls]⟩
  · intro state action next here _ owners _ stepped
    rcases Server.step_taken stepped with ⟨elapsed, -, same⟩ | ⟨entry, -, same⟩ |
      ⟨index, outcome, current, effect, -, present, taken, same⟩
    · subst same
      exact ⟨owners.dispatching, owners.executing, owners.reporting⟩
    · subst same
      have none := (Entry.call_spares settings state.now entry).restoring
      have unreporting : (entry.call settings state.now).reportsRestore = .none := by
        cases entry with
        | failStaleQueuedRuns =>
            unfold Entry.call
            dsimp only
            split <;> rfl
        | _ => rfl
      refine ⟨?_, ?_, ?_⟩
      · intro id listed
        rcases List.mem_append.mp listed with old | new
        · exact owners.dispatching id old
        · rw [← List.mem_singleton.mp new] at none
          cases none
      · intro id phase listed
        rcases List.mem_append.mp listed with old | new
        · exact owners.executing id phase old
        · rw [← List.mem_singleton.mp new] at none
          cases none
      · intro call listed agent task reports
        rcases List.mem_append.mp listed with old | new
        · exact owners.reporting call old agent task reports
        · rw [List.mem_singleton.mp new, unreporting] at reports
          cases reports
    · subst same
      exact owners.after here present taken

end Step

end AmberBackup
