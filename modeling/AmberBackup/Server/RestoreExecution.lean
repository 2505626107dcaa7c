import AmberBackup.Server.RestoreMoves

/-! # One execution of a restore

A restore is dispatched once, by the request that creates it, so that at most one call
works on it (`one_restore_execution`). Its mode and its agent never change.
-/

namespace AmberBackup

open Relational Transition Pool

/-- What never changes about a restore. -/
structure RestoreRun.SameIdentity (before after : RestoreRun) : Prop where
  mode : after.mode = before.mode
  agentId : after.agentId = before.agentId

theorem RestoreUpdate.set_identity (now : Nat) (update : RestoreUpdate) (row : RestoreRun) :
    row.SameIdentity (update.set now row) := by
  cases update <;> exact ⟨rfl, rfl⟩

theorem Statement.restoreRuns_of_spares {statement : Statement}
    (spares : statement.sparesRestores = true) (now : Nat) (db : Db) :
    (statement.execute now db).restoreRuns = db.restoreRuns := by
  cases statement with
  | updateRestores | insertRestore => cases spares
  | recordStats repository reading =>
      unfold Statement.execute
      dsimp only
      split <;> rfl
  | _ => rfl

/-- The row of a restore after a statement: the inserted one, or what its row has become. -/
theorem Statement.restore_after {statement : Statement} {now : Nat} {db : Db} {id : Uuid}
    {row : RestoreRun} (present : (statement.execute now db).restoreRuns.get? id = some row) :
    (statement = .insertRestore row ∧ id = freshId db.restoreRuns) ∨
      ∃ old, db.restoreRuns.get? id = some old ∧ (row = old ∨
        ∃ update, statement = .updateRestores update ∧ update.hits id old = true ∧
          row = update.set now old) := by
  by_cases spares : statement.sparesRestores = true
  · rw [Statement.restoreRuns_of_spares spares] at present
    exact Or.inr ⟨row, present, Or.inl rfl⟩
  · cases statement with
    | updateRestores update =>
        change (db.updateRestores now update).restoreRuns.get? id = some row at present
        rw [Db.get?_updateRestores] at present
        obtain ⟨old, found, equal⟩ := Option.map_eq_some_iff.mp present
        refine Or.inr ⟨old, found, ?_⟩
        split at equal
        case isTrue hit => exact Or.inr ⟨update, rfl, hit, equal.symm⟩
        case isFalse => exact Or.inl equal.symm
    | insertRestore inserted =>
        change (db.restoreRuns.insert (freshId db.restoreRuns) inserted).get? id = some row
          at present
        rw [Table.get?_insert (get?_freshId _)] at present
        split at present
        case isTrue same =>
          cases present
          exact Or.inl ⟨rfl, same⟩
        case isFalse => exact Or.inr ⟨row, present, Or.inl rfl⟩
    | _ => exact absurd rfl spares

/-- Restores are never deleted. -/
theorem Statement.restore_kept (statement : Statement) (now : Nat) {db : Db} {id : Uuid}
    {row : RestoreRun} (present : db.restoreRuns.get? id = some row) :
    ∃ after, (statement.execute now db).restoreRuns.get? id = some after ∧
      row.SameIdentity after := by
  by_cases spares : statement.sparesRestores = true
  · exact ⟨row, by rw [Statement.restoreRuns_of_spares spares, present], rfl, rfl⟩
  · cases statement with
    | updateRestores update =>
        refine ⟨if update.hits id row then update.set now row else row, ?_, ?_⟩
        · change (db.updateRestores now update).restoreRuns.get? id = _
          rw [Db.get?_updateRestores, present]
          rfl
        · split
          · exact update.set_identity now row
          · exact ⟨rfl, rfl⟩
    | insertRestore inserted =>
        exact ⟨row, Table.get?_insert_of_some present inserted, rfl, rfl⟩
    | _ => exact absurd rfl spares

/-- The share a call has in a restore. -/
def Call.restoreShare (id : Uuid) (call : Call) : Nat := if call.restoring = some id then 1 else 0

theorem Call.restoreShare_of_none {call : Call} (none : call.restoring = none) (id : Uuid) :
    call.restoreShare id = 0 := by
  simp [Call.restoreShare, none]

theorem total_restoreShare_of_spares {calls : List Call}
    (spares : ∀ call ∈ calls, call.SparesRestores) (id : Uuid) :
    total (Call.restoreShare id) calls = 0 :=
  total_eq_zero fun call member => Call.restoreShare_of_none (spares call member).restoring id

/-- The dispatch starts at most one execution. -/
theorem dispatchedRestore_cases (db : Db) (id : Uuid) :
    dispatchedRestore db id = [] ∨ dispatchedRestore db id = [.restore id .load] := by
  unfold dispatchedRestore
  split
  · exact Or.inl rfl
  · split
    · exact Or.inl rfl
    · exact Or.inr rfl

/-- The restores in the hands of calls exist, each in the hands of one. -/
structure RestoresGrounded (server : Server) : Prop where
  known : ∀ call ∈ server.calls, ∀ id, call.restoring = some id →
    KnownRestore server.db id fun _ => True
  one : ∀ id, total (Call.restoreShare id) server.calls ≤ 1

section Moves

variable {settings : Settings} {server : Server} {index : Nat} {current : Call} {effect : Effect}

/-- A step hands its share in a restore on, or creates the restore. -/
theorem RestoreMove.share_le (move : RestoreMove settings server index current effect)
    (id : Uuid) :
    effect.next.restoreShare id + total (Call.restoreShare id) effect.spawned ≤
      current.restoreShare id + if id = freshId server.db.restoreRuns then 1 else 0 := by
  cases move with
  | elsewhere was spares =>
      rw [Call.restoreShare_of_none spares.next, total_restoreShare_of_spares spares.spawned]
      exact Nat.zero_le _
  | poll agent dto before after next claiming spawned =>
      rw [next, spawned]
      simp [Call.restoreShare, Call.restoring]
  | create user dto repository =>
      by_cases fresh : id = freshId server.db.restoreRuns
      · simp [Call.restoreShare, Call.restoring, fresh]
      · simp [Call.restoreShare, Call.restoring, fresh, Ne.symm fresh]
  | dispatch other =>
      rcases dispatchedRestore_cases server.db other with none | one
      · simp [none, Call.restoreShare, Call.restoring]
      · simp [one, Call.restoreShare, Call.restoring]
  | advance other was becomes loaded target others =>
      rw [total_restoreShare_of_spares others]
      simp [Call.restoreShare, Call.restoring]
  | claim agent dto restore rest =>
      simp [claimRestoreEffect, Call.restoreShare, Call.restoring]
  | _ => simp [Call.restoreShare, Call.restoring]

/-- The restores a step leaves in the hands of calls: its own, or the created one. -/
theorem RestoreMove.restoring_from (move : RestoreMove settings server index current effect)
    {call : Call} (leaves : effect.Leaves call) {id : Uuid}
    (restores : call.restoring = some id) :
    current.restoring = some id ∨
      (id = freshId server.db.restoreRuns ∧ ∃ row, effect.statement = .insertRestore row) := by
  cases move with
  | elsewhere was spares =>
      rcases leaves with same | started
      · rw [same, spares.next] at restores
        cases restores
      · rw [(spares.spawned call started).restoring] at restores
        cases restores
  | poll agent dto before after next claiming spawned =>
      rcases leaves with same | started
      · rw [same, next] at restores
        cases restores
      · rw [spawned] at started
        cases started
  | create user dto repository =>
      rcases leaves with same | started
      · subst same
        cases restores
        exact Or.inr ⟨rfl, _, rfl⟩
      · cases started
  | dispatch other =>
      rcases leaves with same | started
      · subst same
        cases restores
      · rcases dispatchedRestore_cases server.db other with none | one
        · simp [none] at started
        · rw [one, List.mem_singleton] at started
          subst started
          exact Or.inl restores
  | advance other was becomes loaded target others =>
      rcases leaves with same | started
      · subst same
        exact Or.inl restores
      · rw [(others call started).restoring] at restores
        cases restores
  | load | register | openRun | start | record =>
      rcases leaves with same | started
      · subst same
        exact Or.inl restores
      · cases started
  | abandon | finish | cancelWrite | report | figures =>
      rcases leaves with same | started
      · subst same
        cases restores
      · cases started
  | claim agent dto restore rest =>
      rcases leaves with same | started
      · subst same
        cases restores
      · cases started

theorem RestoresGrounded.step {next : Server} {action : Action}
    (grounded : RestoresGrounded server) (stepped : server.step settings action = some next) :
    RestoresGrounded next := by
  rcases Server.step_taken stepped with ⟨elapsed, -, same⟩ | ⟨entry, -, same⟩ |
    ⟨index, outcome, current, effect, -, present, taken, same⟩
  · subst same
    exact ⟨grounded.known, grounded.one⟩
  · subst same
    have none := (Entry.call_spares settings server.now entry).restoring
    refine ⟨?_, fun id => ?_⟩
    · intro call member id restores
      rcases List.mem_append.mp member with old | new
      · exact grounded.known call old id restores
      · rw [List.mem_singleton.mp new, none] at restores
        cases restores
    · have before := grounded.one id
      simp only [total_append, total_cons, total_nil, Call.restoreShare_of_none none]
      omega
  · subst same
    have move : RestoreMove settings server index current effect := Call.step_restoreMove taken
    have member := List.mem_of_getElem? present
    have kept : ∀ id, KnownRestore server.db id (fun _ => True) →
        KnownRestore (server.after index effect).db id fun _ => True := by
      rintro id ⟨row, found, -⟩
      obtain ⟨after, later, -⟩ := effect.statement.restore_kept server.now found
      exact ⟨after, later, trivial⟩
    refine ⟨?_, fun id => ?_⟩
    · intro call listed id restores
      have fromEffect : effect.Leaves call →
          KnownRestore (server.after index effect).db id fun _ => True := by
        intro leaves
        rcases move.restoring_from leaves restores with mine | ⟨fresh, row, inserts⟩
        · exact kept id (grounded.known current member id mine)
        · subst fresh
          refine ⟨row, ?_, trivial⟩
          change (effect.statement.execute server.now server.db).restoreRuns.get? _ = _
          rw [inserts]
          exact Table.get?_insert_self (get?_freshId _)
      rcases mem_advance listed with old | leaves
      · exact kept id (grounded.known call old id restores)
      · exact fromEffect leaves
    · have before := grounded.one id
      have share := move.share_le id
      have counted : total (Call.restoreShare id)
          (advance server.calls index effect.next effect.spawned) + current.restoreShare id =
            total (Call.restoreShare id) server.calls + effect.next.restoreShare id +
              total (Call.restoreShare id) effect.spawned := total_advance present
      change total (Call.restoreShare id)
        (advance server.calls index effect.next effect.spawned) ≤ 1
      by_cases fresh : id = freshId server.db.restoreRuns
      · have nobody : total (Call.restoreShare id) server.calls = 0 := by
          refine total_eq_zero fun call listed => ?_
          unfold Call.restoreShare
          split
          case isTrue restores =>
            obtain ⟨row, found, -⟩ := grounded.known call listed id restores
            rw [fresh, get?_freshId] at found
            cases found
          case isFalse => rfl
        rw [if_pos fresh] at share
        omega
      · rw [if_neg fresh] at share
        omega

end Moves

section Reachable

variable {settings : Settings} {allowed : Server → Action → Prop} {server : Server}

theorem restoresGrounded_of_reachable
    (reached : (runningServer settings).Reachable allowed server) : RestoresGrounded server := by
  have invariant : (runningServer settings).Invariant allowed RestoresGrounded := by
    refine ⟨fun state fresh => ⟨?_, fun id => ?_⟩, fun state action next grounded _ stepped =>
      grounded.step stepped⟩
    · simp [Server.Fresh.calls fresh]
    · simp [Server.Fresh.calls fresh]
  exact invariant.holds reached

/-- Two calls that work on one restore are one. -/
theorem one_restore_execution (reached : (runningServer settings).Reachable allowed server)
    {first second : Nat} {call other : Call} {id : Uuid}
    (present : server.calls[first]? = some call) (present' : server.calls[second]? = some other)
    (restores : call.restoring = some id) (restores' : other.restoring = some id) :
    first = second := by
  by_contra different
  have bound := (restoresGrounded_of_reachable reached).one id
  have both : call.restoreShare id + other.restoreShare id ≤
      total (Call.restoreShare id) server.calls := add_le_total present present' different
  simp only [Call.restoreShare, restores, restores', ↓reduceIte] at both
  omega

end Reachable

end AmberBackup
