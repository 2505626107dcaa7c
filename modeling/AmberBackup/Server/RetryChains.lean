import AmberBackup.Server.Inversions

/-! # Retry chains

A failed backup is read, another active backup of its job is looked for, and the retry is
inserted, in three statements that anything may come between. In a run of the server where
nothing interferes with a retry that is about to be inserted, retries form chains that are
linear and bounded (`retry_chains`); a second settling of a run whose retry has failed in
turn gives the run a second retry (`retried_twice`).
-/

namespace AmberBackup

open Relational Transition Pool

/-- A call is about to insert a retry for the job. -/
def Call.insertsFor (job : Uuid) : Call → Bool
  | .finalize _ (.retryInsert failed _) => failed.jobId = job
  | _ => false

def noneInserts (server : Server) (job : Uuid) : Bool := !server.calls.any (Call.insertsFor job)

/-- A retry of the run. -/
def retryOf (run : Uuid) (_ : Uuid) (row : JobRun) : Bool := row.retryOfRunId = some run

/-- What a step of a call must meet: a look for active backups comes back empty only for a
run without a retry, and while no other retry of the job is about to be inserted; while one
is, no backup of the job is created or made active again; a run about to be retried is not
made active again, and the retries of its job are not cut below its attempt. -/
def Call.keepsChains (server : Server) : Call → Bool
  | .finalize run (.retryActive failed) =>
      server.db.jobRuns.anyWhere (otherActive failed.jobId run) ||
        (!server.db.jobRuns.anyWhere (retryOf run) && noneInserts server failed.jobId)
  | .runner (.createRun requester job) =>
      !(mayOperate server.db job requester && (server.db.backupJobs.get? job).isSome) ||
        noneInserts server job
  | .backup run (.openRun _) =>
      (server.db.jobRuns.get? run).all fun row =>
        row.status.active || (noneInserts server row.jobId &&
          server.calls.all fun other => other.retrying.all fun retry => retry.1 ≠ run)
  | .updateJob user job patch =>
      !acceptsPatch server.db user job patch || patch.retryMax.all fun retryMax =>
        server.calls.all fun other => other.retrying.all fun retry =>
          retry.2.jobId ≠ job || retry.2.attempt ≤ retryMax
  | _ => true

abbrev KeepsChains (server : Server) (action : Action) : Prop :=
  onSteps (fun server call _ => call.keepsChains server) server action = true

/-- A failed run that is about to be retried. -/
structure Pending (db : Db) (run : Uuid) (failed : FailedRun) : Prop where
  settled : Known db run fun row => row.status.final = true
  allowed : ∀ job, db.backupJobs.get? failed.jobId = some job → failed.attempt ≤ job.retryMax

/-- No backup of the job is active, and the run has no retry. -/
structure Clear (db : Db) (run job : Uuid) : Prop where
  inactive : ∀ other row, db.jobRuns.get? other = some row → row.jobId = job →
    row.kind = .backup → row.status.final = true
  unretried : ∀ other row, db.jobRuns.get? other = some row → row.retryOfRunId ≠ some run

/-- The retries a call is about to insert for the job. -/
def Call.insertions (job : Uuid) (call : Call) : Nat := (call.insertsFor job).toNat

structure Linear (server : Server) : Prop where
  unique : ∀ run first second row other, server.db.jobRuns.get? first = some row →
    server.db.jobRuns.get? second = some other → row.retryOfRunId = some run →
    other.retryOfRunId = some run → first = second
  pending : ∀ call ∈ server.calls, ∀ run failed, call.retrying = some (run, failed) →
    Pending server.db run failed
  alone : ∀ job, total (Call.insertions job) server.calls ≤ 1
  clear : ∀ run failed dueAt, .finalize run (.retryInsert failed dueAt) ∈ server.calls →
    Clear server.db run failed.jobId

theorem noneInserts_iff {server : Server} {job : Uuid} :
    noneInserts server job = true ↔ ∀ call ∈ server.calls, call.insertsFor job = false := by
  simp [noneInserts]

theorem Call.insertsFor_iff {call : Call} {job : Uuid} :
    call.insertsFor job = true ↔ ∃ run failed dueAt,
      call = .finalize run (.retryInsert failed dueAt) ∧ failed.jobId = job := by
  constructor
  · intro inserts
    cases call with
    | finalize run phase =>
        cases phase with
        | retryInsert failed dueAt =>
            exact ⟨run, failed, dueAt, rfl, by simpa [insertsFor] using inserts⟩
        | retryRead | retryActive => cases inserts
    | _ => cases inserts
  · rintro ⟨run, failed, dueAt, rfl, rfl⟩
    simp [insertsFor]

theorem Call.retrying_iff {call : Call} {run : Uuid} {failed : FailedRun} :
    call.retrying = some (run, failed) ↔ call = .finalize run (.retryActive failed) ∨
      ∃ dueAt, call = .finalize run (.retryInsert failed dueAt) := by
  constructor
  · intro retries
    cases call with
    | finalize other phase =>
        cases phase with
        | retryActive => cases retries; exact Or.inl rfl
        | retryInsert _ dueAt => cases retries; exact Or.inr ⟨dueAt, rfl⟩
        | retryRead => cases retries
    | _ => cases retries
  · rintro (rfl | ⟨dueAt, rfl⟩) <;> rfl

section Step

variable {settings : Settings} {server : Server} {index : Nat} {current : Call}
  {outcome : Outcome} {effect : Effect}

/-- An edit of a job is an accepted request. -/
theorem Move.edit_source (move : Move settings server index current outcome effect)
    {job : Uuid} {patch : JobPatch} (issues : effect.statement = .updateJob job patch) :
    ∃ user, current = .updateJob user job patch ∧ acceptsPatch server.db user job patch = true := by
  cases move with
  | updateJob user other patch' _ accepted =>
      cases issues
      exact ⟨user, rfl, accepted⟩
  | idle was next spawned statement =>
      rw [issues] at statement
      cases statement
  | reportStats _ _ _ _ _ _ _ statement _ passive =>
      dsimp only at issues
      rw [issues] at passive
      cases passive
  | _ => cases issues

theorem Pending.after {run : Uuid} {failed : FailedRun} (pending : Pending server.db run failed)
    (move : Move settings server index current outcome effect)
    (opens : ∀ context row, server.db.jobRuns.get? run = some row → row.status.final = true →
      current ≠ .backup run (.openRun context))
    (edits : ∀ user patch retryMax, current = .updateJob user failed.jobId patch →
      acceptsPatch server.db user failed.jobId patch = true → patch.retryMax = some retryMax →
      failed.attempt ≤ retryMax) :
    Pending (server.after index effect).db run failed where
  settled := by
    obtain ⟨row, found, final⟩ := pending.settled
    obtain ⟨after, later, -⟩ := effect.statement.execute_later server.now server.db run row found
    rcases move.final_of_final found final later with still | ⟨context, opening⟩
    · exact ⟨after, later, still⟩
    · exact absurd opening (opens context row found final)
  allowed := by
    intro job present
    rcases Statement.job_after present with before | ⟨patch, old, issues, before, same⟩
    · exact pending.allowed job before
    · subst same
      obtain ⟨user, edit, accepted⟩ := move.edit_source issues
      change failed.attempt ≤ patch.retryMax.getD old.retryMax
      cases cut : patch.retryMax with
      | none => exact pending.allowed old before
      | some retryMax => exact edits user patch retryMax edit accepted cut

/-- What the condition gives for a call that is about to retry a run. -/
theorem Linear.pending_kept (linear : Linear server)
    (permitted : current.keepsChains server = true)
    (move : Move settings server index current outcome effect) {call : Call}
    (member : call ∈ server.calls) {run : Uuid} {failed : FailedRun}
    (retries : call.retrying = some (run, failed)) :
    Pending (server.after index effect).db run failed := by
  refine (linear.pending call member run failed retries).after move ?_ ?_
  · rintro context row found final rfl
    simp only [Call.keepsChains, found, Option.all_some, Bool.or_eq_true, Bool.and_eq_true,
      List.all_eq_true] at permitted
    rcases permitted with active | ⟨-, unretried⟩
    · unfold RunStatus.final at final
      rw [active] at final
      cases final
    · have other := unretried call member
      rw [retries] at other
      simp at other
  · rintro user patch retryMax rfl accepted cut
    simp only [Call.keepsChains, accepted, Bool.not_true, Bool.false_or, cut, Option.all_some,
      List.all_eq_true] at permitted
    have kept := permitted call member
    rw [retries] at kept
    simpa using kept

theorem Linear.pending_after (linear : Linear server)
    (mine : current ∈ server.calls) (permitted : current.keepsChains server = true)
    (move : Move settings server index current outcome effect) :
    ∀ call ∈ (server.after index effect).calls, ∀ run failed,
      call.retrying = some (run, failed) → Pending (server.after index effect).db run failed := by
  intro call listed run failed retries
  rcases mem_advance listed with old | leaves
  · exact linear.pending_kept permitted move old retries
  · have source := move.settling_source leaves
    rcases Call.retrying_iff.mp retries with same | ⟨dueAt, same⟩
    · subst same
      obtain ⟨reads, row, job, found, owner, allowed, same⟩ := source
      subst same
      simp only [retryAllowed, Bool.and_eq_true, decide_eq_true_eq] at allowed
      refine Pending.after ⟨⟨row, found, ?_⟩, ?_⟩ move ?_ ?_
      · change row.status.final = true
        rw [allowed.1.2]
        rfl
      · intro other present
        rw [owner] at present
        cases present
        exact allowed.2
      · rintro context _ _ _ rfl
        cases reads
      · rintro user patch retryMax rfl
        cases reads
    · subst same
      exact linear.pending_kept permitted move mine (Call.retrying_iff.mpr (Or.inl source.1))

/-- The look for another active backup inserts the retry, or announces the run. -/
theorem Move.of_retryActive {run : Uuid} {failed : FailedRun}
    (move : Move settings server index (.finalize run (.retryActive failed)) outcome effect) :
    effect = { next := .notifyJobRun run .readRun } ∨
      ∃ notBefore, effect = { next := .finalize run (.retryInsert failed notBefore) } := by
  cases move with
  | retryRedundant => exact Or.inl rfl
  | retryClear _ _ notBefore => exact Or.inr ⟨notBefore, rfl⟩
  | idle was | insertCheck was | insertPrune was | claim was => cases was.settling
  | advance was | register was | start was | fails was | exits _ was | recordSuccess was
  | readFlag was | recordFailure was | finish was => cases was

/-- A call that is about to insert a retry has just found no other active backup. -/
theorem Move.inserter_source (move : Move settings server index current outcome effect)
    {run dueAt : Nat} {failed : FailedRun}
    (leaves : effect.Leaves (.finalize run (.retryInsert failed dueAt))) :
    current = .finalize run (.retryActive failed) ∧
      server.db.jobRuns.anyWhere (otherActive failed.jobId run) = false ∧
      effect = { next := .finalize run (.retryInsert failed dueAt) } := by
  obtain ⟨same, inactive⟩ := move.settling_source leaves
  subst same
  refine ⟨rfl, inactive, ?_⟩
  rcases move.of_retryActive with same | ⟨notBefore, same⟩
  · subst same
    rcases leaves with equal | started
    · cases equal
    · cases started
  · subst same
    rcases leaves with equal | started
    · cases equal
      rfl
    · cases started

/-- What the condition says where a retry is about to be inserted. -/
theorem Call.keepsChains_clear {run : Uuid} {failed : FailedRun}
    (permitted : Call.keepsChains server (.finalize run (.retryActive failed)) = true)
    (inactive : server.db.jobRuns.anyWhere (otherActive failed.jobId run) = false) :
    server.db.jobRuns.anyWhere (retryOf run) = false ∧
      ∀ call ∈ server.calls, call.insertsFor failed.jobId = false := by
  simp only [keepsChains, inactive, Bool.false_or, Bool.and_eq_true, Bool.not_eq_true'] at permitted
  exact ⟨permitted.1, noneInserts_iff.mp permitted.2⟩

theorem Linear.alone_after (linear : Linear server)
    (present : server.calls[index]? = some current)
    (permitted : current.keepsChains server = true)
    (move : Move settings server index current outcome effect) (job : Uuid) :
    total (Call.insertions job) (server.after index effect).calls ≤ 1 := by
  have before := linear.alone job
  have moved : total (Call.insertions job) (server.after index effect).calls +
      Call.insertions job current = total (Call.insertions job) server.calls +
        Call.insertions job effect.next + total (Call.insertions job) effect.spawned :=
    total_advance present
  have onlyNext : ∀ call ∈ effect.spawned, Call.insertions job call = 0 := by
    intro call started
    cases inserts : call.insertsFor job with
    | false => simp [Call.insertions, inserts]
    | true =>
        obtain ⟨run, failed, dueAt, same, -⟩ := Call.insertsFor_iff.mp inserts
        subst same
        obtain ⟨-, -, same⟩ := move.inserter_source (Or.inr started)
        rw [same] at started
        cases started
  have spawned := total_eq_zero onlyNext
  cases inserts : effect.next.insertsFor job with
  | false =>
      have none : Call.insertions job effect.next = 0 := by simp [Call.insertions, inserts]
      omega
  | true =>
      have one : Call.insertions job effect.next = 1 := by simp [Call.insertions, inserts]
      obtain ⟨run, failed, dueAt, next, same⟩ := Call.insertsFor_iff.mp inserts
      obtain ⟨looks, inactive, -⟩ := move.inserter_source (Or.inl next.symm)
      subst looks
      have clear := (Call.keepsChains_clear permitted inactive).2
      have none : total (Call.insertions job) server.calls = 0 := by
        refine total_eq_zero fun call member => ?_
        simp [Call.insertions, same ▸ clear call member]
      omega

/-- A row after a step is inserted by it, or repeats the identity of one of before. -/
theorem Statement.row_origin {statement : Statement} {now : Nat} {db : Db} {id : Uuid}
    {row : JobRun} (present : (statement.execute now db).jobRuns.get? id = some row) :
    (statement = .insertRun row ∧ id = freshId db.jobRuns) ∨
      ∃ old, db.jobRuns.get? id = some old ∧ old.SameIdentity row := by
  rcases Statement.row_after present with inserted | ⟨old, found, ⟨stats, same⟩ | ⟨update, -, -, same⟩⟩
  · exact Or.inl inserted
  · subst same
    exact Or.inr ⟨old, found, (old.later_stats stats).identity⟩
  · subst same
    exact Or.inr ⟨old, found, update.set_identity now old⟩

/-- The step of another call keeps the job clear for a retry that is about to be inserted. -/
theorem Linear.clear_kept (linear : Linear server) (grounded : Grounded server)
    (present : server.calls[index]? = some current)
    (permitted : current.keepsChains server = true)
    (move : Move settings server index current outcome effect) {place : Nat}
    (different : place ≠ index) {run dueAt : Nat} {failed : FailedRun}
    (found : server.calls[place]? = some (.finalize run (.retryInsert failed dueAt))) :
    Clear (server.after index effect).db run failed.jobId := by
  have member := List.mem_of_getElem? found
  have mine := List.mem_of_getElem? present
  have clear := linear.clear run failed dueAt member
  have inserts : Call.insertsFor failed.jobId (.finalize run (.retryInsert failed dueAt)) = true :=
    Call.insertsFor_iff.mpr ⟨run, failed, dueAt, rfl, rfl⟩
  have busy : noneInserts server failed.jobId ≠ true := by
    intro none
    rw [noneInserts_iff.mp none _ member] at inserts
    cases inserts
  -- two retries of one job are not about to be inserted at once
  have other : ∀ parent again due, current = .finalize parent (.retryInsert again due) →
      again.jobId ≠ failed.jobId := by
    intro parent again due same equal
    subst same
    have also : Call.insertsFor failed.jobId (.finalize parent (.retryInsert again due)) = true :=
      Call.insertsFor_iff.mpr ⟨parent, again, due, rfl, equal⟩
    have both : Call.insertions failed.jobId _ + Call.insertions failed.jobId _ ≤
        total (Call.insertions failed.jobId) server.calls := add_le_total found present different
    have one := linear.alone failed.jobId
    simp only [Call.insertions, inserts, also, Bool.toNat_true] at both
    omega
  constructor
  · intro id row after same kind
    rcases Statement.row_origin after with ⟨issues, -⟩ | ⟨old, before, identity⟩
    · rcases move.insert_source issues with ⟨requester, job, creates, accepted, equal⟩ |
        ⟨parent, again, due, retries, equal⟩ | ⟨none, -⟩
      · subst creates
        subst equal
        subst same
        simp only [Call.keepsChains, accepted, Bool.not_true, Bool.false_or] at permitted
        exact absurd permitted busy
      · subst equal
        exact absurd same (other parent again due retries)
      · exact absurd kind none
    · have final := clear.inactive id old before (identity.jobId.symm.trans same)
        (identity.kind.symm.trans kind)
      rcases move.final_of_final before final after with still | ⟨context, opens⟩
      · exact still
      · subst opens
        simp only [Call.keepsChains, before, Option.all_some, Bool.or_eq_true,
          Bool.and_eq_true] at permitted
        rcases permitted with active | ⟨none, -⟩
        · unfold RunStatus.final at final
          rw [active] at final
          cases final
        · rw [identity.jobId.symm.trans same] at none
          exact absurd none busy
  · intro id row after retries
    rcases Statement.row_origin after with ⟨issues, -⟩ | ⟨old, before, identity⟩
    · rcases move.insert_source issues with ⟨requester, job, -, -, equal⟩ |
        ⟨parent, again, due, inserting, equal⟩ | ⟨-, none, -⟩
      · subst equal
        cases retries
      · subst equal
        cases retries
        subst inserting
        have here := (grounded.calls _ member).retrying run failed rfl
        obtain ⟨row', present', fact⟩ := (grounded.calls _ mine).retrying run again rfl
        exact absurd (fact.2.1.symm.trans (here.row present').2.1) (other run again due rfl)
      · rw [none] at retries
        cases retries
    · exact clear.unretried id old before (identity.retryOfRunId.symm.trans retries)

theorem Linear.clear_after (linear : Linear server) (grounded : Grounded server)
    (present : server.calls[index]? = some current)
    (permitted : current.keepsChains server = true)
    (move : Move settings server index current outcome effect) {run dueAt : Nat}
    {failed : FailedRun}
    (listed : .finalize run (.retryInsert failed dueAt) ∈ (server.after index effect).calls) :
    Clear (server.after index effect).db run failed.jobId := by
  have arises : effect.Leaves (.finalize run (.retryInsert failed dueAt)) →
      Clear (server.after index effect).db run failed.jobId := by
    intro leaves
    obtain ⟨looks, inactive, same⟩ := move.inserter_source leaves
    subst looks
    subst same
    have settled := (linear.pending _ (List.mem_of_getElem? present) run failed rfl).settled
    have unretried := (Call.keepsChains_clear permitted inactive).1
    constructor
    · intro other row found sameJob kind
      by_cases same : other = run
      · subst same
        exact settled.row found
      · have quiet := Table.anyWhere_eq_false.mp inactive other row found
        simpa [otherActive, sameJob, kind, same, RunStatus.final] using quiet
    · intro other row found retries
      have none := Table.anyWhere_eq_false.mp unretried other row found
      simp [retryOf, retries] at none
  obtain ⟨place, found⟩ := List.mem_iff_getElem?.mp listed
  rcases getElem?_advance found with ⟨-, same⟩ | ⟨different, old⟩ | ⟨-, started⟩
  · exact arises (Or.inl same)
  · exact linear.clear_kept grounded present permitted move different old
  · exact arises (Or.inr started)

theorem Linear.unique_after (linear : Linear server)
    (mine : current ∈ server.calls)
    (move : Move settings server index current outcome effect) {run first second : Uuid}
    {row other : JobRun}
    (found : (effect.statement.execute server.now server.db).jobRuns.get? first = some row)
    (found' : (effect.statement.execute server.now server.db).jobRuns.get? second = some other)
    (retries : row.retryOfRunId = some run) (retries' : other.retryOfRunId = some run) :
    first = second := by
  -- the run a retry is inserted for has none yet
  have fresh : ∀ {inserted : JobRun} {id : Uuid} {old : JobRun},
      effect.statement = .insertRun inserted → inserted.retryOfRunId = some run →
      server.db.jobRuns.get? id = some old → old.retryOfRunId ≠ some run := by
    intro inserted id old issues again before
    rcases move.insert_source issues with ⟨_, _, -, -, equal⟩ |
      ⟨parent, failed, due, inserting, equal⟩ | ⟨-, none, -⟩
    · subst equal
      cases again
    · subst equal
      cases again
      subst inserting
      exact (linear.clear run failed due mine).unretried id old before
    · rw [none] at again
      cases again
  rcases Statement.row_origin found with ⟨issues, place⟩ | ⟨old, before, identity⟩
  · rcases Statement.row_origin found' with ⟨-, place'⟩ | ⟨old', before', identity'⟩
    · exact place.trans place'.symm
    · exact absurd (identity'.retryOfRunId.symm.trans retries') (fresh issues retries before')
  · rcases Statement.row_origin found' with ⟨issues, -⟩ | ⟨old', before', identity'⟩
    · exact absurd (identity.retryOfRunId.symm.trans retries) (fresh issues retries' before)
    · exact linear.unique run first second old old' before before'
        (identity.retryOfRunId.symm.trans retries) (identity'.retryOfRunId.symm.trans retries')

end Step

section Reachable

variable {settings : Settings} {server : Server}

theorem linear_of_reachable
    (reached : (runningServer settings).Reachable KeepsChains server) : Linear server := by
  refine System.Invariant.onTopOf _ _ (fun _ here => grounded_of_reachable here) ?_ ?_ reached
  · intro state fresh
    have calls := Server.Fresh.calls fresh
    refine ⟨?_, by simp [calls], by simp [calls], by simp [calls]⟩
    intro run first second row other found
    rw [Server.Fresh.jobRuns fresh] at found
    cases found
  · intro state action next grounded _ linear permitted stepped
    rcases Server.step_cases stepped with ⟨elapsed, -, same⟩ | ⟨entry, -, same⟩ |
      ⟨index, outcome, current, effect, resumes, present, move, same⟩
    · subst same
      exact ⟨linear.unique, linear.pending, linear.alone, linear.clear⟩
    · subst same
      have unbound := Entry.call_unbound settings state.now entry
      have waits : ∀ job, Call.insertions job (entry.call settings state.now) = 0 := by
        intro job
        cases inserts : (entry.call settings state.now).insertsFor job with
        | false => simp [Call.insertions, inserts]
        | true =>
            obtain ⟨run, failed, dueAt, same, -⟩ := Call.insertsFor_iff.mp inserts
            have none := unbound.settling
            rw [same] at none
            cases none
      refine ⟨linear.unique, fun call member run failed retries => ?_, fun job => ?_,
        fun run failed dueAt member => ?_⟩
      · rcases List.mem_append.mp member with old | new
        · exact linear.pending call old run failed retries
        · rw [List.mem_singleton.mp new, unbound.retrying] at retries
          cases retries
      · have before := linear.alone job
        change total (Call.insertions job) (state.calls ++ [_]) ≤ 1
        rw [total_append, total_cons, total_nil, waits job]
        omega
      · rcases List.mem_append.mp member with old | new
        · exact linear.clear run failed dueAt old
        · have none := unbound.settling
          rw [← List.mem_singleton.mp new] at none
          cases none
    · subst resumes
      subst same
      have mine := List.mem_of_getElem? present
      have permits := onSteps_resume permitted present
      exact ⟨fun run first second row other found found' =>
          linear.unique_after mine move found found',
        linear.pending_after mine permits move, linear.alone_after present permits move,
        fun run failed dueAt listed => linear.clear_after grounded present permits move listed⟩

/-- **Retry chains.** As long as nothing interferes with a retry that is about to be
inserted, each run has at most one retry, a retry's attempt is its run's plus one, and
where a step inserts a row, its attempt is at most the job's number of retries plus one,
and no backup of the job is active if it is a retry. -/
theorem retry_chains (reached : (runningServer settings).Reachable KeepsChains server) :
    (∀ run first second row other, server.db.jobRuns.get? first = some row →
        server.db.jobRuns.get? second = some other → row.retryOfRunId = some run →
        other.retryOfRunId = some run → first = second) ∧
      (∀ retry row run, server.db.jobRuns.get? retry = some row → row.retryOfRunId = some run →
        Known server.db run fun failed => row.attempt = failed.attempt + 1) ∧
      ∀ action next id row, server.step settings action = some next →
        server.db.jobRuns.get? id = none → next.db.jobRuns.get? id = some row →
        (∀ job, server.db.backupJobs.get? row.jobId = some job →
          row.attempt ≤ job.retryMax + 1) ∧
        (row.retryOfRunId ≠ none → ∀ other row', server.db.jobRuns.get? other = some row' →
          row'.jobId = row.jobId → row'.kind = .backup → row'.status.final = true) := by
  have linear := linear_of_reachable reached
  have grounded := grounded_of_reachable reached
  refine ⟨linear.unique, fun retry row run found retries =>
    ((grounded.rows retry row found).retry run retries).2.weaken fun _ fact => fact.2.2.2, ?_⟩
  intro action next id row stepped absent found
  rcases Server.step_cases stepped with ⟨elapsed, -, same⟩ | ⟨entry, -, same⟩ |
    ⟨index, outcome, current, effect, -, present, move, same⟩
  · subst same
    exact absurd (absent.symm.trans found) (by simp)
  · subst same
    exact absurd (absent.symm.trans found) (by simp)
  · subst same
    rcases Statement.row_origin found with ⟨issues, -⟩ | ⟨old, before, -⟩
    · rcases move.insert_source issues with ⟨_, job, -, -, equal⟩ |
        ⟨run, failed, dueAt, inserting, equal⟩ | ⟨-, none, first⟩
      · subst equal
        exact ⟨fun job _ => Nat.le_add_left 1 job.retryMax, fun retries => absurd rfl retries⟩
      · subst equal
        subst inserting
        have mine := List.mem_of_getElem? present
        exact ⟨fun job owner => Nat.succ_le_succ
            ((linear.pending _ mine run failed rfl).allowed job owner),
          fun _ => (linear.clear run failed dueAt mine).inactive⟩
      · refine ⟨fun job _ => ?_, fun retries => absurd none retries⟩
        rw [first]
        exact Nat.le_add_left 1 job.retryMax
    · rw [absent] at before
      cases before

end Reachable

/-- The agent's job, with one retry after a minute. -/
def retriedAgentJob : BackupJob :=
  { agentJob with retryMax := 1, retryDelaySeconds := 60 }

/-- The steps in which the agent reports the failure of the run, up to its settling. -/
def reportedFailure (call : Nat) : List Action :=
  .begin (.submitResult 7 0 { status := .failed }) :: List.replicate 6 (.returns call)

/-- The agent reports the failure twice, and both reports settle the run at the same time. -/
def settledTwice : List Action :=
  [.begin (.runJob none 1), .returns 0, .returns 0, .begin (.poll 7 none {})] ++
    claimedBackup 1 ++ reportedFailure 2 ++ reportedFailure 4 ++
    [.returns 3, .returns 5, .returns 3, .returns 5, .returns 3, .returns 5]

def retries (run retry : Uuid) (server : Server) : Bool :=
  (server.db.jobRuns.get? retry).any fun row => row.retryOfRunId = some run

/-- Then the failed run has two retries. -/
theorem retried_twice : ∃ server,
    (runningServer hourSettings).Reachable (fun _ _ => True) server ∧
      Known server.db 1 (fun row => row.retryOfRunId = some 0) ∧
      Known server.db 2 fun row => row.retryOfRunId = some 0 := by
  have ends : ((runningServer hourSettings).runWithin (fun _ _ => True)
      (installation retriedAgentJob) settledTwice).any
        (fun server => retries 0 1 server && retries 0 2 server) = true := by decide
  obtain ⟨server, reached, both⟩ :=
    System.exists_reachable (fresh_installation hourSettings retriedAgentJob) ends
  rw [Bool.and_eq_true] at both
  have known : ∀ retry, retries 0 retry server = true →
      Known server.db retry fun row => row.retryOfRunId = some 0 := by
    intro retry holds
    unfold retries at holds
    cases found : server.db.jobRuns.get? retry with
    | none => simp [found] at holds
    | some row => exact ⟨row, found, by simpa [found] using holds⟩
  exact ⟨server, reached, known 1 both.1, known 2 both.2⟩

/-- Reports of the same failure that come one after the other retry the run once. -/
theorem reported_again_retried_once : ∃ server : Server, retries 0 1 server = true ∧
    ∀ retry row, server.db.jobRuns.get? retry = some row → row.retryOfRunId = some 0 →
      retry = 1 := by
  have ends : ((runningServer hourSettings).runWithin KeepsChains
      (installation retriedAgentJob)
      ([.begin (.runJob none 1), .returns 0, .returns 0, .begin (.poll 7 none {})] ++
        claimedBackup 1 ++ reportedFailure 2 ++ [.returns 3, .returns 3, .returns 3] ++
        reportedFailure 4 ++ [.returns 5, .returns 5])).any (retries 0 1) = true := by decide
  obtain ⟨server, reached, holds⟩ :=
    System.exists_reachable (fresh_installation hourSettings retriedAgentJob) ends
  refine ⟨server, holds, fun retry row found again => ?_⟩
  cases first : server.db.jobRuns.get? 1 with
  | none => simp [retries, first] at holds
  | some other =>
      have same : other.retryOfRunId = some 0 := by simpa [retries, first] using holds
      exact (retry_chains reached).1 0 retry 1 row other found first again same

end AmberBackup
