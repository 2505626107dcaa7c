import AmberBackup.Lib.Transition
import AmberBackup.Repositories.RepositoriesService
import Mathlib.Data.List.Chain

/-! # Overlapping readings of a repository

Readings of one repository come from the server and from agents, and each is recorded by three
statements: one reads what is cached, one caches the figures, and one appends them to the
history if they changed. The history ends with the cached figures as long as every reading is
compared with what it replaces and the points are appended in the order in which the figures
were cached (`readings_agree`). A call that no other overlaps is `recordStats`
(`recordStats_alone`).
-/

namespace AmberBackup

open Transition

/-! ## Calls -/

/-- A call of `recordStats` between its statements. -/
inductive StatsCall where
  | called (reading : StatsReading)
  /-- With the row that was read. -/
  | selected (reading : StatsReading) (repo : Repository)

structure StatsState where
  row : Repository
  history : List RepositoryStatsHistory := []
  calls : Nat → Option StatsCall := fun _ => none
  /-- The calls that have cached their figures and still append them, in this order. -/
  inserting : List (Nat × RepositoryStatsHistory) := []
  now : Nat := 0

inductive StatsAction where
  | record (call : Nat) (reading : StatsReading)
  | select (call : Nat)
  | update (call : Nat)
  | insert (call : Nat)
  | tick

/-- The state with a call where it has come to. -/
def StatsState.at (state : StatsState) (call : Nat) (phase : Option StatsCall) : StatsState :=
  { state with calls := fun other => if other = call then phase else state.calls other }

/-- The state after the figures are cached. -/
def StatsState.cached (state : StatsState) (id : Uuid) (call : Nat) (reading : StatsReading)
    (repo : Repository) : StatsState :=
  { state.at call none with
    row := reading.apply state.now state.row
    inserting := state.inserting ++ (reading.history id state.now repo).map (call, ·) }

/-- The calls of `recordStats` on one repository that was never read before. -/
def statsCalls (id : Uuid) : System StatsState StatsAction where
  initial state := state.row.sizeBytes = none ∧ state.row.statsAt = none ∧ state.history = [] ∧
    (∀ call, state.calls call = none) ∧ state.inserting = []
  step state
    | .record call reading =>
        if (state.calls call).isNone && !(state.inserting.map Prod.fst).contains call then
          some (state.at call (some (.called reading)))
        else none
    | .select call =>
        match state.calls call with
        | some (.called reading) => some (state.at call (some (.selected reading state.row)))
        | _ => none
    | .update call =>
        match state.calls call with
        | some (.selected reading repo) => some (state.cached id call reading repo)
        | _ => none
    | .insert call =>
        (state.inserting.find? fun entry => entry.1 = call).map fun entry =>
          { state with
            history := state.history ++ [entry.2]
            inserting := state.inserting.eraseP fun entry => entry.1 = call }
    | .tick => some { state with now := state.now + 1 }

/-! ## Agreement -/

def RepositoryStatsHistory.figures (point : RepositoryStatsHistory) : Nat × Nat :=
  (point.sizeBytes, point.snapshotCount)

/-- No call is in progress. -/
def StatsState.Idle (state : StatsState) : Prop :=
  (∀ call, state.calls call = none) ∧ state.inserting = []

/-- The history is one of changes, and ends with what is cached. -/
structure StatsAgree (state : StatsState) : Prop where
  newest : state.Idle → ∀ size, state.row.sizeBytes = some size →
    ∃ count, state.row.snapshotCount = some count ∧
      (state.history.getLast?).map (·.figures) = some (size, count)
  changes : state.history.IsChain fun first second => first.figures ≠ second.figures
  /-- The last point is the newest one. -/
  ordered : state.history.Pairwise fun first second => first.measuredAt ≤ second.measuredAt

/-- The history once the calls that have cached their figures are done. -/
def StatsState.upcoming (state : StatsState) : List RepositoryStatsHistory :=
  state.history ++ state.inserting.map Prod.snd

/-- The figures of the last point, or of the one to come. -/
def StatsState.newest (state : StatsState) : Option (Nat × Nat) :=
  state.upcoming.getLast?.map (·.figures)

/-- The figures are compared with those they replace. Where a size is missing, which counts as
zero, they count as unchanged exactly if the last point has them. -/
structure Compared (state : StatsState) (size count : Nat) (repo : Repository) : Prop where
  sameSize : repo.sizeBytes = state.row.sizeBytes
  sameCount : repo.snapshotCount = state.row.snapshotCount
  sameRead : repo.statsAt = none ↔ state.row.statsAt = none
  missing : state.row.sizeBytes = none → state.row.statsAt ≠ none →
    ((size = 0 ∧ state.row.snapshotCount = some count) ↔ state.newest = some (size, count))

instance (state : StatsState) (size count : Nat) (repo : Repository) :
    Decidable (Compared state size count repo) :=
  decidable_of_iff (repo.sizeBytes = state.row.sizeBytes ∧
      repo.snapshotCount = state.row.snapshotCount ∧
      (repo.statsAt = none ↔ state.row.statsAt = none) ∧
      (state.row.sizeBytes = none → state.row.statsAt ≠ none →
        ((size = 0 ∧ state.row.snapshotCount = some count) ↔
          state.newest = some (size, count))))
    ⟨fun all => ⟨all.1, all.2.1, all.2.2.1, all.2.2.2⟩,
      fun compared => ⟨compared.sameSize, compared.sameCount, compared.sameRead,
        compared.missing⟩⟩

/-- A size is cached by a call that compares it with what it replaces, and the points are
appended in the order in which their figures were cached. -/
def InTurn (state : StatsState) : StatsAction → Prop
  | .update call =>
      match state.calls call with
      | some (.selected (.figures (some size) count) repo) => Compared state size count repo
      | _ => True
  | .insert call => (state.inserting.head?).map Prod.fst = some call
  | .record .. | .select _ | .tick => True

instance : ∀ (state : StatsState) (action : StatsAction), Decidable (InTurn state action)
  | state, .update call => by
      unfold InTurn
      dsimp only
      split <;> infer_instance
  | _, .insert _ => by
      unfold InTurn
      infer_instance
  | _, .record .. | _, .select _ | _, .tick => isTrue trivial

/-! ## The invariant -/

/-- What holds between the statements, of the history that is to come. -/
structure Kept (state : StatsState) : Prop where
  newest : ∀ size, state.row.sizeBytes = some size →
    ∃ count, state.row.snapshotCount = some count ∧ state.newest = some (size, count)
  unread : state.row.statsAt = none → state.row.sizeBytes = none ∧ state.upcoming = []
  changes : state.upcoming.IsChain fun first second => first.figures ≠ second.figures
  ordered : state.upcoming.Pairwise fun first second => first.measuredAt ≤ second.measuredAt
  past : ∀ point ∈ state.upcoming, point.measuredAt ≤ state.now

variable {state next : StatsState} {action : StatsAction} {id : Uuid} {call : Nat}
  {reading : StatsReading} {repo : Repository}

theorem upcoming_cached : (state.cached id call reading repo).upcoming =
    state.upcoming ++ reading.history id state.now repo := by
  unfold StatsState.upcoming StatsState.cached
  dsimp only
  rw [List.map_append, List.map_map, ← List.append_assoc]
  congr 1
  exact List.map_id _

/-- A point whose figures are not those of the last one goes on a history of changes. -/
theorem Kept.append {point : RepositoryStatsHistory} (kept : Kept state)
    (now : point.measuredAt = state.now) (other : state.newest ≠ some point.figures) :
    (state.upcoming ++ [point]).IsChain (fun first second => first.figures ≠ second.figures) ∧
      (state.upcoming ++ [point]).Pairwise
        (fun first second => first.measuredAt ≤ second.measuredAt) ∧
      ∀ earlier ∈ state.upcoming ++ [point], earlier.measuredAt ≤ state.now := by
  refine ⟨?_, ?_, ?_⟩
  · refine List.isChain_append.mpr ⟨kept.changes, List.isChain_singleton _, ?_⟩
    intro last ends first begins same
    cases Option.mem_some_iff.mp begins
    apply other
    rw [StatsState.newest, Option.mem_def.mp ends, Option.map_some, same]
  · refine List.pairwise_append.mpr ⟨kept.ordered, List.pairwise_singleton _ _, ?_⟩
    intro earlier before last ends
    rw [List.mem_singleton.mp ends, now]
    exact kept.past earlier before
  · intro earlier listed
    rcases List.mem_append.mp listed with before | last
    · exact kept.past earlier before
    · rw [List.mem_singleton.mp last, now]

/-- Figures count as unchanged exactly if the last point has them. -/
theorem Kept.unchanged_iff {size count : Nat} (kept : Kept state)
    (compared : Compared state size count repo) :
    ¬ (repo.statsAt = none ∨ repo.sizeBytes.getD 0 ≠ size ∨ repo.snapshotCount ≠ some count) ↔
      state.newest = some (size, count) := by
  rw [compared.sameRead, compared.sameSize, compared.sameCount]
  cases cached : state.row.sizeBytes with
  | some held =>
      obtain ⟨heldCount, counted, newest⟩ := kept.newest held cached
      have read : state.row.statsAt ≠ none := by
        intro unread
        rw [(kept.unread unread).1] at cached
        cases cached
      rw [newest, counted]
      simp [read]
  | none =>
      by_cases unread : state.row.statsAt = none
      · have empty : state.newest = none := by
          rw [StatsState.newest, (kept.unread unread).2]
          rfl
        rw [empty]
        simp [unread]
      · rw [← compared.missing cached unread]
        simp [unread, eq_comm]

/-- A size is cached with a point for it, or the last point has it. -/
theorem Kept.cached_size {size count : Nat} (kept : Kept state)
    (compared : Compared state size count repo) :
    Kept (state.cached id call (.figures (some size) count) repo) := by
  have same := kept.unchanged_iff compared
  have upcoming := @upcoming_cached state id call (.figures (some size) count) repo
  rw [StatsReading.history] at upcoming
  by_cases changed : repo.statsAt = none ∨ repo.sizeBytes.getD 0 ≠ size ∨
      repo.snapshotCount ≠ some count
  · rw [if_pos changed] at upcoming
    obtain ⟨changes, ordered, past⟩ := kept.append
      (rfl : (⟨id, state.now, size, count⟩ : RepositoryStatsHistory).measuredAt = state.now)
      fun equal => same.mpr equal changed
    refine ⟨?_, ?_, ?_, ?_, ?_⟩
    · intro held cached
      cases cached
      refine ⟨count, rfl, ?_⟩
      rw [StatsState.newest, upcoming, List.getLast?_concat]
      rfl
    · intro impossible
      cases impossible
    · rw [upcoming]
      exact changes
    · rw [upcoming]
      exact ordered
    · rw [upcoming]
      exact past
  · rw [if_neg changed, List.append_nil] at upcoming
    refine ⟨?_, ?_, ?_, ?_, ?_⟩
    · intro held cached
      cases cached
      refine ⟨count, rfl, ?_⟩
      rw [StatsState.newest, upcoming]
      exact same.mp changed
    · intro impossible
      cases impossible
    · rw [upcoming]
      exact kept.changes
    · rw [upcoming]
      exact kept.ordered
    · rw [upcoming]
      exact kept.past

theorem Kept.cached (kept : Kept state) (inTurn : ∀ size count,
      reading = .figures (some size) count → Compared state size count repo) :
    Kept (state.cached id call reading repo) := by
  have quiet (empty : reading.history id state.now repo = []) :
      (state.cached id call reading repo).upcoming = state.upcoming := by
    rw [upcoming_cached, empty, List.append_nil]
  cases reading with
  | failed reason =>
      have same := quiet rfl
      refine ⟨?_, ?_, ?_, ?_, ?_⟩
      · intro size cached
        rw [StatsState.newest, same]
        exact kept.newest size cached
      · intro unread
        rw [same]
        exact kept.unread unread
      · rw [same]
        exact kept.changes
      · rw [same]
        exact kept.ordered
      · rw [same]
        exact kept.past
  | figures size count =>
      cases size with
      | none =>
          have same := quiet rfl
          refine ⟨?_, ?_, ?_, ?_, ?_⟩
          · intro size impossible
            cases impossible
          · intro impossible
            cases impossible
          · rw [same]
            exact kept.changes
          · rw [same]
            exact kept.ordered
          · rw [same]
            exact kept.past
      | some size => exact kept.cached_size (inTurn size count rfl)

/-- The oldest of the calls that append their figures. -/
theorem upcoming_insert (first : (state.inserting.head?).map Prod.fst = some call)
    (moved : (statsCalls id).step state (.insert call) = some next) :
    next.upcoming = state.upcoming ∧ next.row = state.row ∧ next.now = state.now := by
  obtain ⟨entry, found, rfl⟩ := Option.map_eq_some_iff.mp moved
  cases waiting : state.inserting with
  | nil =>
      rw [waiting] at first
      cases first
  | cons head rest =>
      rw [waiting] at first found
      have own : head.1 = call := Option.some.inj first
      rw [List.find?_cons_of_pos (by simpa using own)] at found
      cases found
      refine ⟨?_, rfl, rfl⟩
      unfold StatsState.upcoming
      rw [waiting]
      dsimp only
      rw [List.eraseP_cons_of_pos (by simpa using own), List.map_cons, List.append_assoc]
      rfl

theorem Kept.step (kept : Kept state) (inTurn : InTurn state action)
    (moved : (statsCalls id).step state action = some next) : Kept next := by
  cases action with
  | record call reading =>
      obtain ⟨-, same⟩ := Option.ite_none_right_eq_some.mp moved
      cases same
      exact ⟨kept.newest, kept.unread, kept.changes, kept.ordered, kept.past⟩
  | select call =>
      unfold statsCalls at moved
      dsimp only at moved
      split at moved
      · cases moved
        exact ⟨kept.newest, kept.unread, kept.changes, kept.ordered, kept.past⟩
      · cases moved
  | update call =>
      unfold statsCalls at moved
      dsimp only at moved
      split at moved
      case h_1 reading repo selected =>
        cases moved
        refine kept.cached fun size count same => ?_
        rw [same] at selected
        unfold InTurn at inTurn
        simpa only [selected] using inTurn
      case h_2 => cases moved
  | insert call =>
      obtain ⟨upcoming, row, now⟩ := upcoming_insert inTurn moved
      refine ⟨?_, ?_, upcoming ▸ kept.changes, upcoming ▸ kept.ordered, ?_⟩
      · rw [StatsState.newest, upcoming, row]
        exact kept.newest
      · rw [upcoming, row]
        exact kept.unread
      · rw [upcoming, now]
        exact kept.past
  | tick =>
      cases moved
      exact ⟨kept.newest, kept.unread, kept.changes, kept.ordered,
        fun point listed => Nat.le_succ_of_le (kept.past point listed)⟩

theorem statsCalls_keep (id : Uuid) : (statsCalls id).Invariant InTurn Kept where
  initial := by
    rintro state ⟨size, read, history, -, inserting⟩
    have empty : state.upcoming = [] := by
      rw [StatsState.upcoming, history, inserting]
      rfl
    refine ⟨?_, ?_, ?_, ?_, ?_⟩
    · intro held cached
      rw [size] at cached
      cases cached
    · intro _
      exact ⟨size, empty⟩
    · rw [empty]
      exact List.isChain_nil
    · rw [empty]
      exact List.Pairwise.nil
    · rw [empty]
      exact List.forall_mem_nil _
  step _ _ _ kept inTurn moved := kept.step inTurn moved

/-- Once nothing is in progress, the history to come is the history. -/
theorem Kept.agree (kept : Kept state) : StatsAgree state := by
  have changes := kept.changes
  have ordered := kept.ordered
  unfold StatsState.upcoming at changes ordered
  refine ⟨?_, changes.left_of_append, (List.pairwise_append.mp ordered).1⟩
  rintro ⟨-, done⟩ size cached
  obtain ⟨count, counted, newest⟩ := kept.newest size cached
  refine ⟨count, counted, ?_⟩
  rw [← newest, StatsState.newest, StatsState.upcoming, done, List.map_nil, List.append_nil]

/-! ## Failed readings -/

/-- The step is one of a call with a failed reading. -/
def OfFailed (state : StatsState) : StatsAction → Prop
  | .record _ reading => ∃ reason, reading = .failed reason
  | .select call => ∃ reason, state.calls call = some (.called (.failed reason))
  | .update call => ∃ reason repo, state.calls call = some (.selected (.failed reason) repo)
  | .insert _ | .tick => False

/-- A failed reading changes nothing but why it failed. -/
theorem ofFailed_step (failed : OfFailed state action)
    (moved : (statsCalls id).step state action = some next) :
    { next.row with statsError := state.row.statsError } = state.row ∧
      next.history = state.history ∧ next.inserting = state.inserting := by
  cases action with
  | record call reading =>
      obtain ⟨-, same⟩ := Option.ite_none_right_eq_some.mp moved
      cases same
      exact ⟨rfl, rfl, rfl⟩
  | select call =>
      obtain ⟨reason, called⟩ := failed
      unfold statsCalls at moved
      simp only [called, Option.some.injEq] at moved
      cases moved
      exact ⟨rfl, rfl, rfl⟩
  | update call =>
      obtain ⟨reason, repo, selected⟩ := failed
      unfold statsCalls at moved
      simp only [selected, Option.some.injEq] at moved
      cases moved
      exact ⟨rfl, rfl, List.append_nil _⟩
  | insert call => cases failed
  | tick => cases failed

/-! ## One call on its own -/

theorem StatsReading.history_cases (id : Uuid) (now : Nat) (repo : Repository)
    (reading : StatsReading) :
    reading.history id now repo = [] ∨ ∃ point, reading.history id now repo = [point] := by
  cases reading with
  | failed reason => exact .inl rfl
  | figures size count =>
      cases size with
      | none => exact .inl rfl
      | some size =>
          rw [StatsReading.history]
          split
          · exact .inr ⟨_, rfl⟩
          · exact .inl rfl

/-- The state after a call whose statements no other call comes between. -/
def StatsState.recorded (state : StatsState) (id : Uuid) (reading : StatsReading) : StatsState :=
  { state with
    row := reading.apply state.now state.row
    history := state.history ++ reading.history id state.now state.row }

theorem statsCalls_alone (idle : state.Idle) (call : Nat) (reading : StatsReading) :
    (statsCalls id).Steps (fun _ _ => True) state (state.recorded id reading) := by
  obtain ⟨free, done⟩ := idle
  have begun : (statsCalls id).step state (.record call reading) =
      some (state.at call (some (.called reading))) := by
    unfold statsCalls
    dsimp only
    rw [free, done]
    rfl
  have read : (statsCalls id).step (state.at call (some (.called reading))) (.select call) =
      some ((state.at call (some (.called reading))).at call
        (some (.selected reading state.row))) := by
    unfold statsCalls StatsState.at
    simp only [if_true]
  have freed : (fun other => if other = call then none else
        if other = call then some (StatsCall.selected reading state.row) else
          if other = call then some (.called reading) else state.calls other) = state.calls := by
    funext other
    by_cases own : other = call
    · rw [if_pos own, free]
    · rw [if_neg own, if_neg own, if_neg own]
  have wrote : (statsCalls id).step ((state.at call (some (.called reading))).at call
        (some (.selected reading state.row))) (.update call) =
      some { state.recorded id reading with
        history := state.history
        inserting := (reading.history id state.now state.row).map (call, ·) } := by
    unfold statsCalls StatsState.at StatsState.cached StatsState.at StatsState.recorded
    simp only [if_true, freed, done, List.nil_append]
  have steps : (statsCalls id).Steps (fun _ _ => True) state _ :=
    .tail (.tail (.tail (.refl state) trivial begun) trivial read) trivial wrote
  rcases StatsReading.history_cases id state.now state.row reading with none | ⟨point, one⟩
  · have same : { state.recorded id reading with
        history := state.history
        inserting := (reading.history id state.now state.row).map (call, ·) } =
        state.recorded id reading := by
      unfold StatsState.recorded
      rw [none, List.append_nil, List.map_nil, ← done]
    rw [same] at steps
    exact steps
  · have appended : (statsCalls id).step { state.recorded id reading with
          history := state.history
          inserting := (reading.history id state.now state.row).map (call, ·) } (.insert call) =
        some (state.recorded id reading) := by
      unfold statsCalls
      dsimp only
      rw [one, List.map_singleton, List.find?_cons_of_pos (by simp),
        List.eraseP_cons_of_pos (by simp)]
      unfold StatsState.recorded
      rw [one, ← done]
      rfl
    exact steps.tail trivial appended

/-- Recording a reading is a call on its own. -/
theorem recordStats_alone {world : World}
    (present : world.db.repositories.get? id = some state.row) (now : world.now = state.now)
    (listed : (world.db.repositoryStatsHistory.filter fun point => point.repositoryId = id) =
      state.history) (idle : state.Idle) :
    ∃ next, (statsCalls id).Steps (fun _ _ => True) state next ∧
      ((recordStats id reading).run world).2.db.repositories.get? id = some next.row ∧
      (((recordStats id reading).run world).2.db.repositoryStatsHistory.filter fun point =>
        point.repositoryId = id) = next.history := by
  refine ⟨state.recorded id reading, statsCalls_alone idle 0 reading, ?_⟩
  rw [recordStats_run present]
  unfold Db.withReading StatsState.recorded
  dsimp only
  constructor
  · rw [Relational.Table.get?_update, present, now]
    simp
  · have own : ∀ point ∈ reading.history id world.now state.row,
        decide (point.repositoryId = id) = true := by
      intro point appended
      cases reading with
      | failed reason => cases appended
      | figures size count =>
          cases size with
          | none => cases appended
          | some size =>
              rw [StatsReading.history] at appended
              split at appended
              · rw [List.mem_singleton.mp appended]
                exact decide_eq_true rfl
              · cases appended
    rw [List.filter_append, listed, List.filter_eq_self.mpr own, now]

/-! ## Figures and history -/

/-- **The history ends with the cached figures.** So it is in every run whose readings are
compared with what they replace and whose points are appended in turn. A failed reading never
touches the figures. -/
theorem readings_agree (id : Uuid) :
    (∀ state, (statsCalls id).Reachable InTurn state → StatsAgree state) ∧
    ∀ state action next, OfFailed state action → (statsCalls id).step state action = some next →
      { next.row with statsError := state.row.statsError } = state.row ∧
        next.history = state.history ∧ next.inserting = state.inserting :=
  ⟨fun _ reached => ((statsCalls_keep id).holds reached).agree,
    fun _ _ _ failed moved => ofFailed_step failed moved⟩

/-- A repository that was never read. -/
def unreadState : StatsState where
  row := { name := "nightly", targetId := none, repoConfig := [], repoPasswordSecretId := 0 }

theorem unreadState_initial (id : Uuid) : (statsCalls id).initial unreadState :=
  ⟨rfl, rfl, rfl, fun _ => rfl, rfl⟩

/-- Without a size in between, the same figures are appended twice. -/
theorem readings_do_not_always_agree :
    ¬ ∀ (id : Uuid) (state : StatsState),
      (statsCalls id).Reachable (fun _ _ => True) state → StatsAgree state := by
  intro always
  have ends : ((statsCalls 0).runWithin (fun _ _ => True) unreadState
      [.record 0 (.figures (some 100) 3), .select 0, .update 0, .insert 0,
        .record 1 (.figures none 3), .select 1, .update 1,
        .record 2 (.figures (some 100) 3), .select 2, .update 2, .insert 2]).any
      (fun state => state.history.map (·.figures) == [(100, 3), (100, 3)]) = true := by
    decide +kernel
  obtain ⟨state, reached, figures⟩ := System.exists_reachable (unreadState_initial 0) ends
  have changes := (always 0 state reached).changes
  have apart : (state.history.map (·.figures)).IsChain (· ≠ ·) :=
    (List.isChain_map _).mpr changes
  rw [beq_iff_eq.mp figures] at apart
  revert apart
  decide

/-- Two overlapping readings, the second of which is compared with the first. -/
theorem growth_recorded : ∃ state, (statsCalls 0).Reachable InTurn state ∧
    state.history.map (·.figures) = [(100, 3), (120, 4)] ∧ StatsAgree state := by
  have ends : ((statsCalls 0).runWithin InTurn unreadState
      [.record 0 (.figures (some 100) 3), .select 0, .update 0, .tick,
        .record 1 (.figures (some 120) 4), .select 1, .insert 0, .update 1, .insert 1]).any
      (fun state => state.history.map (·.figures) == [(100, 3), (120, 4)]) = true := by
    decide +kernel
  obtain ⟨state, reached, figures⟩ := System.exists_reachable (unreadState_initial 0) ends
  exact ⟨state, reached, beq_iff_eq.mp figures, (readings_agree 0).1 state reached⟩

end AmberBackup
