import AmberBackup.Database.Types
import AmberBackup.Lib.NatDouble
import Mathlib.Algebra.BigOperators.Group.Finset.Basic
import Mathlib.Data.List.MinMax
import Mathlib.Data.List.Sort

/-! # The storage chart

The server selects the readings of a window, and for each repository the last one before it. The
client folds them into one series, whose value at an instant is that of the last point up to
there. It is the sum of the latest readings of the repositories, as far as doubles hold it
(`series_steps`).
-/

namespace AmberBackup

/-! ## Readings -/

/-- A reading as the server returns it. -/
structure HistoryPoint where
  repositoryId : Uuid
  measuredAt : Nat
  sizeBytes : NatDouble
  deriving DecidableEq, Repr

def RepositoryStatsHistory.point (reading : RepositoryStatsHistory) : HistoryPoint where
  repositoryId := reading.repositoryId
  measuredAt := reading.measuredAt
  sizeBytes := .ofNat reading.sizeBytes

/-- `sort((a, b) => +a.measured_at - +b.measured_at)`, a stable sort. -/
def byTime (points : List HistoryPoint) : List HistoryPoint :=
  points.insertionSort fun first second => first.measuredAt ≤ second.measuredAt

/-- The last reading of a repository before an instant. -/
def lastBefore (history : List RepositoryStatsHistory) (since : Nat) (id : Uuid) :
    Option RepositoryStatsHistory :=
  (history.filter fun reading => reading.repositoryId = id && reading.measuredAt < since).argmax
    RepositoryStatsHistory.measuredAt

/-- `statsHistory`, for the repositories whose job the user can view. -/
def statsHistory (history : List RepositoryStatsHistory) (repoIds : List Uuid) (since : Nat) :
    List HistoryPoint :=
  let inside := (history.filter fun reading =>
      reading.repositoryId ∈ repoIds && since ≤ reading.measuredAt).insertionSort
    fun first second => first.measuredAt ≤ second.measuredAt
  let before := (repoIds.dedup.insertionSort (· ≤ ·)).filterMap (lastBefore history since)
  if repoIds = [] then [] else byTime ((before ++ inside).map RepositoryStatsHistory.point)

/-! ## The series -/

structure StoragePoint where
  t : Nat
  bytes : NatDouble
  deriving DecidableEq, Repr

/-- `Map.set`. -/
def setLatest (id : Uuid) (bytes : NatDouble) : List (Uuid × NatDouble) → List (Uuid × NatDouble)
  | [] => [(id, bytes)]
  | (other, held) :: rest =>
      if other = id then (id, bytes) :: rest else (other, held) :: setLatest id bytes rest

def sumBytes (latest : List (Uuid × NatDouble)) : NatDouble := NatDouble.sum (latest.map Prod.snd)

/-- The variables of the loop over the readings. -/
structure SeriesState where
  latest : List (Uuid × NatDouble) := []
  seeded : Bool := false
  out : List StoragePoint := []

/-- The points so far, with the one at the window start if it is still to come. -/
def SeriesState.flushed (state : SeriesState) (since : Nat) : List StoragePoint :=
  if state.seeded then state.out ++ [{ t := since, bytes := sumBytes state.latest }] else state.out

def SeriesState.add (since : Nat) (state : SeriesState) (point : HistoryPoint) : SeriesState :=
  let latest := setLatest point.repositoryId point.sizeBytes state.latest
  if point.measuredAt < since then { state with latest, seeded := true }
  else
    { latest
      seeded := false
      out := state.flushed since ++ [{ t := point.measuredAt, bytes := sumBytes latest }] }

def totalStorageSeries (points : List HistoryPoint) (since now : Nat) : List StoragePoint :=
  let out := ((byTime points).foldl (SeriesState.add since) {}).flushed since
  out ++ (out.getLast?.map fun last => { t := now, bytes := last.bytes }).toList

/-- The last point at or before an instant. -/
def pointAt (series : List StoragePoint) (x : Nat) : Option StoragePoint :=
  (series.filter fun point => point.t ≤ x).getLast?

/-! ## What the series should be -/

/-- The latest reading of a repository at or before an instant. -/
def readingAt (history : List RepositoryStatsHistory) (x : Nat) (id : Uuid) :
    Option RepositoryStatsHistory :=
  lastBefore history (x + 1) id

/-- The sum of the latest readings at or before an instant. -/
def totalAt (history : List RepositoryStatsHistory) (repoIds : List Uuid) (x : Nat) : Nat :=
  (repoIds.dedup.map fun id => ((readingAt history x id).map (·.sizeBytes)).getD 0).sum

/-! ## The fold -/

/-- The latest sizes after the points. -/
def latestOf (points : List HistoryPoint) : List (Uuid × NatDouble) :=
  points.foldl (fun latest point => setLatest point.repositoryId point.sizeBytes latest) []

def upTo (x : Nat) (points : List HistoryPoint) : List HistoryPoint :=
  points.filter fun point => point.measuredAt ≤ x

/-- What the points up to an instant add up to, if there are any. -/
def stepValue (points : List HistoryPoint) (x : Nat) : Option NatDouble :=
  if upTo x points = [] then none else some (sumBytes (latestOf (upTo x points)))

/-- What holds of the loop after some points. -/
structure Charted (since : Nat) (points : List HistoryPoint) (state : SeriesState) : Prop where
  latest : state.latest = latestOf points
  seeded : state.seeded = true → points ≠ [] ∧ ∀ point ∈ points, point.measuredAt < since
  unseeded : state.seeded = false → points = [] ∨ ∃ point ∈ points, since ≤ point.measuredAt
  /-- There is no point before one in the window. -/
  within : ∀ point ∈ state.out, since ≤ point.t ∧ ∃ source ∈ points, point.t ≤ source.measuredAt
  ordered : state.out.Pairwise fun first second => first.t ≤ second.t
  values : ∀ x, since ≤ x → (pointAt (state.flushed since) x).map (·.bytes) = stepValue points x

variable {since now x : Nat} {points : List HistoryPoint} {point : HistoryPoint}
  {state : SeriesState} {series : List StoragePoint} {last : StoragePoint}

theorem pointAt_concat : pointAt (series ++ [last]) x =
    if last.t ≤ x then some last else pointAt series x := by
  unfold pointAt
  rw [List.filter_append]
  by_cases reached : last.t ≤ x
  · rw [if_pos reached, List.filter_cons_of_pos (by simpa using reached), List.filter_nil,
      List.getLast?_concat]
  · rw [if_neg reached, List.filter_cons_of_neg (by simpa using reached), List.filter_nil,
      List.append_nil]

theorem latestOf_concat : latestOf (points ++ [point]) =
    setLatest point.repositoryId point.sizeBytes (latestOf points) :=
  List.foldl_concat ..

theorem stepValue_concat (early : x < point.measuredAt) :
    stepValue (points ++ [point]) x = stepValue points x := by
  have same : upTo x (points ++ [point]) = upTo x points := by
    unfold upTo
    rw [List.filter_append, List.filter_cons_of_neg (by simpa using early), List.filter_nil,
      List.append_nil]
  rw [stepValue, stepValue, same]

theorem stepValue_of_le (nonempty : points ≠ []) (all : ∀ point ∈ points, point.measuredAt ≤ x) :
    stepValue points x = some (sumBytes (latestOf points)) := by
  have same : upTo x points = points :=
    List.filter_eq_self.mpr fun point listed => decide_eq_true (all point listed)
  rw [stepValue, same, if_neg nonempty]

theorem Charted.out_of_seeded (charted : Charted since points state)
    (seeded : state.seeded = true) : state.out = [] := by
  apply List.eq_nil_iff_forall_not_mem.mpr
  intro point listed
  obtain ⟨window, source, member, bound⟩ := charted.within point listed
  have early := (charted.seeded seeded).2 source member
  omega

theorem Charted.initial : Charted since [] {} where
  latest := rfl
  seeded := fun impossible => absurd impossible Bool.false_ne_true
  unseeded := fun _ => .inl rfl
  within := fun _ listed => absurd listed List.not_mem_nil
  ordered := .nil
  values := fun _ _ => rfl

/-- The points that a reading in the window finds are in the window and before it. -/
theorem Charted.flushed_within (charted : Charted since points state)
    (sorted : ∀ source ∈ points, source.measuredAt ≤ point.measuredAt)
    (inside : since ≤ point.measuredAt) :
    ∀ earlier ∈ state.flushed since, since ≤ earlier.t ∧ earlier.t ≤ point.measuredAt := by
  intro earlier listed
  unfold SeriesState.flushed at listed
  split at listed
  · rcases List.mem_append.mp listed with before | start
    · obtain ⟨window, source, member, bound⟩ := charted.within earlier before
      exact ⟨window, bound.trans (sorted source member)⟩
    · rw [List.mem_singleton.mp start]
      exact ⟨Nat.le_refl _, inside⟩
  · obtain ⟨window, source, member, bound⟩ := charted.within earlier listed
    exact ⟨window, bound.trans (sorted source member)⟩

theorem Charted.flushed_ordered (charted : Charted since points state) :
    (state.flushed since).Pairwise fun first second => first.t ≤ second.t := by
  unfold SeriesState.flushed
  split
  case isTrue seeded =>
    rw [charted.out_of_seeded seeded]
    exact List.pairwise_singleton _ _
  case isFalse => exact charted.ordered

theorem Charted.add (charted : Charted since points state)
    (sorted : ∀ source ∈ points, source.measuredAt ≤ point.measuredAt) :
    Charted since (points ++ [point]) (state.add since point) := by
  unfold SeriesState.add
  dsimp only
  rw [charted.latest, ← latestOf_concat]
  by_cases early : point.measuredAt < since
  · -- Nothing is drawn before the window starts.
    rw [if_pos early]
    have allEarly : ∀ source ∈ points ++ [point], source.measuredAt < since := by
      intro source listed
      rcases List.mem_append.mp listed with before | new
      · exact (sorted source before).trans_lt early
      · rwa [List.mem_singleton.mp new]
    have empty : state.out = [] := by
      apply List.eq_nil_iff_forall_not_mem.mpr
      intro drawn listed
      obtain ⟨window, source, member, bound⟩ := charted.within drawn listed
      have first := allEarly source (List.mem_append_left _ member)
      omega
    have nonempty : points ++ [point] ≠ [] := List.append_ne_nil_of_right_ne_nil _ (List.cons_ne_nil _ _)
    refine ⟨rfl, fun _ => ⟨nonempty, allEarly⟩, fun impossible => absurd impossible.symm
      Bool.false_ne_true, ?_, ?_, ?_⟩
    · intro drawn listed
      rw [empty] at listed
      cases listed
    · rw [empty]
      exact .nil
    · intro x window
      rw [stepValue_of_le nonempty fun source listed => ((allEarly source listed).trans_le window).le]
      unfold SeriesState.flushed
      rw [if_pos rfl, empty, pointAt_concat, if_pos window]
      rfl
  · rw [if_neg early]
    have inside : since ≤ point.measuredAt := Nat.not_lt.mp early
    have drawn := charted.flushed_within sorted inside
    refine ⟨rfl, fun impossible => absurd impossible Bool.false_ne_true, fun _ => .inr
      ⟨point, List.mem_append_right _ List.mem_cons_self, inside⟩, ?_, ?_, ?_⟩
    · intro other listed
      refine ⟨?_, point, List.mem_append_right _ List.mem_cons_self, ?_⟩
      · rcases List.mem_append.mp listed with before | new
        · exact (drawn other before).1
        · rwa [List.mem_singleton.mp new]
      · rcases List.mem_append.mp listed with before | new
        · exact (drawn other before).2
        · rw [List.mem_singleton.mp new]
    · refine List.pairwise_append.mpr ⟨charted.flushed_ordered, List.pairwise_singleton _ _, ?_⟩
      intro first before second new
      rw [List.mem_singleton.mp new]
      exact (drawn first before).2
    · intro x window
      change (pointAt (state.flushed since ++ [_]) x).map _ = _
      rw [pointAt_concat]
      by_cases reached : point.measuredAt ≤ x
      · rw [if_pos reached, stepValue_of_le
          (List.append_ne_nil_of_right_ne_nil _ (List.cons_ne_nil _ _)) ?_]
        · rfl
        · intro source listed
          rcases List.mem_append.mp listed with before | new
          · exact (sorted source before).trans reached
          · rwa [List.mem_singleton.mp new]
      · rw [if_neg reached, stepValue_concat (Nat.not_le.mp reached)]
        exact charted.values x window

/-- What holds of the loop after all points. -/
theorem charted_foldl (sorted : points.Pairwise fun first second =>
      first.measuredAt ≤ second.measuredAt) :
    Charted since points (points.foldl (SeriesState.add since) {}) := by
  induction points using List.reverseRecOn with
  | nil => exact Charted.initial
  | append_singleton points point ih =>
      obtain ⟨before, -, bound⟩ := List.pairwise_append.mp sorted
      rw [List.foldl_concat]
      exact (ih before).add fun source listed => bound source listed point List.mem_cons_self

/-! ## The series of a selection -/

theorem byTime_perm (points : List HistoryPoint) : (byTime points).Perm points :=
  List.perm_insertionSort _ _

instance : Std.Total fun first second : HistoryPoint => first.measuredAt ≤ second.measuredAt :=
  ⟨fun _ _ => Nat.le_total _ _⟩

instance : IsTrans HistoryPoint fun first second => first.measuredAt ≤ second.measuredAt :=
  ⟨fun _ _ _ => Nat.le_trans⟩

theorem byTime_sorted (points : List HistoryPoint) :
    (byTime points).Pairwise fun first second => first.measuredAt ≤ second.measuredAt :=
  List.pairwise_insertionSort _ points

/-- No point is drawn behind the present. -/
theorem Charted.flushed_past (charted : Charted since points state) (window : since ≤ now)
    (past : ∀ point ∈ points, point.measuredAt ≤ now) :
    ∀ point ∈ state.flushed since, point.t ≤ now := by
  intro point listed
  have source : ∀ point ∈ state.out, point.t ≤ now := by
    intro point listed
    obtain ⟨-, source, member, bound⟩ := charted.within point listed
    exact bound.trans (past source member)
  unfold SeriesState.flushed at listed
  split at listed
  · rcases List.mem_append.mp listed with before | start
    · exact source point before
    · rwa [List.mem_singleton.mp start]
  · exact source point listed

/-- The series as a step function of the points, in order, up to the present. -/
theorem series_of_points (window : since ≤ now)
    (past : ∀ point ∈ points, point.measuredAt ≤ now) :
    (∀ x, since ≤ x → x ≤ now →
      (pointAt (totalStorageSeries points since now) x).map (·.bytes) =
        stepValue (byTime points) x) ∧
      (totalStorageSeries points since now).Pairwise (fun first second => first.t ≤ second.t) ∧
      ∀ last, (totalStorageSeries points since now).getLast? = some last → last.t = now := by
  have charted := @charted_foldl since _ (byTime_sorted points)
  have ordered := charted.flushed_ordered
  have drawn := charted.flushed_past window fun point listed =>
    past point ((byTime_perm points).mem_iff.mp listed)
  have values := charted.values
  unfold totalStorageSeries
  dsimp only
  generalize ((byTime points).foldl (SeriesState.add since) {}).flushed since = out at *
  cases ends : out.getLast? with
  | none =>
      rw [Option.map_none, Option.toList_none, List.append_nil]
      refine ⟨fun x start _ => values x start, ordered, fun last found => ?_⟩
      rw [ends] at found
      cases found
  | some last =>
      rw [Option.map_some, Option.toList_some]
      refine ⟨?_, ?_, ?_⟩
      · intro x start stop
        rw [← values x start, pointAt_concat]
        split
        case isTrue reached =>
          have all : out.filter (fun point => point.t ≤ x) = out :=
            List.filter_eq_self.mpr fun point listed =>
              decide_eq_true ((drawn point listed).trans reached)
          rw [pointAt, all, ends, Option.map_some, Option.map_some]
        case isFalse => rfl
      · refine List.pairwise_append.mpr ⟨ordered, List.pairwise_singleton _ _, ?_⟩
        intro first before second new
        rw [List.mem_singleton.mp new]
        exact drawn first before
      · intro end' found
        rw [List.getLast?_concat] at found
        exact (Option.some.inj found) ▸ rfl

/-! ## The latest sizes -/

section Latest

variable {id other : Uuid} {bytes held : NatDouble} {latest : List (Uuid × NatDouble)}

theorem setLatest_keys (id : Uuid) (bytes : NatDouble) (latest : List (Uuid × NatDouble)) :
    (setLatest id bytes latest).map Prod.fst =
      if id ∈ latest.map Prod.fst then latest.map Prod.fst else latest.map Prod.fst ++ [id] := by
  induction latest with
  | nil => rfl
  | cons entry rest ih =>
      rw [setLatest, List.map_cons]
      by_cases same : entry.1 = id
      · rw [if_pos same, if_pos (List.mem_cons.mpr (.inl same.symm)), List.map_cons, same]
      · rw [if_neg same, List.map_cons, ih]
        by_cases later : id ∈ rest.map Prod.fst
        · rw [if_pos later, if_pos (List.mem_cons_of_mem _ later)]
        · rw [if_neg later, if_neg fun listed =>
            (List.mem_cons.mp listed).elim (fun equal => same equal.symm) later]
          rfl

theorem mem_setLatest (distinct : (latest.map Prod.fst).Nodup) :
    (other, held) ∈ setLatest id bytes latest ↔
      (other = id ∧ held = bytes) ∨ (other ≠ id ∧ (other, held) ∈ latest) := by
  induction latest with
  | nil =>
      rw [setLatest, List.mem_singleton, Prod.mk.injEq]
      simp
  | cons entry rest ih =>
      rw [List.map_cons, List.nodup_cons] at distinct
      rw [setLatest]
      by_cases same : entry.1 = id
      · rw [if_pos same, List.mem_cons, List.mem_cons, Prod.mk.injEq]
        have absent : (other, held) ∈ rest → other ≠ id := by
          rintro listed rfl
          exact distinct.1 (same ▸ List.mem_map_of_mem listed)
        have first : (other, held) = entry → other = id := by
          rintro rfl
          exact same
        tauto
      · rw [if_neg same, List.mem_cons, List.mem_cons, ih distinct.2]
        have first : (other, held) = entry → other ≠ id := by
          rintro rfl
          exact same
        tauto

/-- The size of the last point of a repository. -/
def lastOf (points : List HistoryPoint) (id : Uuid) : Option NatDouble :=
  ((points.filter fun point => point.repositoryId = id).getLast?).map (·.sizeBytes)

theorem lastOf_concat (points : List HistoryPoint) (point : HistoryPoint) (id : Uuid) :
    lastOf (points ++ [point]) id =
      if point.repositoryId = id then some point.sizeBytes else lastOf points id := by
  unfold lastOf
  rw [List.filter_append]
  by_cases own : point.repositoryId = id
  · rw [if_pos own, List.filter_cons_of_pos (by simpa using own), List.filter_nil,
      List.getLast?_concat, Option.map_some]
  · rw [if_neg own, List.filter_cons_of_neg (by simpa using own), List.filter_nil,
      List.append_nil]

/-- The map holds the size of the last point of each repository. -/
theorem latestOf_spec (points : List HistoryPoint) :
    ((latestOf points).map Prod.fst).Nodup ∧
      ∀ id bytes, (id, bytes) ∈ latestOf points ↔ lastOf points id = some bytes := by
  induction points using List.reverseRecOn with
  | nil => exact ⟨List.nodup_nil, fun id bytes => by simp [latestOf, lastOf]⟩
  | append_singleton points point ih =>
      obtain ⟨distinct, held⟩ := ih
      rw [latestOf_concat, setLatest_keys]
      refine ⟨?_, ?_⟩
      · split
        case isTrue => exact distinct
        case isFalse new =>
          exact distinct.append (List.nodup_singleton _) (List.disjoint_singleton.mpr new)
      · intro id bytes
        rw [mem_setLatest distinct, held, lastOf_concat]
        by_cases own : point.repositoryId = id
        · rw [if_pos own, Option.some_inj, own]
          simp [eq_comm]
        · rw [if_neg own]
          simp [Ne.symm own]

/-- Sizes that are exact add up to the total of the repositories. -/
theorem sumBytes_latestOf {repoIds : List Uuid} {size : Uuid → Nat}
    (known : ∀ point ∈ points, point.repositoryId ∈ repoIds)
    (sizes : ∀ id ∈ repoIds, ((lastOf points id).getD (.ofNat 0)) = .ofNat (size id) ∧
      (lastOf points id = none → size id = 0))
    (small : (repoIds.dedup.map size).sum ≤ 2 ^ 53) :
    sumBytes (latestOf points) = .finite (repoIds.dedup.map size).sum := by
  obtain ⟨distinct, held⟩ := latestOf_spec points
  have inside : ∀ id ∈ (latestOf points).map Prod.fst, id ∈ repoIds := by
    intro id listed
    obtain ⟨⟨key, bytes⟩, member, rfl⟩ := List.mem_map.mp listed
    obtain ⟨point, found, -⟩ := Option.map_eq_some_iff.mp ((held key bytes).mp member)
    have source := List.mem_filter.mp (List.mem_of_getLast? found)
    exact of_decide_eq_true source.2 ▸ known point source.1
  have values : (latestOf points).map Prod.snd =
      (((latestOf points).map Prod.fst).map size).map NatDouble.ofNat := by
    rw [List.map_map, List.map_map]
    apply List.map_congr_left
    rintro ⟨id, bytes⟩ member
    have last := (held id bytes).mp member
    have exact' := (sizes id (inside id (List.mem_map_of_mem member))).1
    rw [last, Option.getD_some] at exact'
    exact exact'
  have total : (((latestOf points).map Prod.fst).map size).sum = (repoIds.dedup.map size).sum := by
    rw [← List.sum_toFinset size distinct, ← List.sum_toFinset size (List.nodup_dedup repoIds)]
    apply Finset.sum_subset
    · intro id listed
      exact List.mem_toFinset.mpr (List.mem_dedup.mpr (inside id (List.mem_toFinset.mp listed)))
    · intro id listed absent
      apply (sizes id (List.mem_dedup.mp (List.mem_toFinset.mp listed))).2
      rw [Option.eq_none_iff_forall_ne_some]
      intro bytes last
      exact absent (List.mem_toFinset.mpr
        (List.mem_map_of_mem ((held id bytes).mpr last)))
  rw [sumBytes, values, NatDouble.sum_of_le (total.trans_le small), total]

end Latest

/-! ## The selection of the server -/

section Selection

variable {history : List RepositoryStatsHistory} {repoIds : List Uuid} {id : Uuid}
  {reading other : RepositoryStatsHistory}

/-- A reading of a repository before an instant is no later than the last one. -/
theorem exists_lastBefore (listed : reading ∈ history) (own : reading.repositoryId = id)
    (early : reading.measuredAt < since) :
    ∃ last, lastBefore history since id = some last ∧ reading.measuredAt ≤ last.measuredAt := by
  have member : reading ∈ history.filter fun reading =>
      reading.repositoryId = id && reading.measuredAt < since :=
    List.mem_filter.mpr ⟨listed, by simp [own, early]⟩
  cases found : lastBefore history since id with
  | none =>
      rw [List.argmax_eq_none.mp found] at member
      cases member
  | some last => exact ⟨last, rfl, List.le_of_mem_argmax member found⟩

theorem of_lastBefore (found : lastBefore history since id = some reading) :
    reading ∈ history ∧ reading.repositoryId = id ∧ reading.measuredAt < since := by
  obtain ⟨listed, met⟩ := List.mem_filter.mp (List.argmax_mem found)
  simp only [Bool.and_eq_true, decide_eq_true_eq] at met
  exact ⟨listed, met⟩

theorem mem_statsHistory {point : HistoryPoint} :
    point ∈ statsHistory history repoIds since ↔ ∃ reading, point = reading.point ∧
      ((∃ id ∈ repoIds, lastBefore history since id = some reading) ∨
        (reading ∈ history ∧ reading.repositoryId ∈ repoIds ∧ since ≤ reading.measuredAt)) := by
  unfold statsHistory
  dsimp only
  split
  case isTrue none => simp [none]
  case isFalse =>
    rw [(byTime_perm _).mem_iff, List.mem_map]
    simp only [List.mem_append, List.mem_filterMap, List.mem_insertionSort, List.mem_dedup,
      List.mem_filter, Bool.and_eq_true, decide_eq_true_eq]
    constructor
    · rintro ⟨reading, selected, rfl⟩
      exact ⟨reading, rfl, selected⟩
    · rintro ⟨reading, rfl, selected⟩
      exact ⟨reading, selected, rfl⟩

/-- A selected point is a reading of one of the repositories. -/
theorem of_mem_statsHistory {point : HistoryPoint}
    (listed : point ∈ statsHistory history repoIds since) :
    ∃ reading ∈ history, reading.repositoryId ∈ repoIds ∧ point = reading.point := by
  obtain ⟨reading, rfl, ⟨id, known, found⟩ | ⟨member, known, -⟩⟩ := mem_statsHistory.mp listed
  · obtain ⟨member, own, -⟩ := of_lastBefore found
    exact ⟨reading, member, own ▸ known, rfl⟩
  · exact ⟨reading, member, known, rfl⟩

/-- The selection has a point between a reading and an instant of the window. -/
theorem exists_selected (listed : reading ∈ history) (known : reading.repositoryId ∈ repoIds)
    (reached : reading.measuredAt ≤ x) (window : since ≤ x) :
    ∃ point ∈ statsHistory history repoIds since,
      point.repositoryId = reading.repositoryId ∧ reading.measuredAt ≤ point.measuredAt ∧
        point.measuredAt ≤ x := by
  rcases Nat.lt_or_ge reading.measuredAt since with early | inside
  · obtain ⟨last, found, later⟩ := exists_lastBefore listed rfl early
    obtain ⟨-, own, before⟩ := of_lastBefore found
    exact ⟨last.point, mem_statsHistory.mpr ⟨last, rfl, .inl ⟨_, known, found⟩⟩, own, later,
      (before.trans_le window).le⟩
  · exact ⟨reading.point, mem_statsHistory.mpr ⟨reading, rfl, .inr ⟨listed, known, inside⟩⟩, rfl,
      Nat.le_refl _, reached⟩

/-- The last of sorted points is the latest one. -/
theorem le_getLast {points : List HistoryPoint} {point last : HistoryPoint}
    (sorted : points.Pairwise fun first second => first.measuredAt ≤ second.measuredAt)
    (ends : points.getLast? = some last) (listed : point ∈ points) :
    point.measuredAt ≤ last.measuredAt := by
  obtain ⟨front, rfl⟩ := List.getLast?_eq_some_iff.mp ends
  rcases List.mem_append.mp listed with before | final
  · exact (List.pairwise_append.mp sorted).2.2 point before last List.mem_cons_self
  · rw [List.mem_singleton.mp final]

/-- The last of the points up to an instant is the reading that counts there. -/
theorem lastOf_selected
    (distinct : (history.map fun reading => (reading.repositoryId, reading.measuredAt)).Nodup)
    (window : since ≤ x) (known : id ∈ repoIds) :
    lastOf (upTo x (byTime (statsHistory history repoIds since))) id =
      (readingAt history x id).map (.ofNat ·.sizeBytes) := by
  have perm := byTime_perm (statsHistory history repoIds since)
  have sorted := byTime_sorted (statsHistory history repoIds since)
  have covered : ∀ reading ∈ history, reading.repositoryId = id → reading.measuredAt ≤ x →
      ∃ point ∈ (upTo x (byTime (statsHistory history repoIds since))).filter
        fun point => point.repositoryId = id, reading.measuredAt ≤ point.measuredAt := by
    rintro reading listed rfl reached
    obtain ⟨point, selected, own, later, before⟩ := exists_selected listed known reached window
    refine ⟨point, ?_, later⟩
    exact List.mem_filter.mpr ⟨List.mem_filter.mpr ⟨perm.mem_iff.mpr selected,
      decide_eq_true before⟩, decide_eq_true own⟩
  unfold lastOf
  cases ends : ((upTo x (byTime (statsHistory history repoIds since))).filter
      fun point => point.repositoryId = id).getLast? with
  | none =>
      have empty := List.getLast?_eq_none_iff.mp ends
      cases found : readingAt history x id with
      | none => rfl
      | some reading =>
          obtain ⟨listed, own, before⟩ := of_lastBefore found
          obtain ⟨point, selected, -⟩ := covered reading listed own (Nat.le_of_lt_succ before)
          rw [empty] at selected
          cases selected
  | some point =>
      have member := List.mem_of_getLast? ends
      obtain ⟨upTo', own⟩ := List.mem_filter.mp member
      obtain ⟨selected, before⟩ := List.mem_filter.mp upTo'
      obtain ⟨reading, listed, -, rfl⟩ := of_mem_statsHistory (perm.mem_iff.mp selected)
      obtain ⟨latest, found, later⟩ := exists_lastBefore listed (of_decide_eq_true own)
        (Nat.lt_succ_of_le (of_decide_eq_true before))
      obtain ⟨source, same, earlier⟩ := of_lastBefore found
      obtain ⟨last, drawn, after⟩ := covered latest source same (Nat.le_of_lt_succ earlier)
      have bound : last.measuredAt ≤ reading.measuredAt :=
        le_getLast ((sorted.filter _).filter _) ends drawn
      have equal : latest = reading := by
        refine (List.nodup_map_iff_inj_on (List.Nodup.of_map _ distinct)).mp distinct latest source
          reading listed ?_
        exact Prod.ext (same.trans (of_decide_eq_true own).symm)
          (Nat.le_antisymm (after.trans bound) later)
      rw [readingAt, found, equal]
      rfl

/-- The points up to an instant add up to the total there, if there are any. -/
theorem stepValue_selected
    (distinct : (history.map fun reading => (reading.repositoryId, reading.measuredAt)).Nodup)
    (window : since ≤ x) :
    (stepValue (byTime (statsHistory history repoIds since)) x = none ↔
        ∀ id ∈ repoIds, readingAt history x id = none) ∧
      ∀ bytes, stepValue (byTime (statsHistory history repoIds since)) x = some bytes →
        totalAt history repoIds x ≤ 2 ^ 53 → bytes = .finite (totalAt history repoIds x) := by
  have last := fun id (known : id ∈ repoIds) => lastOf_selected distinct window known
  have known : ∀ point ∈ upTo x (byTime (statsHistory history repoIds since)),
      point.repositoryId ∈ repoIds := by
    intro point listed
    have selected := (byTime_perm _).mem_iff.mp (List.mem_filter.mp listed).1
    obtain ⟨reading, -, inside, rfl⟩ := of_mem_statsHistory selected
    exact inside
  unfold stepValue
  generalize upTo x (byTime (statsHistory history repoIds since)) = points at *
  constructor
  · constructor
    · intro none' id listed
      have empty : points = [] := by
        by_contra nonempty
        rw [if_neg nonempty] at none'
        cases none'
      have nothing := last id listed
      rw [empty] at nothing
      exact Option.map_eq_none_iff.mp nothing.symm
    · intro unread
      rw [if_pos]
      apply List.eq_nil_iff_forall_not_mem.mpr
      intro point listed
      have nothing := last _ (known point listed)
      rw [unread _ (known point listed), Option.map_none] at nothing
      have empty := List.getLast?_eq_none_iff.mp (Option.map_eq_none_iff.mp nothing)
      exact List.filter_eq_nil_iff.mp empty point listed (decide_eq_true rfl)
  · intro bytes found small
    split at found
    case isTrue => cases found
    case isFalse =>
      rw [← Option.some.inj found]
      apply sumBytes_latestOf known ?_ small
      intro id listed
      rw [last id listed]
      cases readingAt history x id with
      | none => exact ⟨rfl, fun _ => rfl⟩
      | some reading => exact ⟨rfl, fun impossible => by cases impossible⟩

end Selection

/-- **The storage chart.** At every instant of the window the series is at the sum of the latest
readings, as far as doubles hold it; there is no point exactly where no repository has a reading;
and the points are in order and end at the present. -/
theorem series_steps (history : List RepositoryStatsHistory) (repoIds : List Uuid)
    (since now : Nat)
    (distinct : (history.map fun reading => (reading.repositoryId, reading.measuredAt)).Nodup)
    (past : ∀ reading ∈ history, reading.measuredAt ≤ now) (window : since ≤ now) :
    (∀ x, since ≤ x → x ≤ now →
      (pointAt (totalStorageSeries (statsHistory history repoIds since) since now) x = none ↔
        ∀ id ∈ repoIds, readingAt history x id = none) ∧
      ∀ point,
        pointAt (totalStorageSeries (statsHistory history repoIds since) since now) x = some point →
        totalAt history repoIds x ≤ 2 ^ 53 →
        point.bytes = .finite (totalAt history repoIds x)) ∧
    (totalStorageSeries (statsHistory history repoIds since) since now).Pairwise
      (fun first second => first.t ≤ second.t) ∧
    ∀ last, (totalStorageSeries (statsHistory history repoIds since) since now).getLast? =
      some last → last.t = now := by
  have selected : ∀ point ∈ statsHistory history repoIds since, point.measuredAt ≤ now := by
    intro point listed
    obtain ⟨reading, member, -, rfl⟩ := of_mem_statsHistory listed
    exact past reading member
  obtain ⟨values, ordered, ends⟩ := series_of_points window selected
  refine ⟨?_, ordered, ends⟩
  intro x start stop
  have value := values x start stop
  obtain ⟨empty, total⟩ := @stepValue_selected since x history repoIds distinct start
  rw [← value] at empty total
  constructor
  · rw [← empty, Option.map_eq_none_iff]
  · intro point found small
    rw [found] at total
    exact total point.bytes rfl small

/-- Two repositories whose sizes no double adds up to. -/
theorem series_not_always_exact :
    ¬ ∀ (history : List RepositoryStatsHistory) (repoIds : List Uuid) (since now : Nat),
      (history.map fun reading => (reading.repositoryId, reading.measuredAt)).Nodup →
      (∀ reading ∈ history, reading.measuredAt ≤ now) → since ≤ now →
      ∀ x, since ≤ x → x ≤ now → ∀ point,
        pointAt (totalStorageSeries (statsHistory history repoIds since) since now) x = some point →
        point.bytes = .finite (totalAt history repoIds x) := by
  intro always
  have exact' := always
    [⟨1, 10, 2 ^ 53, 3⟩, ⟨2, 10, 1, 1⟩] [1, 2] 0 20 (by decide) (by decide) (by decide) 20
    (by decide) (by decide) ⟨20, .finite (2 ^ 53)⟩ (by decide +kernel)
  exact absurd exact' (by decide +kernel)

/-- A repository that grows in the window, and one that was read before it. -/
theorem growth_charted : ∃ point, pointAt (totalStorageSeries
      (statsHistory [⟨1, 5, 100, 1⟩, ⟨2, 8, 40, 1⟩, ⟨1, 15, 130, 2⟩] [1, 2] 10) 10 20) 12 =
        some point ∧ point.bytes = .finite 140 := by
  have charted : (pointAt (totalStorageSeries
      (statsHistory [⟨1, 5, 100, 1⟩, ⟨2, 8, 40, 1⟩, ⟨1, 15, 130, 2⟩] [1, 2] 10) 10 20) 12).isSome =
        true := by
    decide +kernel
  obtain ⟨point, found⟩ := Option.isSome_iff_exists.mp charted
  exact ⟨point, found, ((series_steps [⟨1, 5, 100, 1⟩, ⟨2, 8, 40, 1⟩, ⟨1, 15, 130, 2⟩] [1, 2] 10 20
    (by decide) (by decide) (by decide)).1 12 (by decide) (by decide)).2 point found
    (by decide +kernel)⟩

end AmberBackup
