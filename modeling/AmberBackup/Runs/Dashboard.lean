import AmberBackup.Runs.ActivityFeed

/-! # The dashboard

The figures of the dashboard come from three queries: the running activities are counted among
the ten newest of the feed, and two counts over the backup runs are restricted to the visible
jobs. A user without visible jobs is given a text that is no identifier to compare with. The
figures are complete exactly where no identifier is refused and every running activity is among
the ten newest (`dashboard_complete_iff`).
-/

namespace AmberBackup

open Relational LikePattern Ranks

structure DashboardFigures where
  recent : List Activity
  running : Nat
  failedLastWeek : Nat
  successTotal : Nat
  deriving DecidableEq, Repr

/-- The jobs a counting query is restricted to, `none` for all. -/
def jobFilter (visible : VisibleTexts) : Except Failure (Option (List Uuid)) :=
  match visible with
  | .all => .ok none
  | .only texts => some <$> (if texts = [] then ["-"] else texts).mapM uuidParameter

/-- The number of backup runs of a status with a condition, joined with their jobs. -/
def countBackupRuns (db : Db) (ids : Option (List Uuid)) (status : RunStatus)
    (condition : JobRun → Bool) : Nat :=
  db.jobRuns.rows.countP fun entry =>
    (db.backupJobs.get? entry.2.jobId).isSome && entry.2.kind = .backup &&
      entry.2.status = status && condition entry.2 &&
      ids.all fun ids => ids.contains entry.2.jobId

/-- Seven days in milliseconds. -/
def weekMs : Nat := 7 * 86400000

/-- `RunsService.dashboard`. -/
def dashboard (fold : CaseFold) (db : Db) (user : Viewer) (now : Nat) :
    Except Failure DashboardFigures := do
  let visible := visibleResourceTexts db user .job
  let recent ← listActivities fold db user { limit := some 10 }
  let failedIds ← jobFilter visible
  let successIds ← jobFilter visible
  return {
    recent
    running := recent.countP fun row => row.status = .running
    failedLastWeek := countBackupRuns db failedIds .failed fun run => now < run.createdAt + weekMs
    successTotal := countBackupRuns db successIds .success fun _ => true }

/-! ## What the figures are to be -/

/-- Whether the job of an activity is among those shown. -/
def VisibleTexts.showsJob (visible : VisibleTexts) (job : Option Uuid) : Bool :=
  match visible with
  | .all => true
  | .only texts => job.any fun id => texts.any fun text => readUuid text = some id

def visibleActivities (db : Db) (user : Viewer) : List Activity :=
  db.activities.filter fun row => (visibleResourceTexts db user .job).showsJob row.jobId

/-- The visible backup runs. -/
def visibleBackups (db : Db) (user : Viewer) : List JobRun :=
  (db.jobRuns.rows.map Prod.snd).filter fun run =>
    run.kind = .backup && (visibleResourceTexts db user .job).showsJob (some run.jobId)

/-- The dashboard answers, and its figures are those of all visible activities. -/
def DashboardComplete (fold : CaseFold) (db : Db) (user : Viewer) (now : Nat) : Prop :=
  ∃ figures, dashboard fold db user now = .ok figures ∧
    figures.running = (visibleActivities db user).countP (fun row => row.status = .running) ∧
    figures.failedLastWeek = (visibleBackups db user).countP (fun run =>
      run.status = .failed && now < run.createdAt + weekMs) ∧
    figures.successTotal = (visibleBackups db user).countP fun run => run.status = .success

/-- Every text is an identifier, and there is one. -/
def VisibleTexts.Comparable : VisibleTexts → Prop
  | .all => True
  | .only texts => texts ≠ [] ∧ ∀ text ∈ texts, (readUuid text).isSome

/-- An activity stands before another in the feed. -/
def Activity.before (first second : Activity) : Bool :=
  first.precedes second ∧ ¬ second.precedes first

section Dashboard

variable {fold : CaseFold} {db : Db} {user : Viewer} {visible : VisibleTexts} {now : Nat}
  {row other : Activity}

theorem showsJob_iff (visible : VisibleTexts) (job : Option Uuid) :
    visible.showsJob job = true ↔ visible.shows job := by
  cases visible with
  | all => exact iff_of_true rfl trivial
  | only texts =>
      simp only [VisibleTexts.showsJob, VisibleTexts.shows, Option.any_eq_true, List.any_eq_true,
        decide_eq_true_eq]

/-! ## The counting queries -/

theorem readUuid_hyphen : readUuid "-" = none := by decide +kernel

theorem isSome_of_mapM {texts : List String} {ids : List Uuid}
    (read : texts.mapM uuidParameter = .ok ids) : ∀ text ∈ texts, (readUuid text).isSome := by
  induction texts generalizing ids with
  | nil => simp
  | cons text texts ih =>
      rw [List.mapM_cons] at read
      obtain ⟨id, first, rest⟩ := of_bind_eq_ok read
      obtain ⟨others, later, -⟩ := of_bind_eq_ok rest
      intro entry member
      rcases List.mem_cons.mp member with rfl | listed
      · unfold uuidParameter at first
        split at first
        · next known => rw [known]; rfl
        · cases first
      · exact ih later entry listed

/-- The filter is built exactly where every text is an identifier and there is one. -/
theorem jobFilter_ok {ids : Option (List Uuid)} (built : jobFilter visible = .ok ids) :
    visible.Comparable := by
  cases visible with
  | all => trivial
  | only texts =>
      by_cases none : texts = []
      · rw [none] at built
        unfold jobFilter uuidParameter at built
        simp only [↓reduceIte, List.mapM_cons, readUuid_hyphen] at built
        cases built
      · refine ⟨none, ?_⟩
        unfold jobFilter at built
        simp only [none, ↓reduceIte] at built
        cases read : texts.mapM uuidParameter with
        | error failure =>
            rw [read] at built
            cases built
        | ok found => exact isSome_of_mapM read

/-- The jobs of texts that are identifiers. -/
def comparedIds : VisibleTexts → Option (List Uuid)
  | .all => none
  | .only texts => some (texts.filterMap readUuid)

theorem jobFilter_eq (comparable : visible.Comparable) :
    jobFilter visible = .ok (comparedIds visible) := by
  cases visible with
  | all => rfl
  | only texts =>
      unfold jobFilter
      simp only [comparable.1, ↓reduceIte]
      rw [mapM_uuidParameter comparable.2]
      rfl

theorem comparedIds_all (visible : VisibleTexts) (job : Uuid) :
    ((comparedIds visible).all fun ids => ids.contains job) = visible.showsJob (some job) := by
  cases visible with
  | all => rfl
  | only texts =>
      rw [Bool.eq_iff_iff]
      simp only [comparedIds, Option.all_some, List.contains_iff_mem, List.mem_filterMap,
        VisibleTexts.showsJob, Option.any_some, List.any_eq_true, decide_eq_true_eq]

theorem countBackupRuns_eq (references : db.RunsReferential) (status : RunStatus)
    (condition : JobRun → Bool) :
    countBackupRuns db (comparedIds (visibleResourceTexts db user .job)) status condition =
      (visibleBackups db user).countP fun run => run.status = status && condition run := by
  unfold countBackupRuns visibleBackups
  rw [List.countP_filter, List.countP_map]
  apply List.countP_congr
  intro entry member
  have job : (db.backupJobs.get? entry.2.jobId).isSome = true := references.jobs entry member
  rw [job, comparedIds_all]
  simp only [Function.comp_apply, Bool.true_and]
  simp only [Bool.and_assoc, Bool.and_comm, Bool.and_left_comm]

/-! ## The running activities -/

theorem precedes_antisymm (references : db.RunsReferential) (member : row ∈ db.activities)
    (listed : other ∈ db.activities) (sooner : row.precedes other) (later : other.precedes row) :
    row = other := by
  have number : row.id = other.id := by
    unfold Activity.precedes at sooner later
    change row.number = other.number
    omega
  have sides : row.kind = .restore ↔ other.kind = .restore := by
    unfold Activity.precedes at sooner later
    constructor
    · rcases sooner with newer | ⟨equal, higher | ⟨-, side⟩⟩
      · omega
      · omega
      · exact side
    · rcases later with newer | ⟨equal, higher | ⟨-, side⟩⟩
      · omega
      · omega
      · exact side
  rw [activities_eq references, List.mem_append] at member listed
  rcases member with run | restore
  · obtain ⟨kind, side⟩ := kind_of_jobRunsQuery run
    rcases listed with second | second
    · exact List.inj_on_of_nodup_map (jobRunsQuery_nodup references) run second number
    · rw [side, kind_of_restoreRunsQuery second] at sides
      cases sides.mpr rfl
  · rcases listed with second | second
    · obtain ⟨kind, side⟩ := kind_of_jobRunsQuery second
      rw [side, kind_of_restoreRunsQuery restore] at sides
      cases sides.mp rfl
    · exact List.inj_on_of_nodup_map (restoreRunsQuery_nodup db) restore second number

/-- A feed without filters. -/
def recentOptions : ListOptions where
  limit := some 10

theorem recentOptions_accepted (comparable : visible.Comparable) :
    recentOptions.Accepted visible where
  ids := by
    intro texts only
    subst only
    exact comparable.2
  jobId := by
    intro text given
    cases given
  kinds := by
    intro kind member
    cases member
  status := by
    intro text given
    cases given
  search := by
    intro term given
    cases given

theorem recentOptions_admits (fold : CaseFold) (row : Activity) :
    recentOptions.Admits fold row where
  job := by
    intro text given
    cases given
  status := by
    intro text given
    cases given
  search := by
    intro term given
    cases given
  kind := by
    intro filled
    exact absurd rfl filled

/-- Without filters the feed is the visible activities in their order. -/
theorem feedRows_perm (references : db.RunsReferential)
    (comparable : (visibleResourceTexts db user .job).Comparable) :
    (feedRows fold db recentOptions
      (acceptedParameters (visibleResourceTexts db user .job) recentOptions)).Perm
        (visibleActivities db user) := by
  apply (List.perm_ext_iff_of_nodup (feedRows_nodup references _)
    ((activities_nodup references).filter _)).mpr
  intro row
  rw [mem_feedRows references (recentOptions_accepted comparable), List.mem_filter, showsJob_iff]
  exact and_congr_right fun _ => and_iff_left (recentOptions_admits fold row)

theorem feedRows_before (references : db.RunsReferential) (bound : FeedParameters) :
    (feedRows fold db recentOptions bound).Pairwise fun first second => first.before second := by
  obtain ⟨rows, part, same⟩ := @feedRows_sublist fold db recentOptions references bound
  have inside : ∀ row ∈ feedRows fold db recentOptions bound, row ∈ db.activities :=
    fun row member => part.subset (same.mem_iff.mp member)
  have distinct : (feedRows fold db recentOptions bound).Pairwise (· ≠ ·) :=
    feedRows_nodup references bound
  apply ((feedRows_ordered fold db recentOptions bound).and distinct).imp_of_mem
  rintro first second member listed ⟨sooner, different⟩
  refine decide_eq_true ⟨sooner, ?_⟩
  intro later
  exact different
    (precedes_antisymm references (inside first member) (inside second listed) sooner later)

theorem before_asymm : ∀ first second : Activity,
    first.before second = true → second.before first = false := by
  intro first second sooner
  have strict := of_decide_eq_true sooner
  exact decide_eq_false fun other => strict.2 other.1

/-- The running activities are all among the ten newest. -/
theorem running_complete (references : db.RunsReferential)
    (comparable : (visibleResourceTexts db user .job).Comparable) :
    ((feedRows fold db recentOptions
        (acceptedParameters (visibleResourceTexts db user .job) recentOptions)).take 10).countP
          (fun row => row.status = .running) =
        (visibleActivities db user).countP (fun row => row.status = .running) ↔
      ∀ row ∈ visibleActivities db user, row.status = .running →
        rank Activity.before (visibleActivities db user) row < 10 := by
  have same := @feedRows_perm fold db user references comparable
  rw [← same.countP_eq, countP_take_iff (feedRows_before references _) before_asymm]
  constructor
  · intro early row member running
    have near := early row (same.mem_iff.mpr member) (decide_eq_true running)
    rwa [rank_perm same] at near
  · intro early row member running
    have near := early row (same.mem_iff.mp member) (of_decide_eq_true running)
    rwa [rank_perm same]

theorem listActivities_recent (comparable : (visibleResourceTexts db user .job).Comparable) :
    listActivities fold db user recentOptions =
      .ok ((feedRows fold db recentOptions
        (acceptedParameters (visibleResourceTexts db user .job) recentOptions)).take 10) := by
  have filled : visibleResourceTexts db user .job ≠ .only [] := by
    intro nothing
    rw [nothing] at comparable
    exact comparable.1 rfl
  exact listActivities_accepted (recentOptions_accepted comparable) filled

theorem dashboard_eq (references : db.RunsReferential)
    (comparable : (visibleResourceTexts db user .job).Comparable) :
    let recent := (feedRows fold db recentOptions
      (acceptedParameters (visibleResourceTexts db user .job) recentOptions)).take 10
    dashboard fold db user now = .ok {
      recent
      running := recent.countP fun row => row.status = .running
      failedLastWeek := (visibleBackups db user).countP fun run =>
        run.status = .failed && now < run.createdAt + weekMs
      successTotal := (visibleBackups db user).countP fun run => run.status = .success } := by
  have success : ∀ run : JobRun,
      (run.status = .success && true : Bool) = decide (run.status = .success) :=
    fun run => Bool.and_true _
  unfold dashboard
  simp only [jobFilter_eq comparable]
  rw [show ({ limit := some 10 } : ListOptions) = recentOptions from rfl,
    listActivities_recent comparable]
  simp only [bind, Except.bind, pure, Except.pure, countBackupRuns_eq references, success]

theorem comparable_of_dashboard {figures : DashboardFigures}
    (answered : dashboard fold db user now = .ok figures) :
    (visibleResourceTexts db user .job).Comparable := by
  obtain ⟨recent, -, rest⟩ := of_bind_eq_ok answered
  obtain ⟨ids, built, -⟩ := of_bind_eq_ok rest
  exact jobFilter_ok built

end Dashboard

/-- **The dashboard.** The figures are complete if and only if every visible identifier is a
UUID, there is one or all are visible, and each running activity has fewer than ten visible
activities before it. -/
theorem dashboard_complete_iff (fold : CaseFold) {db : Db} (user : Viewer) (now : Nat)
    (references : db.RunsReferential) :
    DashboardComplete fold db user now ↔
      (visibleResourceTexts db user .job).Comparable ∧
        ∀ row ∈ visibleActivities db user, row.status = .running →
          rank Activity.before (visibleActivities db user) row < 10 := by
  constructor
  · rintro ⟨figures, answered, running, -, -⟩
    have comparable := comparable_of_dashboard answered
    rw [dashboard_eq references comparable, Except.ok.injEq] at answered
    subst answered
    exact ⟨comparable, (running_complete references comparable).mp running⟩
  · rintro ⟨comparable, early⟩
    refine ⟨_, dashboard_eq references comparable, ?_, rfl, rfl⟩
    exact (running_complete references comparable).mpr early

/-- A user without any grant. -/
def stranger : Viewer where
  id := 2
  isAdmin := false

/-- A running backup that ten later ones have overtaken. -/
def busyDb : Db :=
  { feedExample with
    jobRuns := .ofList ((List.range 11).map fun index =>
      (index + 5, {
        jobId := 2, trigger := .schedule, createdAt := index
        status := if index = 0 then .running else .success })) }

/-- The dashboard fails for a user without visible jobs, and shows no running activity where ten
later ones have ended. -/
theorem dashboard_not_complete :
    ¬ DashboardComplete .ascii feedExample stranger 0 ∧
      ¬ DashboardComplete .ascii busyDb feedAdmin 0 := by
  constructor
  · rintro ⟨figures, answered, -⟩
    have refused : dashboard .ascii feedExample stranger 0 =
        .error (.error "invalid input syntax for type uuid: \"-\"") := by decide +kernel
    rw [refused] at answered
    cases answered
  · rintro ⟨figures, answered, running, -⟩
    have shown : (dashboard .ascii busyDb feedAdmin 0).map DashboardFigures.running = .ok 0 := by
      decide +kernel
    have one : (visibleActivities busyDb feedAdmin).countP
        (fun row => row.status = .running) = 1 := by decide +kernel
    rw [answered] at shown
    change Except.ok figures.running = .ok 0 at shown
    rw [one] at running
    rw [running] at shown
    cases shown

theorem example_dashboard_complete :
    DashboardComplete .ascii feedExample feedAdmin 0 ↔
      (visibleResourceTexts feedExample feedAdmin .job).Comparable ∧
        ∀ row ∈ visibleActivities feedExample feedAdmin, row.status = .running →
          rank Activity.before (visibleActivities feedExample feedAdmin) row < 10 :=
  dashboard_complete_iff .ascii feedAdmin 0 feedExample_referential

end AmberBackup
