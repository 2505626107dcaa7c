import AmberBackup.Common.Visibility
import AmberBackup.Jobs.CheckCalls
import AmberBackup.Lib.LikePattern
import AmberBackup.Lib.Paging
import AmberBackup.Lib.UuidText
import AmberBackup.Restic.ResticService

/-! # The activity feed

Backups, prunes, checks and restores are shown as one feed, the union of two queries to which
each filter is applied. Identifiers reach a query as texts, of which a `uuid` column reads only
UUIDs. The pages of the feed show every visible activity that satisfies the filters once,
newest first (`feed_pages`); an empty text is no filter.
-/

namespace AmberBackup

open Relational LikePattern

/-! ## What a query is given -/

/-- What `visibleResourceIds` reads of a principal. The resources of an API key are texts of up
to 200 characters. -/
structure Viewer where
  id : Uuid
  isAdmin : Bool
  resources : Option (List (ResourceType × String)) := none
  deriving DecidableEq, Repr

/-- The canonical text of an identifier, as a row shows it. -/
def uuidText (id : Uuid) : String := String.ofList (UuidText.write id)

/-- The identifier a `uuid` column reads from a text. -/
def readUuid (text : String) : Option Uuid := UuidText.read text.toList

/-- `string[] | 'all'`. -/
inductive VisibleTexts where
  | all
  | only (texts : List String)
  deriving DecidableEq, Repr

/-- `AccessControlService.visibleResourceIds`, with identifiers as the texts they are. -/
def visibleResourceTexts (db : Db) (user : Viewer) (type : ResourceType) : VisibleTexts :=
  let limits := user.resources.map fun resources =>
    (resources.filter fun resource => resource.1 = type).map Prod.snd
  if user.isAdmin then
    match limits with
    | none => .all
    | some texts => .only texts
  else
    let texts := (db.grantedIds user.id type).map uuidText
    match limits with
    | none => .only texts
    | some limited => .only (texts.filter limited.contains)

/-- The parameter of a comparison with a `uuid` column. -/
def uuidParameter (text : String) : Except Failure Uuid :=
  match readUuid text with
  | some id => .ok id
  | none => .error (.error ("invalid input syntax for type uuid: \"" ++ text ++ "\""))

/-- The parameter of a comparison with a `text` column. -/
def textParameter (text : String) : Except Failure String :=
  if '\x00' ∈ text.toList then
    .error (.error "invalid byte sequence for encoding \"UTF8\": 0x00")
  else .ok text

/-! ## The two sides of the feed -/

/-- What an activity in the feed is: a job run's kind, or a restore. -/
inductive ActivityKind where
  | run (kind : RunKind)
  | restore
  deriving DecidableEq, Repr

def ActivityKind.name : ActivityKind → String
  | .run kind => kind.name
  | .restore => "restore"

/-- A row of the feed. -/
structure Activity where
  id : Uuid
  jobId : Option Uuid
  kind : ActivityKind
  parentRunId : Option Uuid
  checkInfo : Option CheckInfo
  trigger : RunTrigger
  status : RunStatus
  attempt : Nat
  retryOfRunId : Option Uuid
  notBefore : Option Nat
  agentId : Option Uuid
  startedAt : Option Nat
  finishedAt : Option Nat
  snapshotId : Option String
  stats : Option String
  forgetResult : Option String
  error : Option String
  createdAt : Nat
  jobName : Option String
  targetId : Option Uuid
  restoreMode : Option RestoreMode
  deriving DecidableEq, Repr

/-- A job run, with the name of its job and the connection of the job's repository. -/
def JobRun.activity (id : Uuid) (run : JobRun) (jobName : Option String)
    (targetId : Option Uuid) : Activity where
  id
  jobId := some run.jobId
  kind := .run run.kind
  parentRunId := run.parentRunId
  checkInfo := run.checkInfo
  trigger := run.trigger
  status := run.status
  attempt := run.attempt
  retryOfRunId := run.retryOfRunId
  notBefore := run.notBefore
  agentId := run.agentId
  startedAt := run.startedAt
  finishedAt := run.finishedAt
  snapshotId := run.snapshotId
  stats := run.stats
  forgetResult := run.forgetResult
  error := run.error
  createdAt := run.createdAt
  jobName
  targetId
  restoreMode := none

/-- A restore, with its job where that still exists. -/
def RestoreRun.activity (id : Uuid) (run : RestoreRun) (job : Option BackupJob) : Activity where
  id
  jobId := run.jobId
  kind := .restore
  parentRunId := none
  checkInfo := none
  trigger := .manual
  status := run.status
  attempt := 1
  retryOfRunId := none
  notBefore := none
  agentId := run.agentId
  startedAt := run.startedAt
  finishedAt := run.finishedAt
  snapshotId := some run.snapshotId
  stats := run.stats
  forgetResult := none
  error := run.error
  createdAt := run.createdAt
  jobName := job.map BackupJob.name
  targetId := run.targetId
  restoreMode := some run.mode

/-- `job_runs` joined with `backup_jobs` and `repositories`. -/
def jobRunsQuery (db : Db) : List Activity :=
  db.jobRuns.rows.filterMap fun entry =>
    (db.backupJobs.get? entry.2.jobId).bind fun job =>
      (db.repositories.get? job.repositoryId).map fun repository =>
        entry.2.activity entry.1 (some job.name) repository.targetId

/-- `restore_runs` left-joined with `backup_jobs`. -/
def restoreRunsQuery (db : Db) : List Activity :=
  db.restoreRuns.rows.map fun entry =>
    entry.2.activity entry.1 (entry.2.jobId.bind db.backupJobs.get?)

def Activity.number (row : Activity) : Nat := row.id

/-- `created_at desc, id desc`. Two rows that agree in both come as the union gives them. -/
def Activity.precedes (first second : Activity) : Prop :=
  second.createdAt < first.createdAt ∨ second.createdAt = first.createdAt ∧
    (second.number < first.number ∨ second.number = first.number ∧
      (first.kind = .restore → second.kind = .restore))

instance (first second : Activity) : Decidable (first.precedes second) :=
  inferInstanceAs (Decidable (_ ∨ _))

/-! ## The feed -/

structure ListOptions where
  limit : Option Nat := none
  offset : Option Nat := none
  jobId : Option String := none
  status : Option String := none
  kind : Option String := none
  search : Option String := none
  deriving DecidableEq, Repr

/-- `if (text)`. -/
def presentText (text : Option String) : Option String := text.filter (· ≠ "")

/-- The kinds of the comma list. -/
def ListOptions.kinds (opts : ListOptions) : List String :=
  match opts.kind with
  | none => []
  | some list =>
      (((list.toList.splitOn ',').map String.ofList).map jsTrim).filter (· ≠ "")

def ListOptions.jobKinds (opts : ListOptions) : List String := opts.kinds.filter (· ≠ "restore")

/-- The pattern of the search term, in which `LIKE` wildcards are escaped. -/
def ListOptions.like (opts : ListOptions) : Option String :=
  (presentText opts.search).map fun term =>
    String.ofList ('%' :: escape term.toList ++ ['%'])

/-- The parameters of the feed's query. -/
structure FeedParameters where
  /-- `none` shows every job. -/
  ids : Option (List Uuid)
  jobKinds : List String
  jobId : Option Uuid
  status : Option String
  like : Option String
  deriving DecidableEq, Repr

def bindParameters (visible : VisibleTexts) (opts : ListOptions) :
    Except Failure FeedParameters := do
  let ids ← match visible with
    | .all => pure none
    | .only texts => some <$> texts.mapM uuidParameter
  let jobKinds ← opts.jobKinds.mapM textParameter
  let jobId ← (presentText opts.jobId).mapM uuidParameter
  let status ← (presentText opts.status).mapM textParameter
  let like ← opts.like.mapM textParameter
  return { ids, jobKinds, jobId, status, like }

/-- The conditions on the side of the job runs. -/
def jobRunsWhere (fold : CaseFold) (opts : ListOptions) (bound : FeedParameters)
    (row : Activity) : Bool :=
  (opts.kinds.isEmpty || !opts.jobKinds.isEmpty) &&
    (bound.jobKinds.isEmpty || bound.jobKinds.contains row.kind.name) &&
    (bound.ids.all fun ids => row.jobId.any ids.contains) &&
    (bound.jobId.all fun id => row.jobId = some id) &&
    (bound.status.all fun status => row.status.name = status) &&
    bound.like.all fun pattern =>
      row.jobName.any fun name => ilike fold pattern.toList name.toList

/-- The conditions on the side of the restores. A comparison with a null is not true. -/
def restoreRunsWhere (fold : CaseFold) (opts : ListOptions) (bound : FeedParameters)
    (row : Activity) : Bool :=
  (opts.kinds.isEmpty || opts.kinds.contains "restore") &&
    (bound.ids.all fun ids => row.jobId.any ids.contains) &&
    (bound.jobId.all fun id => row.jobId = some id) &&
    (bound.status.all fun status => row.status.name = status) &&
    bound.like.all fun pattern =>
      row.jobName.any fun name => ilike fold pattern.toList name.toList

/-- The rows of the union in their order. -/
def feedRows (fold : CaseFold) (db : Db) (opts : ListOptions) (bound : FeedParameters) :
    List Activity :=
  ((jobRunsQuery db).filter (jobRunsWhere fold opts bound) ++
    (restoreRunsQuery db).filter (restoreRunsWhere fold opts bound)).insertionSort
      Activity.precedes

/-- `RunsService.list`. -/
def listActivities (fold : CaseFold) (db : Db) (user : Viewer) (opts : ListOptions) :
    Except Failure (List Activity) :=
  match visibleResourceTexts db user .job with
  | .only [] => .ok []
  | visible =>
      (bindParameters visible opts).map fun bound =>
        page (min (opts.limit.getD 50) 200) (opts.offset.getD 0) (feedRows fold db opts bound)

/-! ## What the feed is to show -/

/-- The constraints of the tables: a run has a job, and a job a repository. -/
structure Db.RunsReferential (db : Db) : Prop where
  jobs : ∀ entry ∈ db.jobRuns.rows, (db.backupJobs.get? entry.2.jobId).isSome
  repositories : ∀ id job, db.backupJobs.get? id = some job →
    (db.repositories.get? job.repositoryId).isSome

/-- Every job run and every restore, as an activity. -/
def Db.activities (db : Db) : List Activity :=
  (db.jobRuns.rows.map fun entry =>
    let job := db.backupJobs.get? entry.2.jobId
    entry.2.activity entry.1 (job.map BackupJob.name)
      (job.bind fun row => (db.repositories.get? row.repositoryId).bind Repository.targetId)) ++
  db.restoreRuns.rows.map fun entry =>
    entry.2.activity entry.1 (entry.2.jobId.bind db.backupJobs.get?)

/-- The job of an activity is among those shown. -/
def VisibleTexts.shows : VisibleTexts → Option Uuid → Prop
  | .all, _ => True
  | .only texts, job => ∃ id, job = some id ∧ ∃ text ∈ texts, readUuid text = some id

/-- The activity satisfies the filters by job, status and name that are not empty. -/
structure ListOptions.Filters (fold : CaseFold) (opts : ListOptions) (row : Activity) :
    Prop where
  job : ∀ text, opts.jobId = some text → text ≠ "" →
    ∃ id, readUuid text = some id ∧ row.jobId = some id
  status : ∀ text, opts.status = some text → text ≠ "" → row.status.name = text
  search : ∀ term, opts.search = some term → term ≠ "" →
    ∃ name, row.jobName = some name ∧
      term.toList.map fold.lower <:+: name.toList.map fold.lower

/-- The activity satisfies every filter that is not empty. -/
structure ListOptions.Admits (fold : CaseFold) (opts : ListOptions) (row : Activity) : Prop
    extends opts.Filters fold row where
  kind : opts.kinds ≠ [] → row.kind.name ∈ opts.kinds

/-- The texts can be parameters of the query. -/
structure ListOptions.Accepted (visible : VisibleTexts) (opts : ListOptions) : Prop where
  ids : ∀ texts, visible = .only texts → ∀ text ∈ texts, (readUuid text).isSome
  jobId : ∀ text, opts.jobId = some text → text ≠ "" → (readUuid text).isSome
  kinds : ∀ kind ∈ opts.kinds, '\x00' ∉ kind.toList
  status : ∀ text, opts.status = some text → '\x00' ∉ text.toList
  search : ∀ term, opts.search = some term → '\x00' ∉ term.toList

/-- Pages of a length, one after the other. -/
def feedPages (fold : CaseFold) (db : Db) (user : Viewer) (opts : ListOptions)
    (limit count : Nat) : Except Failure (List Activity) :=
  ((List.range count).mapM fun index =>
    listActivities fold db user { opts with limit := some limit, offset := some (index * limit) }).map
      List.flatten

section Feed

variable {fold : CaseFold} {db : Db} {user : Viewer} {visible : VisibleTexts}
  {opts : ListOptions} {row : Activity}

theorem presentText_eq_some {text : Option String} {present : String} :
    presentText text = some present ↔ text = some present ∧ present ≠ "" := by
  simp [presentText, Option.filter_eq_some_iff]

/-- The parameters of texts that are accepted. -/
def acceptedParameters (visible : VisibleTexts) (opts : ListOptions) : FeedParameters where
  ids := match visible with
    | .all => none
    | .only texts => some (texts.filterMap readUuid)
  jobKinds := opts.jobKinds
  jobId := (presentText opts.jobId).bind readUuid
  status := presentText opts.status
  like := opts.like

theorem uuidParameter_eq {text : String} {id : Uuid} (known : readUuid text = some id) :
    uuidParameter text = .ok id := by
  unfold uuidParameter
  rw [known]

theorem mapM_uuidParameter {texts : List String} (all : ∀ text ∈ texts, (readUuid text).isSome) :
    texts.mapM uuidParameter = .ok (texts.filterMap readUuid) := by
  induction texts with
  | nil => rfl
  | cons text texts ih =>
      obtain ⟨id, known⟩ := Option.isSome_iff_exists.mp (all text List.mem_cons_self)
      rw [List.mapM_cons, uuidParameter_eq known,
        ih fun other member => all other (List.mem_cons_of_mem _ member),
        List.filterMap_cons_some known]
      rfl

theorem textParameter_eq {text : String} (clean : '\x00' ∉ text.toList) :
    textParameter text = .ok text := if_neg clean

theorem mapM_textParameter {texts : List String}
    (all : ∀ text ∈ texts, '\x00' ∉ text.toList) : texts.mapM textParameter = .ok texts := by
  induction texts with
  | nil => rfl
  | cons text texts ih =>
      rw [List.mapM_cons, textParameter_eq (all text List.mem_cons_self),
        ih fun other member => all other (List.mem_cons_of_mem _ member)]
      rfl

theorem mem_escape {term : List Char} {char : Char} (member : char ∈ escape term) :
    char = '\\' ∨ char ∈ term := by
  obtain ⟨source, listed, inside⟩ := List.mem_flatMap.mp member
  split at inside
  · simp only [List.mem_cons, List.not_mem_nil, or_false] at inside
    rcases inside with backslash | same
    · exact .inl backslash
    · exact .inr (same ▸ listed)
  · rw [List.mem_singleton] at inside
    exact .inr (inside ▸ listed)

theorem bindParameters_eq (accepted : opts.Accepted visible) :
    bindParameters visible opts = .ok (acceptedParameters visible opts) := by
  have kinds : opts.jobKinds.mapM textParameter = .ok opts.jobKinds := by
    apply mapM_textParameter
    intro kind member
    exact accepted.kinds kind (List.mem_of_mem_filter member)
  have job : (presentText opts.jobId).mapM uuidParameter =
      .ok ((presentText opts.jobId).bind readUuid) := by
    cases present : presentText opts.jobId with
    | none => rfl
    | some text =>
        obtain ⟨given, filled⟩ := presentText_eq_some.mp present
        obtain ⟨id, known⟩ := Option.isSome_iff_exists.mp (accepted.jobId text given filled)
        rw [Option.mapM_some, uuidParameter_eq known, Option.bind_some, known]
        rfl
  have status : (presentText opts.status).mapM textParameter = .ok (presentText opts.status) := by
    cases present : presentText opts.status with
    | none => rfl
    | some text =>
        obtain ⟨given, -⟩ := presentText_eq_some.mp present
        rw [Option.mapM_some, textParameter_eq (accepted.status text given)]
        rfl
  have like : opts.like.mapM textParameter = .ok opts.like := by
    cases pattern : opts.like with
    | none => rfl
    | some text =>
        obtain ⟨term, present, rfl⟩ := Option.map_eq_some_iff.mp pattern
        obtain ⟨given, -⟩ := presentText_eq_some.mp present
        have clean : '\x00' ∉ (String.ofList ('%' :: escape term.toList ++ ['%'])).toList := by
          rw [String.toList_ofList]
          intro member
          simp only [List.cons_append, List.mem_cons, List.mem_append, List.not_mem_nil,
            or_false] at member
          rcases member with percent | inside | percent
          · exact absurd percent (by decide)
          · rcases mem_escape inside with backslash | own
            · exact absurd backslash (by decide)
            · exact accepted.search term given own
          · exact absurd percent (by decide)
        rw [Option.mapM_some, textParameter_eq clean]
        rfl
  unfold bindParameters acceptedParameters
  rw [kinds, job, status, like]
  cases visible with
  | all => rfl
  | only texts =>
      have ids := mapM_uuidParameter (accepted.ids texts rfl)
      simp [ids]
      rfl

/-- The four conditions both sides have. -/
theorem conditions_iff {bound : FeedParameters} (accepted : opts.Accepted visible)
    (given : bound = acceptedParameters visible opts) :
    ((bound.ids.all fun ids => row.jobId.any ids.contains) &&
      (bound.jobId.all fun id => row.jobId = some id) &&
      (bound.status.all fun status => row.status.name = status) &&
      bound.like.all fun pattern =>
        row.jobName.any fun name => ilike fold pattern.toList name.toList) = true ↔
      visible.shows row.jobId ∧ opts.Filters fold row := by
  subst given
  have ids : ((acceptedParameters visible opts).ids.all fun ids =>
      row.jobId.any ids.contains) = true ↔ visible.shows row.jobId := by
    cases visible with
    | all => exact iff_of_true rfl trivial
    | only texts =>
        change (row.jobId.any (texts.filterMap readUuid).contains) = true ↔ _
        rw [Option.any_eq_true]
        simp only [List.contains_iff_mem, List.mem_filterMap, VisibleTexts.shows]
  have job : ((acceptedParameters visible opts).jobId.all fun id => row.jobId = some id) = true ↔
      ∀ text, opts.jobId = some text → text ≠ "" →
        ∃ id, readUuid text = some id ∧ row.jobId = some id := by
    change (((presentText opts.jobId).bind readUuid).all _) = true ↔ _
    simp only [Option.all_eq_true, decide_eq_true_eq, Option.bind_eq_some_iff,
      presentText_eq_some]
    constructor
    · intro equal text given filled
      obtain ⟨id, known⟩ := Option.isSome_iff_exists.mp (accepted.jobId text given filled)
      exact ⟨id, known, equal id ⟨text, ⟨given, filled⟩, known⟩⟩
    · rintro equal id ⟨text, ⟨given, filled⟩, known⟩
      obtain ⟨other, read, same⟩ := equal text given filled
      rw [same, ← read, known]
  have status : ((acceptedParameters visible opts).status.all fun status =>
      row.status.name = status) = true ↔
      ∀ text, opts.status = some text → text ≠ "" → row.status.name = text := by
    change ((presentText opts.status).all _) = true ↔ _
    simp only [Option.all_eq_true, decide_eq_true_eq, presentText_eq_some, and_imp]
  have like : ((acceptedParameters visible opts).like.all fun pattern =>
      row.jobName.any fun name => ilike fold pattern.toList name.toList) = true ↔
      ∀ term, opts.search = some term → term ≠ "" →
        ∃ name, row.jobName = some name ∧
          term.toList.map fold.lower <:+: name.toList.map fold.lower := by
    change (opts.like.all _) = true ↔ _
    unfold ListOptions.like
    simp only [Option.all_eq_true, Option.any_eq_true, Option.map_eq_some_iff,
      presentText_eq_some]
    constructor
    · intro found term given filled
      obtain ⟨name, named, matched⟩ := found _ ⟨term, ⟨given, filled⟩, rfl⟩
      rw [String.toList_ofList] at matched
      exact ⟨name, named, (ilike_escaped fold _ _).mp matched⟩
    · rintro found _ ⟨term, ⟨given, filled⟩, rfl⟩
      obtain ⟨name, named, inside⟩ := found term given filled
      rw [String.toList_ofList]
      exact ⟨name, named, (ilike_escaped fold _ _).mpr inside⟩
  rw [Bool.and_eq_true, Bool.and_eq_true, Bool.and_eq_true, ids, job, status, like]
  constructor
  · rintro ⟨⟨⟨shown, job⟩, status⟩, search⟩
    exact ⟨shown, job, status, search⟩
  · rintro ⟨shown, job, status, search⟩
    exact ⟨⟨⟨shown, job⟩, status⟩, search⟩

theorem name_ne_restore (kind : RunKind) : (ActivityKind.run kind).name ≠ "restore" := by
  cases kind <;> decide

theorem jobRunsWhere_iff (accepted : opts.Accepted visible) {kind : RunKind}
    (side : row.kind = .run kind) :
    jobRunsWhere fold opts (acceptedParameters visible opts) row = true ↔
      visible.shows row.jobId ∧ opts.Admits fold row := by
  have kinds : ((opts.kinds.isEmpty || !opts.jobKinds.isEmpty) &&
      (opts.jobKinds.isEmpty || opts.jobKinds.contains row.kind.name)) = true ↔
        (opts.kinds ≠ [] → row.kind.name ∈ opts.kinds) := by
    have member : row.kind.name ∈ opts.jobKinds ↔ row.kind.name ∈ opts.kinds := by
      unfold ListOptions.jobKinds
      rw [List.mem_filter, side]
      simp [name_ne_restore]
    simp only [Bool.and_eq_true, Bool.or_eq_true, Bool.not_eq_true', List.isEmpty_iff,
      List.isEmpty_eq_false_iff, List.contains_iff_mem, member]
    constructor
    · rintro ⟨some, listed⟩ filled
      rcases some with none | other
      · exact absurd none filled
      · exact listed.resolve_left other
    · intro listed
      by_cases none : opts.kinds = []
      · have jobs : opts.jobKinds = [] := by rw [ListOptions.jobKinds, none, List.filter_nil]
        exact ⟨.inl none, .inl jobs⟩
      · exact ⟨.inr (List.ne_nil_of_mem (member.mpr (listed none))), .inr (listed none)⟩
  have split : jobRunsWhere fold opts (acceptedParameters visible opts) row = true ↔
      (opts.kinds ≠ [] → row.kind.name ∈ opts.kinds) ∧
        visible.shows row.jobId ∧ opts.Filters fold row := by
    rw [← conditions_iff accepted rfl, ← kinds, ← Bool.and_eq_true]
    unfold jobRunsWhere
    simp only [acceptedParameters, Bool.and_assoc]
  rw [split]
  constructor
  · rintro ⟨kind, shown, filters⟩
    exact ⟨shown, filters, kind⟩
  · rintro ⟨shown, filters, kind⟩
    exact ⟨kind, shown, filters⟩

theorem restoreRunsWhere_iff (accepted : opts.Accepted visible) (side : row.kind = .restore) :
    restoreRunsWhere fold opts (acceptedParameters visible opts) row = true ↔
      visible.shows row.jobId ∧ opts.Admits fold row := by
  have kinds : (opts.kinds.isEmpty || opts.kinds.contains "restore") = true ↔
      (opts.kinds ≠ [] → row.kind.name ∈ opts.kinds) := by
    rw [side, Bool.or_eq_true, List.isEmpty_iff, List.contains_iff_mem]
    exact or_iff_not_imp_left
  have split : restoreRunsWhere fold opts (acceptedParameters visible opts) row = true ↔
      (opts.kinds ≠ [] → row.kind.name ∈ opts.kinds) ∧
        visible.shows row.jobId ∧ opts.Filters fold row := by
    rw [← conditions_iff accepted rfl, ← kinds, ← Bool.and_eq_true]
    unfold restoreRunsWhere
    simp only [acceptedParameters, Bool.and_assoc]
  rw [split]
  constructor
  · rintro ⟨kind, shown, filters⟩
    exact ⟨shown, filters, kind⟩
  · rintro ⟨shown, filters, kind⟩
    exact ⟨kind, shown, filters⟩

/-! ## The order of the feed -/

instance : Std.Total Activity.precedes where
  total first second := by
    rcases Nat.lt_trichotomy second.createdAt first.createdAt with newer | same | older
    · exact .inl (.inl newer)
    · rcases Nat.lt_trichotomy second.number first.number with higher | equal | lower
      · exact .inl (.inr ⟨same, .inl higher⟩)
      · by_cases restore : second.kind = .restore
        · exact .inl (.inr ⟨same, .inr ⟨equal, fun _ => restore⟩⟩)
        · exact .inr (.inr ⟨same.symm, .inr ⟨equal.symm, fun itself => absurd itself restore⟩⟩)
      · exact .inr (.inr ⟨same.symm, .inl lower⟩)
    · exact .inr (.inl older)

instance : IsTrans Activity Activity.precedes where
  trans first second third := by
    intro sooner later
    unfold Activity.precedes at *
    rcases sooner with newer | ⟨equal, higher | ⟨same, side⟩⟩ <;>
      rcases later with older | ⟨equal', lower | ⟨same', side'⟩⟩
    · exact .inl (by omega)
    · exact .inl (by omega)
    · exact .inl (by omega)
    · exact .inl (by omega)
    · exact .inr ⟨by omega, .inl (by omega)⟩
    · exact .inr ⟨by omega, .inl (by omega)⟩
    · exact .inl (by omega)
    · exact .inr ⟨by omega, .inl (by omega)⟩
    · exact .inr ⟨by omega, .inr ⟨by omega, fun restore => side' (side restore)⟩⟩

theorem jobRunsQuery_eq (references : db.RunsReferential) :
    jobRunsQuery db = db.jobRuns.rows.map fun entry =>
      let job := db.backupJobs.get? entry.2.jobId
      entry.2.activity entry.1 (job.map BackupJob.name)
        (job.bind fun row =>
          (db.repositories.get? row.repositoryId).bind Repository.targetId) := by
  rw [← List.filterMap_eq_map]
  apply List.filterMap_congr
  intro entry member
  obtain ⟨job, found⟩ := Option.isSome_iff_exists.mp (references.jobs entry member)
  obtain ⟨repository, held⟩ :=
    Option.isSome_iff_exists.mp (references.repositories entry.2.jobId job found)
  simp [found, held]

theorem activities_eq (references : db.RunsReferential) :
    db.activities = jobRunsQuery db ++ restoreRunsQuery db := by
  rw [jobRunsQuery_eq references]
  rfl

theorem kind_of_jobRunsQuery (member : row ∈ jobRunsQuery db) :
    ∃ kind, row.kind = .run kind := by
  obtain ⟨entry, -, joined⟩ := List.mem_filterMap.mp member
  obtain ⟨job, -, rest⟩ := Option.bind_eq_some_iff.mp joined
  obtain ⟨repository, -, rfl⟩ := Option.map_eq_some_iff.mp rest
  exact ⟨entry.2.kind, rfl⟩

theorem kind_of_restoreRunsQuery (member : row ∈ restoreRunsQuery db) : row.kind = .restore := by
  obtain ⟨entry, -, rfl⟩ := List.mem_map.mp member
  rfl

theorem mem_feedRows (references : db.RunsReferential) (accepted : opts.Accepted visible) :
    row ∈ feedRows fold db opts (acceptedParameters visible opts) ↔
      row ∈ db.activities ∧ visible.shows row.jobId ∧ opts.Admits fold row := by
  unfold feedRows
  rw [List.mem_insertionSort, List.mem_append, List.mem_filter, List.mem_filter,
    activities_eq references, List.mem_append]
  constructor
  · rintro (⟨member, met⟩ | ⟨member, met⟩)
    · obtain ⟨kind, side⟩ := kind_of_jobRunsQuery member
      exact ⟨.inl member, (jobRunsWhere_iff accepted side).mp met⟩
    · exact ⟨.inr member,
        (restoreRunsWhere_iff accepted (kind_of_restoreRunsQuery member)).mp met⟩
  · rintro ⟨member | member, met⟩
    · obtain ⟨kind, side⟩ := kind_of_jobRunsQuery member
      exact .inl ⟨member, (jobRunsWhere_iff accepted side).mpr met⟩
    · exact .inr ⟨member,
        (restoreRunsWhere_iff accepted (kind_of_restoreRunsQuery member)).mpr met⟩

/-- Rows of one side with one identifier are the same row. -/
theorem jobRunsQuery_nodup (references : db.RunsReferential) :
    ((jobRunsQuery db).map Activity.id).Nodup := by
  rw [jobRunsQuery_eq references, List.map_map]
  exact db.jobRuns.distinct

theorem restoreRunsQuery_nodup (db : Db) : ((restoreRunsQuery db).map Activity.id).Nodup := by
  unfold restoreRunsQuery
  rw [List.map_map]
  exact db.restoreRuns.distinct

theorem activities_nodup (references : db.RunsReferential) : db.activities.Nodup := by
  rw [activities_eq references, List.nodup_append]
  refine ⟨.of_map _ (jobRunsQuery_nodup references), .of_map _ (restoreRunsQuery_nodup db), ?_⟩
  rintro run member restore listed rfl
  obtain ⟨kind, side⟩ := kind_of_jobRunsQuery member
  rw [kind_of_restoreRunsQuery listed] at side
  cases side

theorem feedRows_sublist (references : db.RunsReferential) (bound : FeedParameters) :
    ∃ rows, rows.Sublist db.activities ∧ (feedRows fold db opts bound).Perm rows := by
  refine ⟨_, ?_, List.perm_insertionSort _ _⟩
  rw [activities_eq references]
  exact List.filter_sublist.append List.filter_sublist

theorem feedRows_nodup (references : db.RunsReferential) (bound : FeedParameters) :
    (feedRows fold db opts bound).Nodup := by
  obtain ⟨rows, part, same⟩ := @feedRows_sublist fold db opts references bound
  exact same.nodup_iff.mpr ((activities_nodup references).sublist part)

theorem feedRows_length (references : db.RunsReferential) (bound : FeedParameters) :
    (feedRows fold db opts bound).length ≤ db.activities.length := by
  obtain ⟨rows, part, same⟩ := @feedRows_sublist fold db opts references bound
  rw [same.length_eq]
  exact part.length_le

theorem feedRows_ordered (fold : CaseFold) (db : Db) (opts : ListOptions)
    (bound : FeedParameters) : (feedRows fold db opts bound).Pairwise Activity.precedes :=
  List.pairwise_insertionSort _ _

theorem precedes_createdAt {first second : Activity} (sooner : first.precedes second) :
    second.createdAt ≤ first.createdAt := by
  unfold Activity.precedes at sooner
  omega

/-! ## Paging -/

theorem mapM_ok {α β : Type} (items : List α) (value : α → β) :
    (items.mapM fun item => (Except.ok (value item) : Except Failure β)) =
      .ok (items.map value) := by
  induction items with
  | nil => rfl
  | cons item items ih =>
      rw [List.mapM_cons, ih]
      rfl

theorem listActivities_accepted (accepted : opts.Accepted (visibleResourceTexts db user .job))
    (filled : visibleResourceTexts db user .job ≠ .only []) :
    listActivities fold db user opts =
      .ok (page (min (opts.limit.getD 50) 200) (opts.offset.getD 0)
        (feedRows fold db opts (acceptedParameters (visibleResourceTexts db user .job) opts))) := by
  unfold listActivities
  split
  case h_1 none => exact absurd none filled
  case h_2 visible other =>
    rw [bindParameters_eq accepted]
    rfl

theorem listActivities_nothing (nothing : visibleResourceTexts db user .job = .only []) :
    listActivities fold db user opts = .ok [] := by
  unfold listActivities
  rw [nothing]

/-- **The activity feed.** The pages of a length put together show every visible activity that
satisfies the filters once, newest first, and no other. -/
theorem feed_pages (fold : CaseFold) {db : Db} {user : Viewer} {opts : ListOptions}
    {limit count : Nat} (references : db.RunsReferential)
    (accepted : opts.Accepted (visibleResourceTexts db user .job)) (atMost : limit ≤ 200)
    (enough : db.activities.length ≤ count * limit) :
    ∃ shown, feedPages fold db user opts limit count = .ok shown ∧ shown.Nodup ∧
      shown.Pairwise (fun first second => second.createdAt ≤ first.createdAt) ∧
      ∀ row, row ∈ shown ↔
        row ∈ db.activities ∧ (visibleResourceTexts db user .job).shows row.jobId ∧
          opts.Admits fold row := by
  by_cases nothing : visibleResourceTexts db user .job = .only []
  · have empty : ((List.range count).map fun _ => ([] : List Activity)).flatten = [] := by
      rw [List.flatten_eq_nil_iff]
      intro part member
      exact (List.mem_map.mp member).elim fun _ same => same.2.symm
    refine ⟨[], ?_, List.nodup_nil, List.Pairwise.nil, ?_⟩
    · unfold feedPages
      simp only [listActivities_nothing nothing, mapM_ok, Except.map, empty]
    · intro row
      rw [nothing]
      simp [VisibleTexts.shows]
  · obtain ⟨rows, whole⟩ : ∃ rows,
        feedRows fold db opts (acceptedParameters (visibleResourceTexts db user .job) opts) = rows :=
      ⟨_, rfl⟩
    have each : ∀ index, listActivities fold db user
        { opts with limit := some limit, offset := some (index * limit) } =
          .ok (page limit (index * limit) rows) := by
      intro index
      have same : ListOptions.Accepted (visibleResourceTexts db user .job)
          { opts with limit := some limit, offset := some (index * limit) } :=
        ⟨accepted.ids, accepted.jobId, accepted.kinds, accepted.status, accepted.search⟩
      rw [listActivities_accepted same nothing, ← whole]
      simp only [Option.getD_some, Nat.min_eq_left atMost]
      rfl
    have short : rows.length ≤ count * limit := by
      rw [← whole]
      exact Nat.le_trans (feedRows_length references _) enough
    refine ⟨rows, ?_, ?_, ?_, ?_⟩
    · unfold feedPages
      simp only [each, mapM_ok, Except.map]
      rw [← List.flatMap_def]
      exact congrArg Except.ok (pages_eq short)
    · rw [← whole]
      exact feedRows_nodup references _
    · rw [← whole]
      exact (feedRows_ordered fold db opts _).imp precedes_createdAt
    · intro row
      rw [← whole]
      exact mem_feedRows references accepted

end Feed

/-- A job with one backup, and a restore whose job was deleted. -/
def feedExample : Db where
  repositories := .ofList [(1, {
    name := "files", targetId := none, repoConfig := [], repoPasswordSecretId := 1 })]
  backupJobs := .ofList [(2, {
    name := "100% nightly", location := .«local», repositoryId := 1 })]
  jobRuns := .ofList [(3, { jobId := 2, trigger := .manual, createdAt := 5 })]
  restoreRuns := .ofList [(4, {
    targetId := none, jobId := none, repoConfig := [], repoPasswordSecretId := 1,
    credentialSecretId := none, snapshotId := "s", mode := .original, initiatedBy := 1,
    createdAt := 6 })]

def feedAdmin : Viewer where
  id := 1
  isAdmin := true

/-- An administrator's key that names a job by its slug. -/
def slugKey : Viewer where
  id := 1
  isAdmin := true
  resources := some [(.job, "nightly")]

/-- A text that is no UUID and a text with a null character are errors, and an empty term shows a
restore without a job. -/
theorem feed_not_exact :
    feedPages .ascii feedExample feedAdmin { jobId := some "nightly" } 50 1 =
        .error (.error "invalid input syntax for type uuid: \"nightly\"") ∧
      feedPages .ascii feedExample slugKey {} 50 1 =
        .error (.error "invalid input syntax for type uuid: \"nightly\"") ∧
      feedPages .ascii feedExample feedAdmin { search := some "\x00" } 50 1 =
        .error (.error "invalid byte sequence for encoding \"UTF8\": 0x00") ∧
      ((feedPages .ascii feedExample feedAdmin { search := some "" } 50 1).map fun shown =>
        shown.map Activity.jobName) = .ok [none, some "100% nightly"] := by
  refine ⟨?_, ?_, ?_, ?_⟩ <;> decide +kernel

theorem feedExample_referential : feedExample.RunsReferential where
  jobs := by decide +kernel
  repositories := by
    intro id job found
    have member : (id, job) ∈ feedExample.backupJobs.rows := mem_of_find found
    have only : feedExample.backupJobs.rows = [(2, {
      name := "100% nightly", location := .«local», repositoryId := 1 })] := by decide +kernel
    rw [only, List.mem_singleton] at member
    cases member
    decide +kernel

theorem feed_shows_percent :
    ∃ shown, feedPages .ascii feedExample feedAdmin { search := some "0% N" } 1 2 = .ok shown ∧
      shown.Nodup ∧
      shown.Pairwise (fun first second => second.createdAt ≤ first.createdAt) ∧
      ∀ row, row ∈ shown ↔
        row ∈ feedExample.activities ∧
          (visibleResourceTexts feedExample feedAdmin .job).shows row.jobId ∧
          ListOptions.Admits .ascii { search := some "0% N" } row :=
  feed_pages .ascii feedExample_referential
    { ids := by
        intro texts only
        cases only
      jobId := by
        intro text given
        cases given
      kinds := by
        intro kind member
        cases member
      status := by
        intro text given
        cases given
      search := by
        intro term given
        cases given
        decide }
    (by decide) (by decide +kernel)

end AmberBackup
