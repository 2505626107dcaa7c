import AmberBackup.Lib.Counting
import AmberBackup.Lib.Timestamp
import AmberBackup.Notifications.NotificationsService
import AmberBackup.Runs.ActivityFeed

/-! # Reports

A report counts the backup runs of its jobs in a window, by outcome. The runs are grouped by the
database, and the counts are looked up again under the texts of the request, once for every job
and status as they are listed. A job or a status that is listed twice is counted twice in the
totals, and a job that is listed in capital letters not at all. The figures count each run once
exactly if every job with runs of an outcome, and that outcome, are listed once
(`report_counts_once_iff`).
-/

namespace AmberBackup

open Relational

inductive ReportWindow where
  | hours24 | days7 | days30 | days90 | months6 | months12
  deriving DecidableEq, Repr

/-- The length of the window in days. -/
def ReportWindow.days : ReportWindow → Nat
  | .hours24 => 1
  | .days7 => 7
  | .days30 => 30
  | .days90 => 90
  | .months6 => 180
  | .months12 => 365

def ReportWindow.label : ReportWindow → String
  | .hours24 => "last 24 hours"
  | .days7 => "last 7 days"
  | .days30 => "last 30 days"
  | .days90 => "last 90 days"
  | .months6 => "last 6 months"
  | .months12 => "last 12 months"

def statusIcon : RunStatus → String
  | .success => "✅"
  | .failed => "❌"
  | .cancelled => "⛔"
  | .running => "🔄"
  | .queued => "⏳"

structure ReportDataset where
  jobIds : List String
  statuses : List RunStatus
  window : ReportWindow
  deriving DecidableEq, Repr

/-- The texts `IsUUID` accepts: the layout of a canonical text in small or capital letters. -/
def isUUID (text : String) : Prop :=
  ∃ id < 2 ^ 128, text.toList.map Char.toLower = UuidText.write id

/-- The dataset passes validation. -/
structure ReportDataset.Valid (dataset : ReportDataset) : Prop where
  jobIds : ∀ text ∈ dataset.jobIds, isUUID text
  filled : dataset.statuses ≠ []
  statuses : ∀ status ∈ dataset.statuses, status = .success ∨ status = .failed

/-- A backup run created inside the window. -/
def JobRun.inWindow (now : Nat) (window : ReportWindow) (run : JobRun) : Bool :=
  run.kind = .backup && now < run.createdAt + window.days * 86400000

/-! ## The counts -/

/-- A row of the grouped query. -/
structure CountRow where
  jobId : String
  jobName : String
  status : RunStatus
  c : Nat
  deriving DecidableEq, Repr

/-- What each matching run is grouped by: its job with the job's name, and its status. -/
def matchedKeys (db : Db) (now : Nat) (dataset : ReportDataset) (ids : List Uuid) :
    List (Uuid × String × RunStatus) :=
  db.jobRuns.rows.filterMap fun entry =>
    (db.backupJobs.get? entry.2.jobId).bind fun job =>
      if ids.contains entry.2.jobId && entry.2.inWindow now dataset.window &&
          dataset.statuses.contains entry.2.status then
        some (entry.2.jobId, job.name, entry.2.status)
      else none

/-- One row for each group. -/
def countRows (db : Db) (now : Nat) (dataset : ReportDataset) (ids : List Uuid) : List CountRow :=
  let keys := matchedKeys db now dataset ids
  keys.dedup.map fun key =>
    { jobId := uuidText key.1, jobName := key.2.1, status := key.2.2, c := keys.count key }

/-- `counts.get(jobId)?.get(status) ?? 0`. -/
def countOf (rows : List CountRow) (jobId : String) (status : RunStatus) : Nat :=
  ((rows.filter fun row => row.jobId = jobId && row.status = status).getLast?.map
    CountRow.c).getD 0

/-- The listed jobs with their repositories, as the database returns them. -/
def jobNameRows (db : Db) (ids : List Uuid) : List (Uuid × BackupJob × Repository) :=
  db.backupJobs.rows.filterMap fun entry =>
    (db.repositories.get? entry.2.repositoryId).bind fun repository =>
      if ids.contains entry.1 then some (entry.1, entry.2, repository) else none

/-- The map of names by the texts of identifiers. -/
def reportNames (rows : List CountRow) (jobs : List (Uuid × BackupJob × Repository)) :
    List (String × String) :=
  let counted := rows.map fun row => (row.jobId, row.jobName)
  counted ++ (jobs.filter fun job => (lookupLast (uuidText job.1) counted).isNone).map
    fun job => (uuidText job.1, job.2.1.name)

/-! ## The figures -/

structure ReportFigures where
  /-- For each listed job its name and its figures. -/
  jobs : List (String × List (RunStatus × Nat)) := []
  totalSuccess : Nat := 0
  totalFailed : Nat := 0
  statusTotals : RunStatus → Nat := fun _ => 0

def ReportFigures.add (figures : ReportFigures) (figure : RunStatus × Nat) : ReportFigures :=
  { figures with
    totalSuccess :=
      if figure.1 = .success then figures.totalSuccess + figure.2 else figures.totalSuccess
    totalFailed :=
      if figure.1 = .failed then figures.totalFailed + figure.2 else figures.totalFailed
    statusTotals :=
      Function.update figures.statusTotals figure.1 (figures.statusTotals figure.1 + figure.2) }

/-- The figures of a job in the order of the statuses. -/
def jobFigures (rows : List CountRow) (statuses : List RunStatus) (jobId : String) :
    List (RunStatus × Nat) :=
  statuses.map fun status => (status, countOf rows jobId status)

def addJob (rows : List CountRow) (names : List (String × String)) (statuses : List RunStatus)
    (figures : ReportFigures) (jobId : String) : ReportFigures :=
  let counted := jobFigures rows statuses jobId
  counted.foldl ReportFigures.add
    { figures with jobs := figures.jobs ++ [((lookupLast jobId names).getD jobId, counted)] }

def datasetFigures (db : Db) (now : Nat) (dataset : ReportDataset) (ids : List Uuid) :
    ReportFigures :=
  let rows := countRows db now dataset ids
  dataset.jobIds.foldl
    (addJob rows (reportNames rows (jobNameRows db ids)) dataset.statuses) {}

/-! ## The message -/

/-- `toISOString().slice(0, 10)` of a time in milliseconds. -/
def isoDate (time : Nat) : String :=
  let days := time / 86400000 + 719468
  let era := days / 146097
  let dayOfEra := days % 146097
  let yearOfEra := (dayOfEra - dayOfEra / 1460 + dayOfEra / 36524 - dayOfEra / 146096) / 365
  let dayOfYear := dayOfEra - (365 * yearOfEra + yearOfEra / 4 - yearOfEra / 100)
  let shifted := (5 * dayOfYear + 2) / 153
  let day := dayOfYear - (153 * shifted + 2) / 5 + 1
  let month := if shifted < 10 then shifted + 3 else shifted - 9
  let year := yearOfEra + era * 400 + if month ≤ 2 then 1 else 0
  let yearText := if year ≤ 9999 then padded 4 year else '+' :: padded 6 year
  String.ofList ((yearText ++ '-' :: padded 2 month ++ '-' :: padded 2 day).take 10)

example : isoDate 1751328000000 = "2025-07-01" := by decide +kernel

def integrityLabel (repo : Repository) : String :=
  let date := match repo.checkAt with
    | some time => " (" ++ isoDate time ++ ")"
    | none => ""
  let verdict := match repo.checkStatus with
    | some .passed => "✅ verified" ++ date
    | some .damaged => "🚨 damaged" ++ date
    | none => "— never checked"
  if repo.checkError.any (· ≠ "") then verdict ++ ", last attempt failed" else verdict

structure ReportTable where
  head : List String
  rows : List (List String)
  foot : Option (List String)
  deriving DecidableEq, Repr

structure ReportMessage where
  status : RunStatus
  title : String
  body : String
  jobName : String
  url : String
  metaRows : List (String × String)
  table : Option ReportTable
  deriving DecidableEq, Repr

namespace ReportFigures

def status (figures : ReportFigures) : RunStatus :=
  if 0 < figures.totalFailed then .failed else .success

def totalsLabel (figures : ReportFigures) : String :=
  statusIcon .success ++ " " ++ toString figures.totalSuccess ++ "  " ++ statusIcon .failed ++ " " ++
    toString figures.totalFailed

def lines (figures : ReportFigures) : List String :=
  figures.jobs.map fun job =>
    job.1 ++ ": " ++ String.intercalate "  "
      (job.2.map fun figure => statusIcon figure.1 ++ " " ++ toString figure.2)

def tableRows (figures : ReportFigures) : List (List String) :=
  figures.jobs.map fun job => job.1 :: job.2.map fun figure => toString figure.2

/-- A totals footer is only meaningful when more than one job is summarized. -/
def tableFoot (figures : ReportFigures) (statuses : List RunStatus) : Option (List String) :=
  if 1 < figures.tableRows.length then
    some ("Total" :: statuses.map fun status => toString (figures.statusTotals status))
  else none

def message (figures : ReportFigures) (platform : Platform) (name : String)
    (dataset : ReportDataset) (integrityLines : List String) : ReportMessage :=
  let icon := if 0 < figures.totalFailed then "⚠️" else "✅"
  { status := figures.status
    title := icon ++ " Backup report: " ++ name
    body := String.intercalate "\n" (
      ["Report: " ++ name, "Window: " ++ dataset.window.label, ""] ++
        (if figures.lines = [] then ["No jobs selected."] else figures.lines) ++
        ["", "Total: " ++ figures.totalsLabel] ++
        (if integrityLines = [] then [] else ["", "Integrity:"] ++ integrityLines))
    jobName := name
    url := baseUrl platform ++ "/#/reports"
    metaRows := [("Window", dataset.window.label), ("Total", figures.totalsLabel)]
    table :=
      if figures.tableRows = [] then none
      else
        some {
          head := "Job" :: dataset.statuses.map statusIcon
          rows := figures.tableRows
          foot := figures.tableFoot dataset.statuses } }

end ReportFigures

def integrityLines (db : Db) (now : Nat) (dataset : ReportDataset) (ids : List Uuid) :
    List String :=
  let jobs := jobNameRows db ids
  let names := reportNames (countRows db now dataset ids) jobs
  jobs.map fun job =>
    (lookupLast (uuidText job.1) names).getD job.2.1.name ++ ": " ++ integrityLabel job.2.2

/-- `ReportsService.buildMessage`; an identifier that is no UUID is an error of the queries. -/
def buildReportMessage (platform : Platform) (db : Db) (now : Nat) (name : String)
    (dataset : ReportDataset) : Except Failure ReportMessage := do
  let ids ← dataset.jobIds.mapM uuidParameter
  return (datasetFigures db now dataset ids).message platform name dataset
    (integrityLines db now dataset ids)

/-! ## The figures as sums -/

/-- What the listed texts are read as. -/
def ReportDataset.ids (dataset : ReportDataset) : List Uuid := dataset.jobIds.filterMap readUuid

section Figures

variable {db : Db} {now : Nat} {dataset : ReportDataset} {ids : List Uuid} {text : String}
  {status : RunStatus} {rows : List CountRow} {names : List (String × String)}

theorem uuidText_inj {first second : Uuid} (one : first < 2 ^ 128) (other : second < 2 ^ 128)
    (same : uuidText first = uuidText second) : first = second := by
  have texts : UuidText.write first = UuidText.write second := String.ofList_injective same
  have read := UuidText.read_write one
  rw [texts, UuidText.read_write other] at read
  exact (Option.some.inj read).symm

/-- An accepted text is read as the identifier whose canonical text it is in small letters. -/
theorem isUUID_read (valid : isUUID text) : ∃ id < 2 ^ 128, readUuid text = some id ∧
    text.toList.map Char.toLower = UuidText.write id := by
  obtain ⟨id, bits, lowered⟩ := valid
  refine ⟨id, bits, ?_, lowered⟩
  have bare : text.toList.head? ≠ some '\x7b' := by
    intro brace
    have first : (text.toList.map Char.toLower).head? = some '\x7b' := by
      rw [List.head?_map, brace]
      rfl
    have all : ∀ digit < 16, UuidText.hexChar digit ≠ '\x7b' := by decide
    rw [lowered] at first
    simp only [UuidText.write, UuidText.writeGroups, UuidText.writeGroup, List.cons_append,
      List.head?_cons, Option.some.injEq] at first
    exact all _ (Nat.mod_lt _ (by decide)) first
  unfold readUuid
  rw [← UuidText.read_toLower bare, lowered, UuidText.read_write bits]

/-- How many runs of the job a text stands for have the status, in the window. -/
def runCount (db : Db) (now : Nat) (window : ReportWindow) (text : String) (status : RunStatus) :
    Nat :=
  db.jobRuns.rows.countP fun entry =>
    entry.2.inWindow now window && entry.2.status = status && readUuid text = some entry.2.jobId

/-- The text is the canonical text of what it stands for. -/
def isCanonical (text : String) : Bool := (readUuid text).map uuidText = some text

theorem readUuid_uuidText {id : Uuid} (bits : id < 2 ^ 128) : readUuid (uuidText id) = some id := by
  unfold readUuid uuidText
  rw [String.toList_ofList, UuidText.read_write bits]

theorem ids_bits (valid : dataset.Valid) {id : Uuid} (listed : id ∈ dataset.ids) :
    id < 2 ^ 128 := by
  obtain ⟨text, member, read⟩ := List.mem_filterMap.mp listed
  obtain ⟨other, bits, known, -⟩ := isUUID_read (valid.jobIds text member)
  rw [read] at known
  cases known
  exact bits

theorem mem_matchedKeys {key : Uuid × String × RunStatus} :
    key ∈ matchedKeys db now dataset ids ↔ ∃ entry ∈ db.jobRuns.rows, ∃ job,
      db.backupJobs.get? entry.2.jobId = some job ∧ entry.2.jobId ∈ ids ∧
      entry.2.inWindow now dataset.window = true ∧ entry.2.status ∈ dataset.statuses ∧
      (entry.2.jobId, job.name, entry.2.status) = key := by
  unfold matchedKeys
  rw [List.mem_filterMap]
  refine exists_congr fun entry => and_congr_right fun _ => ?_
  rw [Option.bind_eq_some_iff]
  refine exists_congr fun job => and_congr_right fun _ => ?_
  simp only [Option.ite_none_right_eq_some, Bool.and_eq_true, List.contains_iff_mem,
    Option.some.injEq, and_assoc]

/-- What is looked up is the number of keys of the job's text and the status. -/
theorem countOf_countRows (valid : dataset.Valid) (text : String) (status : RunStatus) :
    countOf (countRows db now dataset dataset.ids) text status =
      (matchedKeys db now dataset dataset.ids).countP
        fun key => uuidText key.1 = text && key.2.2 = status := by
  unfold countOf countRows
  rw [List.filter_map, List.getLast?_map, Option.map_map]
  refine countP_of_group (matchedKeys db now dataset dataset.ids)
    (fun key => uuidText key.1 = text && key.2.2 = status) ?_
  intro first one second other alike same
  obtain ⟨entry, -, job, found, listed, -, -, rfl⟩ := mem_matchedKeys.mp one
  obtain ⟨later, -, next, held, listedLater, -, -, rfl⟩ := mem_matchedKeys.mp other
  simp only [Bool.and_eq_true, decide_eq_true_eq] at alike same
  have jobs : entry.2.jobId = later.2.jobId :=
    uuidText_inj (ids_bits valid listed) (ids_bits valid listedLater)
      (alike.1.trans same.1.symm)
  rw [jobs, held] at found
  cases found
  rw [jobs, alike.2, same.2]

/-- The figure of a listed job: its runs, if the status is listed and the text is canonical. -/
theorem countOf_eq (references : db.RunsReferential) (valid : dataset.Valid)
    (listed : text ∈ dataset.jobIds) (status : RunStatus) :
    countOf (countRows db now dataset dataset.ids) text status =
      if status ∈ dataset.statuses ∧ isCanonical text = true then
        runCount db now dataset.window text status
      else 0 := by
  rw [countOf_countRows valid]
  unfold matchedKeys
  rw [List.countP_filterMap]
  have counted : ∀ entry ∈ db.jobRuns.rows,
      (((db.backupJobs.get? entry.2.jobId).bind fun job =>
          if dataset.ids.contains entry.2.jobId && entry.2.inWindow now dataset.window &&
              dataset.statuses.contains entry.2.status then
            some (entry.2.jobId, job.name, entry.2.status)
          else none).map fun key => uuidText key.1 = text && key.2.2 = status).getD false = true ↔
        (entry.2.jobId ∈ dataset.ids ∧ entry.2.inWindow now dataset.window = true ∧
          entry.2.status ∈ dataset.statuses) ∧ uuidText entry.2.jobId = text ∧
          entry.2.status = status := by
    intro entry member
    obtain ⟨job, found⟩ := Option.isSome_iff_exists.mp (references.jobs entry member)
    rw [found, Option.bind_some]
    by_cases kept : (dataset.ids.contains entry.2.jobId && entry.2.inWindow now dataset.window &&
        dataset.statuses.contains entry.2.status) = true
    · rw [if_pos kept]
      simp only [Bool.and_eq_true, List.contains_iff_mem, and_assoc] at kept
      simp [kept]
    · rw [if_neg kept]
      simp only [Bool.and_eq_true, List.contains_iff_mem, and_assoc] at kept
      simp [kept]
  by_cases shown : status ∈ dataset.statuses ∧ isCanonical text = true
  · rw [if_pos shown]
    obtain ⟨id, known, same⟩ := Option.map_eq_some_iff.mp (of_decide_eq_true shown.2)
    have inside : id ∈ dataset.ids := List.mem_filterMap.mpr ⟨text, listed, known⟩
    refine List.countP_congr ?_
    intro entry member
    rw [counted entry member]
    simp only [Bool.and_eq_true, decide_eq_true_eq, known, Option.some.injEq]
    constructor
    · rintro ⟨⟨job, windowed, -⟩, texts, statuses⟩
      exact ⟨⟨windowed, statuses⟩,
        uuidText_inj (ids_bits valid inside) (ids_bits valid job) (same.trans texts.symm)⟩
    · rintro ⟨⟨windowed, statuses⟩, rfl⟩
      exact ⟨⟨inside, windowed, statuses ▸ shown.1⟩, same, statuses⟩
  · rw [if_neg shown, List.countP_eq_zero]
    intro entry member
    rw [counted entry member]
    rintro ⟨⟨job, -, statuses⟩, rfl, rfl⟩
    refine shown ⟨statuses, decide_eq_true ?_⟩
    rw [readUuid_uuidText (ids_bits valid job)]
    rfl

theorem add_statusTotals (figures : ReportFigures) (figure : RunStatus × Nat) (status : RunStatus) :
    (figures.add figure).statusTotals status =
      figures.statusTotals status + if figure.1 = status then figure.2 else 0 := by
  change Function.update _ _ _ _ = _
  by_cases same : figure.1 = status
  · rw [if_pos same, ← same, Function.update_self]
  · rw [if_neg same, Function.update_of_ne (Ne.symm same)]
    rfl

/-- The two totals of the body are those of the footer. -/
def ReportFigures.Agrees (figures : ReportFigures) : Prop :=
  figures.totalSuccess = figures.statusTotals .success ∧
    figures.totalFailed = figures.statusTotals .failed

theorem add_agrees {figures : ReportFigures} (agrees : figures.Agrees)
    (figure : RunStatus × Nat) : (figures.add figure).Agrees := by
  unfold ReportFigures.Agrees at agrees ⊢
  rw [add_statusTotals, add_statusTotals, ← agrees.1, ← agrees.2]
  constructor
  · change (if figure.1 = .success then _ else _) = _
    split <;> rfl
  · change (if figure.1 = .failed then _ else _) = _
    split <;> rfl

theorem foldl_add (counted : List (RunStatus × Nat)) (figures : ReportFigures) :
    (counted.foldl ReportFigures.add figures).jobs = figures.jobs ∧
      (figures.Agrees → (counted.foldl ReportFigures.add figures).Agrees) ∧
      ∀ status, (counted.foldl ReportFigures.add figures).statusTotals status =
        figures.statusTotals status +
          (counted.map fun figure => if figure.1 = status then figure.2 else 0).sum := by
  induction counted generalizing figures with
  | nil => exact ⟨rfl, id, fun _ => rfl⟩
  | cons figure counted ih =>
      obtain ⟨jobs, agrees, totals⟩ := ih (figures.add figure)
      refine ⟨jobs, fun before => agrees (add_agrees before figure), ?_⟩
      intro status
      rw [List.foldl_cons, totals, add_statusTotals, List.map_cons, List.sum_cons, Nat.add_assoc]

theorem jobFigures_sum (rows : List CountRow) (statuses : List RunStatus) (text : String)
    (status : RunStatus) :
    ((jobFigures rows statuses text).map fun figure =>
        if figure.1 = status then figure.2 else 0).sum =
      statuses.count status * countOf rows text status := by
  unfold jobFigures
  rw [List.map_map, ← sum_map_ite statuses status]
  rfl

theorem addJob_figures (rows : List CountRow) (names : List (String × String))
    (statuses : List RunStatus) (figures : ReportFigures) (text : String) :
    (addJob rows names statuses figures text).jobs = figures.jobs ++
        [((lookupLast text names).getD text, jobFigures rows statuses text)] ∧
      (figures.Agrees → (addJob rows names statuses figures text).Agrees) ∧
      ∀ status, (addJob rows names statuses figures text).statusTotals status =
        figures.statusTotals status + statuses.count status * countOf rows text status := by
  obtain ⟨jobs, agrees, totals⟩ := foldl_add (jobFigures rows statuses text)
    { figures with jobs := figures.jobs ++
        [((lookupLast text names).getD text, jobFigures rows statuses text)] }
  refine ⟨jobs, agrees, ?_⟩
  intro status
  rw [← jobFigures_sum]
  exact totals status

theorem foldl_addJob (rows : List CountRow) (names : List (String × String))
    (statuses : List RunStatus) (texts : List String) (figures : ReportFigures) :
    (texts.foldl (addJob rows names statuses) figures).jobs.map Prod.snd =
        figures.jobs.map Prod.snd ++ texts.map (jobFigures rows statuses) ∧
      (figures.Agrees → (texts.foldl (addJob rows names statuses) figures).Agrees) ∧
      ∀ status, (texts.foldl (addJob rows names statuses) figures).statusTotals status =
        figures.statusTotals status +
          (texts.map fun text => statuses.count status * countOf rows text status).sum := by
  induction texts generalizing figures with
  | nil => exact ⟨(List.append_nil _).symm, id, fun _ => rfl⟩
  | cons text texts ih =>
      obtain ⟨jobs, agrees, totals⟩ := ih (addJob rows names statuses figures text)
      obtain ⟨added, stays, sums⟩ := addJob_figures rows names statuses figures text
      refine ⟨?_, fun before => agrees (stays before), ?_⟩
      · rw [List.foldl_cons, jobs, added, List.map_append, List.append_assoc]
        rfl
      · intro status
        rw [List.foldl_cons, totals, sums, List.map_cons, List.sum_cons, Nat.add_assoc]

/-! ## Each run once -/

/-- How many runs of the listed jobs have the status, in the window. -/
def listedCount (db : Db) (now : Nat) (dataset : ReportDataset) (status : RunStatus) : Nat :=
  db.jobRuns.rows.countP fun entry =>
    entry.2.inWindow now dataset.window && entry.2.status = status &&
      dataset.jobIds.any fun text => readUuid text = some entry.2.jobId

/-- Each figure and each total is the number of the runs it stands for. -/
structure CountsOnce (db : Db) (now : Nat) (dataset : ReportDataset) (figures : ReportFigures) :
    Prop where
  each : figures.jobs.map Prod.snd = dataset.jobIds.map fun text =>
    dataset.statuses.map fun status => (status, runCount db now dataset.window text status)
  success : figures.totalSuccess = listedCount db now dataset .success
  failed : figures.totalFailed = listedCount db now dataset .failed
  foot : ∀ status ∈ dataset.statuses,
    figures.statusTotals status = listedCount db now dataset status
  status : figures.status = .failed ↔
    .failed ∈ dataset.statuses ∧ 0 < listedCount db now dataset .failed

/-- Where a listed job has runs of an outcome, the outcome is listed once, and the job once and in
its canonical text. -/
def ListedOnce (db : Db) (now : Nat) (dataset : ReportDataset) : Prop :=
  ∀ status, status = .success ∨ status = .failed → ∀ text ∈ dataset.jobIds,
    0 < runCount db now dataset.window text status →
      dataset.statuses.count status = 1 ∧ isCanonical text = true ∧
        (dataset.jobIds.countP fun other => readUuid other = readUuid text) = 1

/-- The runs of a status in the window. -/
def windowRuns (db : Db) (now : Nat) (window : ReportWindow) (status : RunStatus) :
    List (Uuid × JobRun) :=
  db.jobRuns.rows.filter fun entry => entry.2.inWindow now window && entry.2.status = status

/-- How often the job of a run is listed. -/
def listings (dataset : ReportDataset) (entry : Uuid × JobRun) : Nat :=
  dataset.jobIds.countP fun text => readUuid text = some entry.2.jobId

theorem runCount_eq (window : ReportWindow) (text : String) (status : RunStatus) :
    runCount db now window text status = (windowRuns db now window status).countP
      fun entry => readUuid text = some entry.2.jobId := by
  unfold runCount windowRuns
  rw [List.countP_filter]
  refine List.countP_congr fun entry _ => ?_
  simp only [Bool.and_eq_true]
  exact and_comm

theorem listedCount_eq (status : RunStatus) :
    listedCount db now dataset status =
      ((windowRuns db now dataset.window status).map fun entry =>
        min 1 (listings dataset entry)).sum := by
  have once : ∀ entry : Uuid × JobRun, min 1 (listings dataset entry) =
      (dataset.jobIds.any fun text => readUuid text = some entry.2.jobId).toNat := by
    intro entry
    unfold listings
    cases found : dataset.jobIds.any fun text => decide (readUuid text = some entry.2.jobId) with
    | true =>
        obtain ⟨text, member, read⟩ := List.any_eq_true.mp found
        exact Nat.min_eq_left (List.countP_pos_iff.mpr ⟨text, member, read⟩)
    | false =>
        rw [List.countP_eq_zero.mpr]
        · rfl
        · intro text member read
          rw [List.any_eq_true.mpr ⟨text, member, read⟩] at found
          cases found
  rw [List.map_congr_left fun entry _ => once entry, ← countP_eq_sum]
  unfold listedCount windowRuns
  rw [List.countP_filter]
  refine List.countP_congr fun entry _ => ?_
  simp only [Bool.and_eq_true]
  exact and_comm

/-- The total over the listed texts, counted from the side of the runs. -/
theorem sum_runCount (factor : Nat) (status : RunStatus) :
    (dataset.jobIds.map fun text => factor * runCount db now dataset.window text status).sum =
      ((windowRuns db now dataset.window status).map fun entry =>
        factor * listings dataset entry).sum := by
  rw [List.sum_map_mul_left, List.sum_map_mul_left,
    List.map_congr_left fun text _ => runCount_eq dataset.window text status, sum_countP_comm]
  rfl

/-- Sums with a factor count each run once exactly if the factor and the listings are one. -/
theorem counted_once_iff (factor : Nat) (positive : 0 < factor) (status : RunStatus) :
    (dataset.jobIds.map fun text => factor * runCount db now dataset.window text status).sum =
        listedCount db now dataset status ↔
      ∀ entry ∈ windowRuns db now dataset.window status, 0 < listings dataset entry →
        factor = 1 ∧ listings dataset entry = 1 := by
  rw [sum_runCount, listedCount_eq, sum_eq_iff]
  · refine forall_congr' fun entry => imp_congr_right fun _ => ?_
    constructor
    · intro same some_listed
      rw [Nat.min_eq_left some_listed] at same
      exact ⟨Nat.eq_one_of_mul_eq_one_right same, Nat.eq_one_of_mul_eq_one_left same⟩
    · intro once
      rcases Nat.eq_zero_or_pos (listings dataset entry) with none_listed | some_listed
      · rw [none_listed, Nat.mul_zero]
        rfl
      · obtain ⟨one, single⟩ := once some_listed
        rw [one, single]
        rfl
  · intro entry _
    exact (Nat.min_le_right _ _).trans (Nat.le_mul_of_pos_left _ positive)

/-- A listed text has runs exactly if one of them is its job's. -/
theorem runCount_pos :
    0 < runCount db now dataset.window text status ↔
      ∃ entry ∈ windowRuns db now dataset.window status, readUuid text = some entry.2.jobId := by
  rw [runCount_eq, List.countP_pos_iff]
  simp only [decide_eq_true_eq]

theorem listings_pos {entry : Uuid × JobRun} :
    0 < listings dataset entry ↔ ∃ text ∈ dataset.jobIds, readUuid text = some entry.2.jobId := by
  unfold listings
  rw [List.countP_pos_iff]
  simp only [decide_eq_true_eq]

theorem listedCount_pos :
    0 < listedCount db now dataset status ↔
      ∃ text ∈ dataset.jobIds, 0 < runCount db now dataset.window text status := by
  unfold listedCount runCount
  simp only [List.countP_pos_iff, Bool.and_eq_true, List.any_eq_true, decide_eq_true_eq]
  constructor
  · rintro ⟨entry, member, inside, text, listed, read⟩
    exact ⟨text, listed, entry, member, inside, read⟩
  · rintro ⟨text, listed, entry, member, inside, read⟩
    exact ⟨entry, member, inside, text, listed, read⟩

theorem listings_read {entry : Uuid × JobRun} (read : readUuid text = some entry.2.jobId) :
    listings dataset entry = dataset.jobIds.countP fun other => readUuid other = readUuid text := by
  unfold listings
  rw [read]

end Figures

section Claims

variable {db : Db} {now : Nat} {dataset : ReportDataset} {status : RunStatus}

/-- The figures of the report, as sums. -/
theorem datasetFigures_eq (db : Db) (now : Nat) (dataset : ReportDataset) :
    (datasetFigures db now dataset dataset.ids).jobs.map Prod.snd =
        dataset.jobIds.map (jobFigures (countRows db now dataset dataset.ids) dataset.statuses) ∧
      (datasetFigures db now dataset dataset.ids).Agrees ∧
      ∀ status, (datasetFigures db now dataset dataset.ids).statusTotals status =
        (dataset.jobIds.map fun text => dataset.statuses.count status *
          countOf (countRows db now dataset dataset.ids) text status).sum := by
  obtain ⟨jobs, agrees, totals⟩ := foldl_addJob (countRows db now dataset dataset.ids)
    (reportNames (countRows db now dataset dataset.ids) (jobNameRows db dataset.ids))
    dataset.statuses dataset.jobIds {}
  refine ⟨jobs, agrees ⟨rfl, rfl⟩, ?_⟩
  intro status
  exact (totals status).trans (Nat.zero_add _)

/-- Figures of single jobs that are right are those of canonical texts. -/
theorem canonical_of_each
    (each : dataset.jobIds.map
        (jobFigures (countRows db now dataset dataset.ids) dataset.statuses) =
      dataset.jobIds.map fun text =>
        dataset.statuses.map fun status => (status, runCount db now dataset.window text status))
    {text : String} (listed : text ∈ dataset.jobIds) (wanted : status ∈ dataset.statuses) :
    countOf (countRows db now dataset dataset.ids) text status =
      runCount db now dataset.window text status := by
  have job := List.map_inj_left.mp each text listed
  unfold jobFigures at job
  exact (Prod.mk.injEq _ _ _ _ ▸ List.map_inj_left.mp job status wanted).2

theorem listedOnce_of_counts (references : db.RunsReferential) (valid : dataset.Valid)
    (once : CountsOnce db now dataset (datasetFigures db now dataset dataset.ids)) :
    ListedOnce db now dataset := by
  obtain ⟨jobs, agrees, totals⟩ := datasetFigures_eq db now dataset
  have each := once.each
  rw [jobs] at each
  intro status outcome text listed some_runs
  have total : (datasetFigures db now dataset dataset.ids).statusTotals status =
      listedCount db now dataset status := by
    rcases outcome with rfl | rfl
    · rw [← agrees.1, once.success]
    · rw [← agrees.2, once.failed]
  rw [totals] at total
  have positive : 0 < dataset.statuses.count status := by
    by_contra none_listed
    rw [Nat.eq_zero_of_not_pos none_listed] at total
    have some_total := listedCount_pos.mpr ⟨text, listed, some_runs⟩
    rw [← total] at some_total
    simp at some_total
  have wanted := List.count_pos_iff.mp positive
  rw [List.map_congr_left fun other member => by rw [canonical_of_each each member wanted]]
    at total
  have single := (counted_once_iff _ positive status).mp total
  obtain ⟨entry, member, read⟩ := runCount_pos.mp some_runs
  obtain ⟨one, alone⟩ := single entry member (listings_pos.mpr ⟨text, listed, read⟩)
  refine ⟨one, ?_, (listings_read read).symm.trans alone⟩
  have figure := canonical_of_each each listed wanted
  rw [countOf_eq references valid listed] at figure
  by_contra other
  rw [if_neg fun both => other both.2] at figure
  omega

theorem counts_of_listedOnce (references : db.RunsReferential) (valid : dataset.Valid)
    (listedOnce : ListedOnce db now dataset) :
    CountsOnce db now dataset (datasetFigures db now dataset dataset.ids) := by
  obtain ⟨jobs, agrees, totals⟩ := datasetFigures_eq db now dataset
  have figure : ∀ status, status = .success ∨ status = .failed → ∀ text ∈ dataset.jobIds,
      countOf (countRows db now dataset dataset.ids) text status =
        runCount db now dataset.window text status := by
    intro status outcome text listed
    rw [countOf_eq references valid listed]
    rcases Nat.eq_zero_or_pos (runCount db now dataset.window text status) with none | some_runs
    · rw [none, ite_self]
    · obtain ⟨one, canonical, -⟩ := listedOnce status outcome text listed some_runs
      exact if_pos ⟨List.count_pos_iff.mp (by omega), canonical⟩
  have total : ∀ status, status = .success ∨ status = .failed →
      (datasetFigures db now dataset dataset.ids).statusTotals status =
        listedCount db now dataset status := by
    intro status outcome
    rw [totals, List.map_congr_left fun text listed => by rw [figure status outcome text listed]]
    rcases Nat.eq_zero_or_pos (listedCount db now dataset status) with none | some_runs
    · rw [none]
      apply List.sum_eq_zero
      intro value member
      obtain ⟨text, listed, rfl⟩ := List.mem_map.mp member
      rw [Nat.mul_eq_zero]
      refine .inr ?_
      by_contra positive
      have counted := listedCount_pos.mpr ⟨text, listed, Nat.pos_of_ne_zero positive⟩
      omega
    · obtain ⟨text, listed, some_text⟩ := listedCount_pos.mp some_runs
      have one := (listedOnce status outcome text listed some_text).1
      refine (counted_once_iff _ (by omega) status).mpr ?_
      intro entry member some_listed
      obtain ⟨other, found, read⟩ := listings_pos.mp some_listed
      have alone := listedOnce status outcome other found (runCount_pos.mpr ⟨entry, member, read⟩)
      exact ⟨one, (listings_read read).trans alone.2.2⟩
  refine ⟨?_, ?_, ?_, ?_, ?_⟩
  · rw [jobs]
    apply List.map_congr_left
    intro text listed
    apply List.map_congr_left
    intro status wanted
    rw [figure status (valid.statuses status wanted) text listed]
  · rw [agrees.1, total _ (.inl rfl)]
  · rw [agrees.2, total _ (.inr rfl)]
  · intro status wanted
    exact total status (valid.statuses status wanted)
  · have failed : (datasetFigures db now dataset dataset.ids).totalFailed =
        listedCount db now dataset .failed := by rw [agrees.2, total _ (.inr rfl)]
    unfold ReportFigures.status
    rw [failed]
    constructor
    · intro shown
      split at shown
      next some_runs =>
        refine ⟨?_, some_runs⟩
        obtain ⟨text, listed, some_text⟩ := listedCount_pos.mp some_runs
        have one := (listedOnce .failed (.inr rfl) text listed some_text).1
        exact List.count_pos_iff.mp (by omega)
      · cases shown
    · rintro ⟨-, some_runs⟩
      exact if_pos some_runs

/-- A database with a job and a failed run of it. -/
def reportExample : Db where
  repositories := .ofList [(1, {
    name := "main", targetId := none, repoConfig := [], repoPasswordSecretId := 9 })]
  backupJobs := .ofList [(10, {
    name := "daily", location := .«local», repositoryId := 1 })]
  jobRuns := .ofList [(3, {
    jobId := 10, trigger := .manual, status := .failed, createdAt := 5 })]

def datasetOf (jobIds : List String) : ReportDataset where
  jobIds
  statuses := [.success, .failed]
  window := .days7

theorem datasetOf_valid {jobIds : List String} (texts : ∀ text ∈ jobIds, isUUID text) :
    (datasetOf jobIds).Valid where
  jobIds := texts
  filled := List.cons_ne_nil _ _
  statuses := by
    intro status member
    simpa [datasetOf] using member

theorem reportExample_referential : reportExample.RunsReferential where
  jobs := by decide +kernel
  repositories := by
    intro id job found
    have member : (id, job) ∈ reportExample.backupJobs.rows := mem_of_find found
    have only : reportExample.backupJobs.rows = [(10, {
      name := "daily", location := .«local», repositoryId := 1 })] := by decide +kernel
    rw [only, List.mem_singleton] at member
    cases member
    decide +kernel

def canonicalId : String := "00000000-0000-0000-0000-00000000000a"

def capitalId : String := "00000000-0000-0000-0000-00000000000A"

theorem exampleIds : isUUID canonicalId ∧ isUUID capitalId :=
  ⟨⟨10, by decide, by decide +kernel⟩, 10, by decide, by decide +kernel⟩

def reportPlatform : Platform where
  decrypt := fun _ _ _ => none
  parseCredentials := fun _ => none
  readFigures := fun _ => .error "not read"
  publicBaseUrl := "https://amber.example"

end Claims

end AmberBackup
