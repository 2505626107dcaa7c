import AmberBackup.GoAgent.Main
import AmberBackup.Restic.ResticService

/-! # The output of a backup on the server and on the agent

Both read the messages of restic as they come. The server keeps the statistics of the last
message, the agent those of the last summary; what either makes of the output is decided by the
last summary and the last status after it (`heard`). They report the same snapshot and
statistics exactly for the outputs of `outputs_agree_iff`.
-/

namespace AmberBackup

/-- `msg.message_type`, if it is a text. -/
def Message.type (message : Message) : Option String :=
  match message.field "message_type" with
  | some (.text type) => some type
  | _ => none

/-- A field of the statistics, where `null` is as good as none. -/
def statistic (name : String) (stats : List (String × Json)) : Json :=
  (lookupLast name stats).getD .null

/-! ## The server -/

namespace ResticService

/-- The fields of a message that are not undefined, under their names in the statistics. -/
def picked (names : List (String × String)) (message : Message) : List (String × Json) :=
  names.filterMap fun (name, source) => (message.field source).map (name, ·)

def statusFields : List (String × String) :=
  [("percentDone", "percent_done"), ("bytesDone", "bytes_done"), ("totalBytes", "total_bytes"),
    ("filesDone", "files_done"), ("totalFiles", "total_files")]

def summaryFields : List (String × String) :=
  [("filesNew", "files_new"), ("filesChanged", "files_changed"),
    ("filesUnmodified", "files_unmodified"), ("dirsNew", "dirs_new"),
    ("dataAdded", "data_added"), ("totalBytesProcessed", "total_bytes_processed"),
    ("totalFilesProcessed", "total_files_processed"), ("totalDuration", "total_duration")]

/-- `BackupResult`. -/
structure BackupResult where
  snapshotId : Json := .null
  stats : List (String × Json) := []

/-- `{ ...stats, percentDone: …, totalFiles: … }`, where an undefined field is as good as none. -/
def withStatus (stats : List (String × Json)) (message : Message) : List (String × Json) :=
  (stats.filter fun entry => entry.1 ∉ statusFields.map Prod.fst) ++ picked statusFields message

def summaryStats (message : Message) : List (String × Json) :=
  picked summaryFields message ++ [("percentDone", .number 1)]

/-- `onStdoutLine` of `backup`, for a line that decodes. -/
def onStdoutLine (result : BackupResult) (message : Message) : BackupResult :=
  if message.type = some "status" then
    { result with stats := withStatus result.stats message }
  else if message.type = some "summary" then
    { snapshotId := (message.field "snapshot_id").getD .null, stats := summaryStats message }
  else result

/-- What `backup` returns of the output. -/
def backupOutput (messages : List Message) : BackupResult := messages.foldl onStdoutLine {}

end ResticService

/-! ## What is heard of an output -/

/-- The last summary, and the last status after it. -/
structure Heard where
  summary : Option Message := none
  status : Option Message := none

def Heard.hear (heard : Heard) (message : Message) : Heard :=
  if message.type = some "status" then { heard with status := some message }
  else if message.type = some "summary" then { summary := some message }
  else heard

def heard (messages : List Message) : Heard := messages.foldl Heard.hear {}

variable {messages : List Message} {message : Message} {name source : String}

theorem heard_concat : heard (messages ++ [message]) = (heard messages).hear message :=
  List.foldl_concat ..

namespace ResticService

/-- The result of the server for what was heard. -/
def ofHeard (heard : Heard) : BackupResult where
  snapshotId := (heard.summary.bind (·.field "snapshot_id")).getD .null
  stats :=
    let stats := (heard.summary.map summaryStats).getD []
    (heard.status.map (withStatus stats)).getD stats

theorem withStatus_withStatus (stats : List (String × Json)) (first second : Message) :
    withStatus (withStatus stats first) second = withStatus stats second := by
  have gone : (picked statusFields first).filter
      (fun entry => entry.1 ∉ statusFields.map Prod.fst) = [] := by
    apply List.filter_eq_nil_iff.mpr
    intro entry listed
    obtain ⟨field, member, found⟩ := List.mem_filterMap.mp listed
    obtain ⟨value, -, rfl⟩ := Option.map_eq_some_iff.mp found
    exact fun absent => of_decide_eq_true absent (List.mem_map_of_mem member)
  unfold withStatus
  rw [List.filter_append, gone, List.append_nil, List.filter_filter]
  simp only [Bool.and_self]

theorem onStdoutLine_ofHeard (heard : Heard) (message : Message) :
    onStdoutLine (ofHeard heard) message = ofHeard (heard.hear message) := by
  unfold onStdoutLine Heard.hear
  split
  · cases previous : heard.status with
    | none => simp only [ofHeard, previous, Option.map_none, Option.getD_none, Option.map_some,
        Option.getD_some]
    | some status =>
        simp only [ofHeard, previous, Option.map_some, Option.getD_some, withStatus_withStatus]
  · split
    · rfl
    · rfl

/-- The server keeps what is heard. -/
theorem backupOutput_eq (messages : List Message) :
    backupOutput messages = ofHeard (heard messages) := by
  induction messages using List.reverseRecOn with
  | nil => rfl
  | append_singleton messages message ih =>
      rw [heard_concat, ← onStdoutLine_ofHeard, ← ih]
      exact List.foldl_concat ..

end ResticService

namespace GoAgent

theorem lastMessage_concat (type : String) (messages : List Message) (message : Message) :
    lastMessage type (messages ++ [message]) =
      if message.type = some type then some message else lastMessage type messages := by
  unfold lastMessage Message.type
  rw [List.filter_append, List.filter_singleton]
  cases message.field "message_type" with
  | none => simp
  | some value =>
      cases value with
      | text text =>
          by_cases same : text = type
          · simp [same]
          · simp [same]
      | null | boolean flag | number value | array items | object fields => simp

/-- The agent keeps the summary that is heard. -/
theorem lastMessage_summary (messages : List Message) :
    lastMessage "summary" messages = (heard messages).summary := by
  induction messages using List.reverseRecOn with
  | nil => rfl
  | append_singleton messages message ih =>
      rw [heard_concat, lastMessage_concat, ih]
      unfold Heard.hear
      by_cases status : message.type = some "status"
      · rw [if_pos status, status, if_neg (by decide)]
      · rw [if_neg status]
        split <;> rfl

end GoAgent

/-! ## Agreement -/

/-- The agent reports the snapshot and the statistics that the server returns, where an absent
value is as good as `null`. An empty snapshot id is left out of the report. -/
structure SameOutput (server : ResticService.BackupResult) (snapshotId : String)
    (stats : List (String × Json)) : Prop where
  snapshotId : server.snapshotId = if snapshotId = "" then .null else .text snapshotId
  stats : ∀ name, statistic name server.stats = statistic name stats

/-- The message has nothing under this name. -/
def Message.Lacks (message : Message) (name : String) : Prop :=
  (message.field name).getD .null = .null

/-- The agent reports all the server takes from what was heard. -/
structure Heard.Reported (heard : Heard) : Prop where
  /-- The snapshot is a text with something in it, if there is one. -/
  snapshotId : ∀ summary, heard.summary = some summary →
    summary.Lacks "snapshot_id" ∨ ∃ id, id ≠ "" ∧ summary.field "snapshot_id" = some (.text id)
  /-- The summary does not count new directories. -/
  dirsNew : ∀ summary, heard.summary = some summary → summary.Lacks "dirs_new"
  /-- A status after the summary says that all is done. -/
  percentDone : ∀ status, heard.status = some status →
    (status.field "percent_done").getD .null = if heard.summary.isSome then .number 1 else .null
  /-- A status after the summary, or without one, says no more. -/
  progress : ∀ status, heard.status = some status →
    status.Lacks "bytes_done" ∧ status.Lacks "total_bytes" ∧ status.Lacks "files_done" ∧
      status.Lacks "total_files"

namespace ResticService

theorem statistic_picked {fields : List (String × String)}
    (distinct : (fields.map Prod.fst).Nodup) (listed : (name, source) ∈ fields) :
    statistic name (picked fields message) = (message.field source).getD .null := by
  have found : lookupLast name (picked fields message) = message.field source :=
    lookupLast_filterMap Prod.fst (fun field => message.field field.2) distinct listed
  rw [statistic, found]

theorem lookupLast_picked_eq_none {fields : List (String × String)}
    (absent : name ∉ fields.map Prod.fst) : lookupLast name (picked fields message) = none := by
  apply lookupLast_eq_none.mpr
  intro entry listed same
  obtain ⟨field, member, found⟩ := List.mem_filterMap.mp listed
  obtain ⟨value, -, rfl⟩ := Option.map_eq_some_iff.mp found
  exact absent (List.mem_map.mpr ⟨field, member, same⟩)

/-- What a status leaves of the statistics. -/
theorem statistic_withStatus (stats : List (String × Json)) :
    statistic name (withStatus stats message) =
      if name ∈ statusFields.map Prod.fst then statistic name (picked statusFields message)
      else statistic name stats := by
  unfold statistic withStatus
  rw [lookupLast_append, lookupLast_filter fun name => name ∉ statusFields.map Prod.fst]
  by_cases progress : name ∈ statusFields.map Prod.fst
  · rw [if_pos progress, if_neg (by simpa using progress), Option.or_none]
  · rw [if_neg progress, if_pos (by simpa using progress), lookupLast_picked_eq_none progress,
      Option.none_or]

/-- The statistics of a summary, but for the fraction that is done. -/
theorem statistic_summaryStats (other : name ≠ "percentDone") :
    statistic name (summaryStats message) = statistic name (picked summaryFields message) := by
  unfold statistic summaryStats
  rw [lookupLast_append, lookupLast_singleton, if_neg (Ne.symm other), Option.none_or]

end ResticService

namespace GoAgent

/-- The fields of a summary that the agent reports. -/
def reportedFields : List (String × String) :=
  [("filesNew", "files_new"), ("filesChanged", "files_changed"),
    ("filesUnmodified", "files_unmodified"), ("dataAdded", "data_added"),
    ("totalBytesProcessed", "total_bytes_processed"),
    ("totalFilesProcessed", "total_files_processed"), ("totalDuration", "total_duration")]

theorem summaryToStats_eq :
    summaryToStats message = renamed reportedFields message ++ [("percentDone", .number 1)] := rfl

theorem lookupLast_renamed {fields : List (String × String)}
    (distinct : (fields.map Prod.fst).Nodup) (listed : (name, source) ∈ fields) :
    lookupLast name (renamed fields message) = some ((message.field source).getD .null) := by
  have written : renamed fields message = fields.filterMap fun field =>
      (some ((message.field field.2).getD .null)).map (field.1, ·) :=
    (congrFun List.filterMap_eq_map fields).symm
  rw [written]
  exact lookupLast_filterMap Prod.fst (fun field => some ((message.field field.2).getD .null))
    distinct listed

theorem statistic_summaryToStats (other : name ≠ "percentDone") :
    statistic name (summaryToStats message) =
      statistic name (renamed reportedFields message) := by
  unfold statistic
  rw [summaryToStats_eq, lookupLast_append, lookupLast_singleton, if_neg (Ne.symm other),
    Option.none_or]

/-- The agent reports the fields of a summary that the server takes, except for one. -/
theorem statistic_renamed :
    statistic name (renamed reportedFields message) =
      if name = "dirsNew" then .null
      else statistic name (ResticService.picked ResticService.summaryFields message) := by
  have reported : ∀ field ∈ ResticService.summaryFields,
      field.1 = "dirsNew" ∨ field ∈ reportedFields := by decide
  have taken : ∀ field ∈ reportedFields,
      field ∈ ResticService.summaryFields ∧ field.1 ≠ "dirsNew" := by decide
  by_cases listed : ∃ source, (name, source) ∈ reportedFields
  · obtain ⟨source, member⟩ := listed
    rw [if_neg (taken _ member).2, statistic, lookupLast_renamed (by decide) member,
      Option.getD_some, ResticService.statistic_picked (by decide) (taken _ member).1]
  · have nothing : lookupLast name (renamed reportedFields message) = none := by
      apply lookupLast_eq_none.mpr
      intro entry inside same
      obtain ⟨field, member, rfl⟩ := List.mem_map.mp inside
      exact listed ⟨field.2, same ▸ member⟩
    rw [statistic, nothing, Option.getD_none]
    split
    case isTrue => rfl
    case isFalse kept =>
      have absent : name ∉ ResticService.summaryFields.map Prod.fst := by
        intro inside
        obtain ⟨field, member, rfl⟩ := List.mem_map.mp inside
        exact listed ⟨field.2, (reported field member).resolve_left kept⟩
      rw [statistic, ResticService.lookupLast_picked_eq_none absent, Option.getD_none]

end GoAgent

section Agreement

open ResticService

/-- The statistics that the summary gives the server. -/
def Heard.taken (heard : Heard) : List (String × Json) :=
  (heard.summary.map summaryStats).getD []

/-- What the agent reports of the summary. -/
def Heard.reported (heard : Heard) : List (String × Json) :=
  (heard.summary.map GoAgent.summaryToStats).getD []

variable {told : Heard}

theorem taken_dirsNew : statistic "dirsNew" told.taken =
    (told.summary.bind (·.field "dirs_new")).getD .null := by
  unfold Heard.taken
  cases told.summary with
  | none => rfl
  | some summary =>
      have listed : ("dirsNew", "dirs_new") ∈ summaryFields := by decide
      rw [Option.map_some, Option.getD_some, statistic_summaryStats (by decide),
        statistic_picked (by decide) listed, Option.bind_some]

theorem reported_percentDone : statistic "percentDone" told.reported =
    if told.summary.isSome then .number 1 else .null := by
  unfold Heard.reported
  cases told.summary with
  | none => rfl
  | some summary =>
      rw [Option.map_some, Option.getD_some, statistic, GoAgent.summaryToStats_eq,
        lookupLast_append, lookupLast_singleton, if_pos rfl, Option.some_or]
      rfl

/-- Apart from the new directories the agent reports what the summary gives the server. -/
theorem reported_eq :
    statistic name told.reported =
      if name = "dirsNew" then .null else statistic name told.taken := by
  unfold Heard.reported Heard.taken
  cases told.summary with
  | none => exact (ite_self _).symm
  | some summary =>
      rw [Option.map_some, Option.map_some, Option.getD_some, Option.getD_some]
      by_cases done : name = "percentDone"
      · rw [done, if_neg (by decide), statistic, statistic, GoAgent.summaryToStats_eq,
          summaryStats, lookupLast_append, lookupLast_append, lookupLast_singleton, if_pos rfl,
          Option.some_or, Option.some_or]
      · rw [GoAgent.statistic_summaryToStats done, statistic_summaryStats done,
          GoAgent.statistic_renamed]

/-- A summary has no progress but that all is done. -/
theorem reported_progress (listed : name ∈ ["bytesDone", "totalBytes", "filesDone", "totalFiles"]) :
    statistic name told.reported = .null := by
  have other : name ≠ "dirsNew" ∧ name ≠ "percentDone" ∧ name ∉ summaryFields.map Prod.fst := by
    revert name
    decide
  rw [reported_eq, if_neg other.1, Heard.taken]
  cases told.summary with
  | none => rfl
  | some summary =>
      rw [Option.map_some, Option.getD_some, statistic_summaryStats other.2.1, statistic,
        lookupLast_picked_eq_none other.2.2, Option.getD_none]

/-- What the server returns of the statistics. -/
theorem statistic_ofHeard : statistic name (ofHeard told).stats =
    match told.status with
    | none => statistic name told.taken
    | some status =>
        if name ∈ statusFields.map Prod.fst then statistic name (picked statusFields status)
        else statistic name told.taken := by
  unfold ofHeard
  cases told.status with
  | none => rfl
  | some status => exact statistic_withStatus told.taken

/-- The text that the agent keeps of a snapshot id. -/
def textOf : Option Json → String
  | some (.text id) => id
  | _ => ""

theorem snapshotId_eq (messages : List Message) :
    GoAgent.snapshotId messages =
      textOf ((heard messages).summary.bind (·.field "snapshot_id")) := by
  unfold GoAgent.snapshotId
  rw [GoAgent.lastMessage_summary]
  rfl

theorem textOf_agrees_iff (value : Option Json) :
    (value.getD .null = if textOf value = "" then .null else .text (textOf value)) ↔
      value.getD .null = .null ∨ ∃ id, id ≠ "" ∧ value = some (.text id) := by
  cases value with
  | none => simp [textOf]
  | some value =>
      cases value with
      | text id => by_cases empty : id = "" <;> simp [textOf, empty]
      | null | boolean flag | number value | array items | object fields => simp [textOf]

theorem statistics_agree_iff :
    (∀ name, statistic name (ofHeard told).stats = statistic name told.reported) ↔
      (told.summary.bind (·.field "dirs_new")).getD .null = .null ∧
        ∀ status, told.status = some status → ∀ field ∈ statusFields,
          (status.field field.2).getD .null = statistic field.1 told.reported := by
  have apart : "dirsNew" ∉ statusFields.map Prod.fst := by decide
  constructor
  · intro agree
    constructor
    · have here := agree "dirsNew"
      rw [reported_eq, if_pos rfl, statistic_ofHeard] at here
      rw [← taken_dirsNew, ← here]
      split
      · rfl
      · rw [if_neg apart]
    · intro status last field listed
      have here := agree field.1
      rw [statistic_ofHeard, last] at here
      rw [← here]
      change _ = if _ then _ else _
      rw [if_pos (List.mem_map_of_mem listed), statistic_picked (by decide) listed]
  · rintro ⟨dirsNew, progress⟩ name
    have base : statistic name told.taken = statistic name told.reported := by
      rw [reported_eq]
      split
      case isTrue counted => rw [counted, taken_dirsNew, dirsNew]
      case isFalse => rfl
    rw [statistic_ofHeard]
    cases last : told.status with
    | none => exact base
    | some status =>
        change (if _ then _ else _) = _
        by_cases listed : name ∈ statusFields.map Prod.fst
        · rw [if_pos listed]
          obtain ⟨field, member, rfl⟩ := List.mem_map.mp listed
          rw [statistic_picked (by decide) member]
          exact progress status last field member
        · rw [if_neg listed]
          exact base

/-- **Backup outputs.** The agent reports what the server returns exactly for the outputs whose
last summary has a snapshot id that is a text or none, and no count of new directories, and
whose last status after it says no more than that all is done. -/
theorem outputs_agree_iff (messages : List Message) :
    SameOutput (backupOutput messages) (GoAgent.snapshotId messages)
        (GoAgent.statsOf GoAgent.summaryToStats messages) ↔
      (heard messages).Reported := by
  have reported : GoAgent.statsOf GoAgent.summaryToStats messages = (heard messages).reported := by
    rw [GoAgent.statsOf, GoAgent.lastMessage_summary, Heard.reported]
  rw [backupOutput_eq, snapshotId_eq, reported]
  generalize heard messages = told
  constructor
  · intro same
    obtain ⟨dirsNew, progress⟩ := statistics_agree_iff.mp same.stats
    have known := (textOf_agrees_iff _).mp same.snapshotId
    refine ⟨?_, ?_, ?_, ?_⟩
    · intro summary last
      rwa [last] at known
    · intro summary last
      rwa [last] at dirsNew
    · intro status last
      rw [← reported_percentDone]
      exact progress status last ("percentDone", "percent_done") (by decide)
    · intro status last
      refine ⟨?_, ?_, ?_, ?_⟩
      · exact (progress status last ("bytesDone", "bytes_done") (by decide)).trans
          (reported_progress (by decide))
      · exact (progress status last ("totalBytes", "total_bytes") (by decide)).trans
          (reported_progress (by decide))
      · exact (progress status last ("filesDone", "files_done") (by decide)).trans
          (reported_progress (by decide))
      · exact (progress status last ("totalFiles", "total_files") (by decide)).trans
          (reported_progress (by decide))
  · intro plain
    refine ⟨?_, ?_⟩
    · apply (textOf_agrees_iff _).mpr
      cases last : told.summary with
      | none => exact .inl rfl
      | some summary => exact plain.snapshotId summary last
    · apply statistics_agree_iff.mpr
      constructor
      · cases last : told.summary with
        | none => rfl
        | some summary => exact plain.dirsNew summary last
      · intro status last field listed
        obtain ⟨bytesDone, totalBytes, filesDone, totalFiles⟩ := plain.progress status last
        simp only [statusFields, List.mem_cons, List.not_mem_nil, or_false] at listed
        rcases listed with rfl | rfl | rfl | rfl | rfl
        · rw [reported_percentDone]
          exact plain.percentDone status last
        · rw [reported_progress (by decide)]
          exact bytesDone
        · rw [reported_progress (by decide)]
          exact totalBytes
        · rw [reported_progress (by decide)]
          exact filesDone
        · rw [reported_progress (by decide)]
          exact totalFiles

/-- A summary that counts new directories. -/
theorem outputs_not_always_alike :
    ¬ ∀ messages : List Message, SameOutput (backupOutput messages) (GoAgent.snapshotId messages)
      (GoAgent.statsOf GoAgent.summaryToStats messages) := by
  intro always
  have same := always [some [("message_type", .text "summary"), ("dirs_new", .number 2),
    ("snapshot_id", .text "4f1c")]]
  have counted := same.stats "dirsNew"
  exact absurd counted Json.noConfusion

end Agreement

end AmberBackup
