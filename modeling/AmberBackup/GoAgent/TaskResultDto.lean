import AmberBackup.GoAgent.Types

/-! # Validation of posted results

The server's validation of what an agent posts for a task. Every field is bounded; a
field the posted JSON leaves out is not checked. `TaskResult.posted` is the JSON of the
agent's record, and `accepts_posted_iff` says what the validation comes to for it.
-/

namespace AmberBackup

/-- What the validation takes from its library. -/
structure Validator where
  /-- The characters of a text as `isLength` counts them. -/
  length : String → Nat
  isISO8601 : String → Bool
  /-- A surrogate pair and an emoji presentation sequence count as one character. -/
  length_le : ∀ text, length text ≤ text.length

structure PruneResultDto where
  status : String
  startedAt : String
  finishedAt : String
  error : Option String := none
  log : Option String := none

structure RepoStatsDto where
  sizeBytes : Rat
  snapshotCount : Rat

structure TaskResultDto where
  status : String
  snapshotId : Option String := none
  stats : Option Json := none
  forgetResult : Option Json := none
  prune : Option PruneResultDto := none
  repoStats : Option RepoStatsDto := none
  repoStatsError : Option String := none
  damaged : Option Bool := none
  error : Option String := none
  log : Option String := none

/-- A field of a request and the constraint it violates. -/
abbrev Violation := String × String

namespace Validator

variable (validator : Validator)

def check (path constraint : String) (holds : Bool) : List Violation :=
  if holds then [] else [(path, constraint)]

/-- `@IsOptional() @IsString() @MaxLength(bound)`. -/
def maxLength (path : String) (bound : Nat) : Option String → List Violation
  | none => []
  | some text => check path "maxLength" (validator.length text ≤ bound)

/-- `@IsInt() @Min(0)`. -/
def isCount (path : String) (number : Rat) : List Violation :=
  check path "isInt" (number.den = 1) ++ check path "min" (0 ≤ number)

def pruneViolations (prune : PruneResultDto) : List Violation :=
  check "prune.status" "isIn" (["success", "failed"].contains prune.status) ++
    check "prune.startedAt" "isDateString" (validator.isISO8601 prune.startedAt) ++
    check "prune.finishedAt" "isDateString" (validator.isISO8601 prune.finishedAt) ++
    validator.maxLength "prune.error" 20000 prune.error ++
    validator.maxLength "prune.log" 200000 prune.log

def repoStatsViolations (stats : RepoStatsDto) : List Violation :=
  isCount "repoStats.sizeBytes" stats.sizeBytes ++
    isCount "repoStats.snapshotCount" stats.snapshotCount

/-- The constraints that a posted result violates. -/
def violations (result : TaskResultDto) : List Violation :=
  check "status" "isIn" (["success", "failed", "cancelled"].contains result.status) ++
    validator.maxLength "snapshotId" 128 result.snapshotId ++
    (result.prune.map validator.pruneViolations).getD [] ++
    (result.repoStats.map repoStatsViolations).getD [] ++
    validator.maxLength "repoStatsError" 20000 result.repoStatsError ++
    validator.maxLength "error" 20000 result.error ++
    validator.maxLength "log" 200000 result.log

/-- The request reaches the handler. -/
def accepts (result : TaskResultDto) : Prop := validator.violations result = []

/-- A text that its field takes, or that is not posted at all. -/
def Fits (bound : Nat) (text : String) : Prop := text = "" ∨ validator.length text ≤ bound

end Validator

namespace GoAgent

/-- `omitempty` of a text. -/
def omitEmpty (text : String) : Option String := if text = "" then none else some text

def PruneResult.posted (prune : PruneResult) : PruneResultDto where
  status := prune.status
  startedAt := prune.startedAt
  finishedAt := prune.finishedAt
  error := omitEmpty prune.error
  log := omitEmpty prune.log

def RepoStats.posted (stats : RepoStats) : RepoStatsDto where
  sizeBytes := stats.sizeBytes
  snapshotCount := stats.snapshotCount

def TaskResult.posted (result : TaskResult) : TaskResultDto where
  status := result.status
  snapshotId := omitEmpty result.snapshotId
  stats := if result.stats.isEmpty then none else some (.object result.stats)
  prune := result.prune.map PruneResult.posted
  repoStats := result.repoStats.map RepoStats.posted
  repoStatsError := omitEmpty result.repoStatsError
  damaged := if result.damaged then some true else none
  error := omitEmpty result.error
  log := omitEmpty result.log

end GoAgent

namespace Validator

variable {validator : Validator}

theorem fits_of_length_le {bound : Nat} {text : String} (short : text.length ≤ bound) :
    validator.Fits bound text :=
  Or.inr (Nat.le_trans (validator.length_le text) short)

theorem fits_empty (bound : Nat) : validator.Fits bound "" := Or.inl rfl

@[simp] theorem check_eq_nil {path constraint : String} {holds : Bool} :
    check path constraint holds = [] ↔ holds = true := by
  cases holds with
  | true => exact ⟨fun _ => rfl, fun _ => rfl⟩
  | false => exact ⟨nofun, nofun⟩

theorem maxLength_eq_nil {path text : String} {bound : Nat} :
    validator.maxLength path bound (GoAgent.omitEmpty text) = [] ↔
      validator.Fits bound text := by
  unfold GoAgent.omitEmpty Fits
  split
  · rename_i empty
    exact ⟨fun _ => Or.inl empty, fun _ => rfl⟩
  · rename_i present
    unfold maxLength
    rw [check_eq_nil, decide_eq_true_eq]
    exact ⟨Or.inr, fun fits => fits.resolve_left present⟩

theorem isCount_eq_nil {path : String} {number : Int} :
    isCount path number = [] ↔ 0 ≤ number := by
  unfold isCount
  rw [List.append_eq_nil_iff, check_eq_nil, check_eq_nil, decide_eq_true_eq, decide_eq_true_eq]
  constructor
  · rintro ⟨-, least⟩
    exact_mod_cast least
  · intro least
    exact ⟨Rat.den_intCast number, by exact_mod_cast least⟩

/-- What the validation asks of a prune the agent reports. -/
structure PruneFits (validator : Validator) (prune : GoAgent.PruneResult) : Prop where
  status : prune.status = "success" ∨ prune.status = "failed"
  startedAt : validator.isISO8601 prune.startedAt = true
  finishedAt : validator.isISO8601 prune.finishedAt = true
  error : validator.Fits 20000 prune.error
  log : validator.Fits 200000 prune.log

/-- What the validation asks of a result the agent posts. -/
structure ResultFits (validator : Validator) (result : GoAgent.TaskResult) : Prop where
  status : result.status = "success" ∨ result.status = "failed" ∨ result.status = "cancelled"
  snapshotId : validator.Fits 128 result.snapshotId
  prune : ∀ prune, result.prune = some prune → PruneFits validator prune
  repoStats : ∀ stats, result.repoStats = some stats →
    0 ≤ stats.sizeBytes ∧ 0 ≤ stats.snapshotCount
  repoStatsError : validator.Fits 20000 result.repoStatsError
  error : validator.Fits 20000 result.error
  log : validator.Fits 200000 result.log

theorem pruneViolations_eq_nil {prune : GoAgent.PruneResult} :
    validator.pruneViolations prune.posted = [] ↔ PruneFits validator prune := by
  unfold pruneViolations GoAgent.PruneResult.posted
  simp only [List.append_eq_nil_iff, check_eq_nil, maxLength_eq_nil, List.contains_iff_mem,
    List.mem_cons, List.not_mem_nil, or_false]
  constructor
  · rintro ⟨⟨⟨⟨status, startedAt⟩, finishedAt⟩, error⟩, log⟩
    exact ⟨status, startedAt, finishedAt, error, log⟩
  · rintro ⟨status, startedAt, finishedAt, error, log⟩
    exact ⟨⟨⟨⟨status, startedAt⟩, finishedAt⟩, error⟩, log⟩

theorem repoStatsViolations_eq_nil {stats : GoAgent.RepoStats} :
    repoStatsViolations stats.posted = [] ↔ 0 ≤ stats.sizeBytes ∧ 0 ≤ stats.snapshotCount := by
  unfold repoStatsViolations GoAgent.RepoStats.posted
  rw [List.append_eq_nil_iff, isCount_eq_nil, isCount_eq_nil]

/-- The validation of an optional part, as a statement about the part that is there. -/
theorem violations_optional {α β : Type} (part : Option α) {posted : α → β}
    {check : β → List Violation} {Fits : α → Prop}
    (checked : ∀ value, check (posted value) = [] ↔ Fits value) :
    ((part.map posted).map check).getD [] = [] ↔ ∀ value, part = some value → Fits value := by
  cases part with
  | none => exact ⟨fun _ => nofun, fun _ => rfl⟩
  | some value =>
      exact ⟨fun none other same => by cases same; exact (checked value).mp none,
        fun fits => (checked value).mpr (fits value rfl)⟩

/-- The server takes a posted result exactly when each of its texts fits its field and the
figures it brings are not negative. -/
theorem accepts_posted_iff {result : GoAgent.TaskResult} :
    validator.accepts result.posted ↔ ResultFits validator result := by
  have prunes := violations_optional result.prune fun prune =>
    @pruneViolations_eq_nil validator prune
  have figures := violations_optional result.repoStats fun stats =>
    @repoStatsViolations_eq_nil stats
  unfold accepts violations GoAgent.TaskResult.posted
  simp only [List.append_eq_nil_iff, check_eq_nil, maxLength_eq_nil, List.contains_iff_mem,
    List.mem_cons, List.not_mem_nil, or_false, prunes, figures]
  constructor
  · rintro ⟨⟨⟨⟨⟨⟨status, snapshotId⟩, prune⟩, repoStats⟩, repoStatsError⟩, error⟩, log⟩
    exact ⟨status, snapshotId, prune, repoStats, repoStatsError, error, log⟩
  · rintro ⟨status, snapshotId, prune, repoStats, repoStatsError, error, log⟩
    exact ⟨⟨⟨⟨⟨⟨status, snapshotId⟩, prune⟩, repoStats⟩, repoStatsError⟩, error⟩, log⟩

end Validator

end AmberBackup
