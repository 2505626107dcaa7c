import AmberBackup.Agents.InstallCommand
import AmberBackup.GoAgent.Restic
import AmberBackup.Jobs.FailedRemovals

/-! # Editing a check schedule from the command line

The server replaces a check schedule as a whole, so the client reads the stored one, merges its
flags into it and sends all of it. What is sent is refused exactly if the flags turn the schedule
on with an expression the server does not take; otherwise it is stored, and differs from what was
stored only in what the flags name (`integrity_edit`). An empty expression is read as none.
-/

namespace AmberBackup

namespace Cli

open GoAgent (trimSpace)

/-- The levels the server accepts. -/
def integrityLevels : List (String × IntegrityLevel) :=
  [("quick", .quick), ("rotating", .rotating), ("full", .full)]

def levelName : IntegrityLevel → String
  | .quick => "quick"
  | .rotating => "rotating"
  | .full => "full"

/-- `integrity_check` of a job, as the client reads it from the response. -/
structure ShownSchedule where
  enabled : Option Bool := none
  cronExpr : Option String := none
  level : Option String := none
  subsetParts : Option Int := none
  deriving DecidableEq, Repr

def shownSchedule (config : IntegrityCheckConfig) : ShownSchedule where
  enabled := config.enabled
  cronExpr := config.cronExpr
  level := config.level.map levelName
  subsetParts := config.subsetParts.map Int.ofNat

/-- The body of the request. -/
structure IntegrityPayload where
  enabled : Bool
  level : String
  cronExpr : Option String := none
  subsetParts : Option Int := none
  deriving DecidableEq, Repr

def pickCron (flags : CommandFlags) (current : ShownSchedule) : Except UsageError String :=
  match flags.cron with
  | none => .ok (current.cronExpr.getD "")
  | some text =>
      if trimSpace text = "" then
        .error ⟨"--cron needs a cron expression, e.g. \"0 4 * * 0\""⟩
      else .ok (trimSpace text)

def pickLevel (flags : CommandFlags) (current : ShownSchedule) : Except UsageError String :=
  match flags.level with
  | none =>
      let level := current.level.getD ""
      .ok (if (integrityLevels.lookup level).isSome then level else "quick")
  | some level =>
      if (integrityLevels.lookup level).isSome then .ok level
      else .error ⟨"--level must be one of quick, rotating, full"⟩

def pickParts (flags : CommandFlags) (current : ShownSchedule) (level : String) :
    Except UsageError Int :=
  match flags.parts with
  | none => .ok (current.subsetParts.getD 0)
  | some text =>
      match (atoi text).filter fun parts => 2 ≤ parts && parts ≤ 100 with
      | none => .error ⟨"--parts must be a number between 2 and 100"⟩
      | some parts =>
          if level ≠ "rotating" then .error ⟨"--parts only applies to --level rotating"⟩
          else .ok parts

def buildIntegrityPayload (flags : CommandFlags) (current : ShownSchedule) :
    Except UsageError IntegrityPayload := do
  if flags.enable = true ∧ flags.disable = true then
    throw ⟨"--enable and --disable are mutually exclusive"⟩
  if flags.disable = true ∧ flags.cron.isSome = true then
    throw ⟨"--cron enables the schedule and cannot be combined with --disable"⟩
  let cron ← pickCron flags current
  if flags.enable = true ∧ cron = "" then
    throw ⟨"the job has no check schedule yet: pass --cron <expr>"⟩
  let level ← pickLevel flags current
  let parts ← pickParts flags current level
  return {
    enabled :=
      if flags.disable then false
      else if flags.enable || flags.cron.isSome then true
      else current.enabled.getD false
    level
    cronExpr := if cron ≠ "" then some cron else none
    subsetParts := if level = "rotating" ∧ 0 < parts then some parts else none }

/-! ## The request -/

/-- The length of an expression is bounded. -/
def cronFits (expr : Option String) : Bool := expr.all fun text => utf16Length text ≤ 128

/-- The validation of the body. -/
def IntegrityPayload.dto (body : IntegrityPayload) : Except Failure IntegrityCheckConfigDto :=
  match integrityLevels.lookup body.level with
  | none => .error (.badRequest "level must be one of the following values: quick, rotating, full")
  | some level =>
      if cronFits body.cronExpr = false then
        .error (.badRequest "cronExpr must be shorter than or equal to 128 characters")
      else if body.subsetParts.any fun parts => 100 < parts then
        .error (.badRequest "subsetParts must not be greater than 100")
      else if body.subsetParts.any fun parts => parts < 2 then
        .error (.badRequest "subsetParts must not be less than 2")
      else
        .ok {
          enabled := body.enabled
          cronExpr := body.cronExpr
          level
          subsetParts := body.subsetParts.map Int.toNat }

/-- `PUT /jobs/:id/integrity-check`. -/
def putIntegrityCheck (editing : Editing) (user : RequestUser) (id : Uuid)
    (body : IntegrityPayload) : Service Unit :=
  match body.dto with
  | .error failure => .raise failure
  | .ok dto => setIntegrityCheck editing user id dto

/-- The request is off, or has an expression that the server takes. -/
def scheduleTaken (editing : Editing) (dto : IntegrityCheckConfigDto) : Bool :=
  !dto.enabled || dto.cronExpr.any fun expr => expr ≠ "" && editing.validCron expr

/-- A request the server accepts; what it has stored is the schedule of one. -/
structure Storable (editing : Editing) (dto : IntegrityCheckConfigDto) : Prop where
  parts : dto.valid = true
  fits : cronFits dto.cronExpr = true
  taken : scheduleTaken editing dto = true

/-- The schedule with the flags merged into it. -/
def edited (flags : CommandFlags) (stored : IntegrityCheckConfig) : IntegrityCheckConfig :=
  let level := (flags.level.bind fun text => integrityLevels.lookup text).or stored.level
  { enabled :=
      if flags.disable then some false
      else if flags.enable || flags.cron.isSome then some true
      else stored.enabled
    cronExpr := (flags.cron.map trimSpace).or (stored.cronExpr.filter (· ≠ ""))
    level
    subsetParts :=
      if level = some .rotating then
        ((flags.parts.bind atoi).map Int.toNat).or stored.subsetParts
      else none }

/-- The expression the flags turn the schedule on with is one the server takes. -/
def CronAccepted (editing : Editing) (flags : CommandFlags) (stored : IntegrityCheckConfig) :
    Prop :=
  flags.enable = true ∨ flags.cron.isSome = true →
    ∀ expr, (edited flags stored).cronExpr = some expr →
      utf16Length expr ≤ 128 ∧ editing.validCron expr = true

/-- The new schedule differs from the old one only in what the flags name. -/
structure ChangesNamed (flags : CommandFlags) (stored next : IntegrityCheckConfig) : Prop where
  enabled : flags.cron = none → flags.enable = false → flags.disable = false →
    next.enabled = stored.enabled
  turnedOn : flags.cron.isSome = true ∨ flags.enable = true → next.enabled = some true
  turnedOff : flags.disable = true → next.enabled = some false
  cronExpr : flags.cron = none → next.cronExpr = stored.cronExpr.filter (· ≠ "")
  cronGiven : ∀ text, flags.cron = some text → next.cronExpr = some (trimSpace text)
  level : flags.level = none → next.level = stored.level
  levelGiven : ∀ text, flags.level = some text →
    ∃ level, integrityLevels.lookup text = some level ∧ next.level = some level
  parts : flags.parts = none → next.level = some .rotating → next.subsetParts = stored.subsetParts
  partsGiven : ∀ text, flags.parts = some text →
    ∃ parts : Int, atoi text = some parts ∧ 2 ≤ parts ∧ parts ≤ 100 ∧
      next.subsetParts = some parts.toNat
  partsDropped : next.level ≠ some .rotating → next.subsetParts = none

section Merging

variable {editing : Editing} {flags : CommandFlags} {current : ShownSchedule}
  {stored : IntegrityCheckConfig} {body : IntegrityPayload} {dto : IntegrityCheckConfigDto}

theorem levelName_lookup (level : IntegrityLevel) :
    integrityLevels.lookup (levelName level) = some level := by
  cases level <;> decide +kernel

theorem lookup_levelName {text : String} {level : IntegrityLevel}
    (named : integrityLevels.lookup text = some level) : text = levelName level := by
  have member : (text, level) ∈ integrityLevels := by
    obtain ⟨before, later, split, -⟩ := List.lookup_eq_some_iff.mp named
    rw [split]
    exact List.mem_append_right _ List.mem_cons_self
  simp only [integrityLevels, List.mem_cons, Prod.mk.injEq, List.not_mem_nil, or_false] at member
  rcases member with ⟨rfl, rfl⟩ | ⟨rfl, rfl⟩ | ⟨rfl, rfl⟩ <;> rfl

/-- What the flags and the stored schedule were merged into. -/
structure Merged (flags : CommandFlags) (current : ShownSchedule) (body : IntegrityPayload) :
    Prop where
  exclusive : flags.enable = true → flags.disable = false
  noCron : flags.disable = true → flags.cron = none
  picked : ∃ cron parts, pickCron flags current = .ok cron ∧
    pickLevel flags current = .ok body.level ∧
    pickParts flags current body.level = .ok parts ∧
    (flags.enable = true → cron ≠ "") ∧
    (body.cronExpr = if cron ≠ "" then some cron else none) ∧
    body.subsetParts = if body.level = "rotating" ∧ 0 < parts then some parts else none
  enabled : body.enabled =
    if flags.disable then false
    else if flags.enable || flags.cron.isSome then true
    else current.enabled.getD false

theorem merged_of_built (built : buildIntegrityPayload flags current = .ok body) :
    Merged flags current body := by
  unfold buildIntegrityPayload at built
  simp only [bind, Except.bind, pure, Except.pure, throw, throwThe, MonadExceptOf.throw] at built
  split at built
  · cases built
  next exclusive =>
    split at built
    · cases built
    next noCron =>
      split at built
      · cases built
      next cron picked =>
        split at built
        · cases built
        next filled =>
          split at built
          · cases built
          next level chosen =>
            split at built
            · cases built
            next parts counted =>
              cases built
              refine ⟨?_, ?_, ⟨cron, parts, picked, chosen, counted, ?_, rfl, rfl⟩, rfl⟩
              · intro on
                by_contra off
                exact exclusive ⟨on, by simpa using off⟩
              · intro off
                by_contra given
                exact noCron ⟨off, Option.isSome_iff_ne_none.mpr given⟩
              · intro on empty
                exact filled ⟨on, empty⟩

theorem pickCron_shown {cron : String}
    (picked : pickCron flags (shownSchedule stored) = .ok cron) :
    (if cron ≠ "" then some cron else none) = (edited flags stored).cronExpr := by
  unfold pickCron at picked
  change _ = (flags.cron.map trimSpace).or (stored.cronExpr.filter (· ≠ ""))
  split at picked
  next absent =>
    have same : cron = stored.cronExpr.getD "" := by
      cases picked
      rfl
    rw [absent, same]
    cases stored.cronExpr with
    | none => rfl
    | some text =>
        rw [Option.filter_some]
        by_cases empty : text = ""
        · simp [empty]
        · simp [empty]
  next text given =>
    split at picked
    · cases picked
    next filled =>
      cases picked
      rw [given, if_pos filled]
      rfl

theorem pickLevel_shown {text : String} {level : IntegrityLevel} (shown : stored.level = some level)
    (picked : pickLevel flags (shownSchedule stored) = .ok text) :
    ∃ chosen, integrityLevels.lookup text = some chosen ∧
      (edited flags stored).level = some chosen := by
  unfold pickLevel at picked
  change ∃ chosen, _ ∧
    (flags.level.bind fun text => integrityLevels.lookup text).or stored.level = some chosen
  split at picked
  next absent =>
    have same : text = levelName level := by
      have named : (shownSchedule stored).level.getD "" = levelName level := by
        change (stored.level.map levelName).getD "" = _
        rw [shown]
        rfl
      simp only [named, levelName_lookup] at picked
      cases picked
      rfl
    rw [absent, same]
    exact ⟨level, levelName_lookup level, shown⟩
  next given named =>
    split at picked
    next known =>
      cases picked
      obtain ⟨chosen, found⟩ := Option.isSome_iff_exists.mp known
      refine ⟨chosen, found, ?_⟩
      rw [named, Option.bind_some, found]
      rfl
    · cases picked

/-- The number of parts that is sent is the merged one, and the server takes it. -/
theorem pickParts_shown {parts : Int} {text : String} {chosen : IntegrityLevel}
    (valid : ∀ count, stored.subsetParts = some count → 2 ≤ count ∧ count ≤ 100)
    (named : integrityLevels.lookup text = some chosen)
    (level : (edited flags stored).level = some chosen)
    (picked : pickParts flags (shownSchedule stored) text = .ok parts) :
    ((if text = "rotating" ∧ 0 < parts then some parts else none).map Int.toNat =
        (edited flags stored).subsetParts) ∧
      ∀ count, (if text = "rotating" ∧ 0 < parts then some parts else none) = some count →
        2 ≤ count ∧ count ≤ 100 := by
  have merged : (edited flags stored).subsetParts =
      if (edited flags stored).level = some .rotating then
        ((flags.parts.bind atoi).map Int.toNat).or stored.subsetParts
      else none := rfl
  have rotating : text = "rotating" ↔ chosen = .rotating := by
    rw [lookup_levelName named]
    cases chosen <;> decide
  rw [merged, level]
  simp only [rotating, Option.some.injEq]
  unfold pickParts at picked
  split at picked
  next absent =>
    have shown : parts = ((stored.subsetParts.map Int.ofNat).getD 0) := by
      cases picked
      rfl
    rw [absent]
    by_cases turning : chosen = .rotating
    · rw [if_pos turning]
      cases kept : stored.subsetParts with
      | none =>
          rw [kept] at shown
          have zero : parts = 0 := shown
          simp [zero]
      | some count =>
          rw [kept] at shown
          have same : parts = (count : Int) := shown
          have bounds := valid count kept
          simp [turning, same]
          omega
    · simp [turning]
  next given named =>
    split at picked
    · cases picked
    next counted found =>
      split at picked
      · cases picked
      next turning =>
        cases picked
        have level := rotating.mp (not_not.mp turning)
        obtain ⟨read, bounds⟩ := Option.filter_eq_some_iff.mp found
        rw [Bool.and_eq_true, decide_eq_true_eq, decide_eq_true_eq] at bounds
        have positive : 0 < parts := by omega
        simp [level, positive, named, read]
        omega

/-- The body is the merged schedule, unless its expression is too long. -/
theorem dto_of_merged (valid : dto.valid = true)
    (merged : Merged flags (shownSchedule dto.config) body) :
    ∃ sent : IntegrityCheckConfigDto, sent.config = edited flags dto.config ∧
      sent.enabled = body.enabled ∧ sent.cronExpr = (edited flags dto.config).cronExpr ∧
      sent.cronExpr = body.cronExpr ∧
      (cronFits sent.cronExpr = true → body.dto = .ok sent) ∧
      (cronFits sent.cronExpr = false → ∃ failure, body.dto = .error failure) := by
  obtain ⟨cron, parts, picked, chosen, counted, -, expr, split⟩ := merged.picked
  obtain ⟨level, named, kept⟩ := pickLevel_shown
    (show dto.config.level = some dto.level from rfl) chosen
  have shownExpr := pickCron_shown picked
  have bounded : ∀ count, dto.config.subsetParts = some count → 2 ≤ count ∧ count ≤ 100 := by
    intro count found
    unfold IntegrityCheckConfigDto.config at found
    simp only [Option.ite_none_right_eq_some] at found
    unfold IntegrityCheckConfigDto.valid at valid
    rw [found.2] at valid
    simpa using valid
  obtain ⟨shownParts, bounds⟩ := pickParts_shown bounded named kept counted
  rw [← split] at shownParts bounds
  rw [← expr] at shownExpr
  refine ⟨⟨body.enabled, body.cronExpr, level, body.subsetParts.map Int.toNat⟩, ?_, rfl, shownExpr,
    rfl, ?_, ?_⟩
  · have turned : some body.enabled = (edited flags dto.config).enabled := by
      rw [merged.enabled]
      change _ = if flags.disable then some false
        else if flags.enable || flags.cron.isSome then some true else some dto.enabled
      split
      · rfl
      · split <;> rfl
    have dropped : (if level = .rotating then body.subsetParts.map Int.toNat else none) =
        (edited flags dto.config).subsetParts := by
      split
      · exact shownParts
      next other =>
        change none = if (edited flags dto.config).level = some .rotating then _ else none
        rw [kept, if_neg fun same => other (Option.some.inj same)]
    change (⟨some body.enabled, body.cronExpr, some level, _⟩ : IntegrityCheckConfig) = _
    rw [turned, shownExpr, ← kept, dropped]
  · intro fits
    unfold IntegrityPayload.dto
    have small : body.subsetParts.any (fun parts => decide (100 < parts)) = false := by
      cases sent : body.subsetParts with
      | none => rfl
      | some count => simpa using (bounds count sent).2
    have large : body.subsetParts.any (fun parts => decide (parts < 2)) = false := by
      cases sent : body.subsetParts with
      | none => rfl
      | some count =>
          have least := (bounds count sent).1
          simpa using (by omega : ¬ count < 2)
    rw [named]
    simp only [show cronFits body.cronExpr = true from fits, small, large, Bool.false_eq_true,
      Bool.true_eq_false, ↓reduceIte]
  · intro long
    unfold IntegrityPayload.dto
    rw [named]
    simp only [show cronFits body.cronExpr = false from long, ↓reduceIte]
    exact ⟨_, rfl⟩

/-! ## What the server makes of it -/

variable {user : RequestUser} {id : Uuid} {world : World} {row : BackupJob}
  {repository : Repository}

theorem validateSchedule_run (editing : Editing) (dto : IntegrityCheckConfigDto) (world : World) :
    scheduleTaken editing dto = true ∧
        (validateSchedule editing dto).run world = (.ok (), world) ∨
      scheduleTaken editing dto = false ∧
        ∃ failure, (validateSchedule editing dto).run world = (.error failure, world) := by
  unfold scheduleTaken validateSchedule
  cases dto.enabled with
  | false => exact .inl ⟨rfl, rfl⟩
  | true =>
      rw [if_pos rfl, Bool.not_true, Bool.false_or]
      cases dto.cronExpr with
      | none => exact .inr ⟨rfl, _, rfl⟩
      | some text =>
          rw [Option.any_some]
          by_cases empty : text = ""
          · subst empty
            exact .inr ⟨rfl, _, rfl⟩
          · simp only [empty, ne_eq, not_false_eq_true, decide_true, Bool.true_and]
            unfold validateCron require
            cases editing.validCron text with
            | true => exact .inl ⟨rfl, rfl⟩
            | false => exact .inr ⟨rfl, _, rfl⟩

/-- A manager's request for a job is stored, or refused for its expression. -/
theorem setIntegrityCheck_run (editing : Editing)
    (manages : can world.db user .job id .manage = true)
    (found : joined (world.db.backupJobs.get? id) (fun row =>
      world.db.repositories.get? row.repositoryId) = some (row, repository))
    (dto : IntegrityCheckConfigDto) :
    scheduleTaken editing dto = true ∧
        (setIntegrityCheck editing user id dto).run world =
          (.ok (), ((writeSchedule id dto.config).run world).2) ∨
      scheduleTaken editing dto = false ∧
        ∃ failure, (setIntegrityCheck editing user id dto).run world = (.error failure, world) := by
  have granted : (assertAcl user .job id .manage).run world = (.ok (), world) := by
    rcases assertAcl_outcome world user .job id .manage with ⟨-, ran⟩ | ⟨denied, -⟩
    · exact ran
    · exact absurd manages denied
  have held : (getRow id).run world = (.ok (row, repository), world) := by
    rcases getRow_outcome world id with ⟨other, place, present, ran⟩ | ⟨absent, -⟩
    · rw [present] at found
      cases found
      exact ran
    · rw [absent] at found
      cases found
  unfold setIntegrityCheck
  rw [Procedure.run_bind_of_ok granted, Procedure.run_bind_of_ok held]
  rcases validateSchedule_run editing dto world with ⟨taken, ran⟩ | ⟨refused, failure, ran⟩
  · rw [Procedure.run_bind_of_ok ran]
    exact .inl ⟨taken, rfl⟩
  · rw [Procedure.run_bind_of_error ran]
    exact .inr ⟨refused, failure, rfl⟩

/-- Flags that turn the schedule on send it on, with an expression. -/
theorem merged_on (merged : Merged flags current body)
    (on : flags.enable = true ∨ flags.cron.isSome = true) :
    body.enabled = true ∧ ∃ expr, expr ≠ "" ∧ body.cronExpr = some expr := by
  have still : flags.disable = false := by
    by_contra off
    have disabled : flags.disable = true := by simpa using off
    rcases on with enabled | given
    · exact off (merged.exclusive enabled)
    · rw [merged.noCron disabled] at given
      cases given
  obtain ⟨cron, parts, picked, -, -, filled, split, -⟩ := merged.picked
  have some_cron : cron ≠ "" := by
    by_cases enabled : flags.enable = true
    · exact filled enabled
    · obtain ⟨text, given⟩ := Option.isSome_iff_exists.mp (on.resolve_left enabled)
      unfold pickCron at picked
      rw [given] at picked
      simp only at picked
      split at picked
      · cases picked
      next trimmed =>
        cases picked
        exact trimmed
  refine ⟨?_, cron, some_cron, split.trans (if_pos some_cron)⟩
  rw [merged.enabled, still]
  rcases on with enabled | given
  · rw [enabled]
    rfl
  · rw [given, Bool.or_true]
    rfl

/-- The merged request is taken exactly if the expression it is turned on with is. -/
theorem taken_iff (storable : scheduleTaken editing dto = true)
    (fits : cronFits dto.cronExpr = true)
    (merged : Merged flags (shownSchedule dto.config) body) {sent : IntegrityCheckConfigDto}
    (enabled : sent.enabled = body.enabled) (expr : sent.cronExpr = body.cronExpr)
    (shown : sent.cronExpr = (edited flags dto.config).cronExpr) :
    cronFits sent.cronExpr = true ∧ scheduleTaken editing sent = true ↔
      CronAccepted editing flags dto.config := by
  by_cases on : flags.enable = true ∨ flags.cron.isSome = true
  · obtain ⟨turned, cron, filled, split⟩ := merged_on merged on
    unfold CronAccepted scheduleTaken cronFits
    rw [← shown, enabled, expr, turned, split]
    simp [on, filled]
  · refine iff_of_true ?_ fun turned => absurd turned on
    rw [not_or] at on
    have absent : flags.cron = none := by simpa using on.2
    have kept : sent.cronExpr = dto.cronExpr.filter (· ≠ "") := by
      rw [shown]
      change (flags.cron.map trimSpace).or (dto.cronExpr.filter (· ≠ "")) = _
      rw [absent]
      rfl
    have switched : body.enabled = if flags.disable then false else dto.enabled := by
      rw [merged.enabled, absent]
      have still : flags.enable = false := by simpa using on.1
      rw [still]
      rfl
    unfold scheduleTaken cronFits at *
    rw [kept, enabled, switched]
    cases held : dto.cronExpr with
    | none =>
        rw [held] at storable
        refine ⟨rfl, ?_⟩
        rw [Option.any_none, Bool.or_false] at storable
        cases flags.disable with
        | true => rfl
        | false => simpa using storable
    | some text =>
        rw [held] at storable fits
        rw [Option.filter_some]
        by_cases empty : text = ""
        · subst empty
          refine ⟨rfl, ?_⟩
          cases flags.disable with
          | true => rfl
          | false => simpa using storable
        · rw [if_pos (by simpa using empty)]
          refine ⟨fits, ?_⟩
          cases flags.disable with
          | true => rfl
          | false => exact storable

/-- The merged schedule differs from the stored one in what the flags name. -/
theorem edited_changes (merged : Merged flags (shownSchedule dto.config) body) :
    ChangesNamed flags dto.config (edited flags dto.config) := by
  obtain ⟨cron, parts, -, chosen, counted, -, -, -⟩ := merged.picked
  obtain ⟨level, named, kept⟩ := pickLevel_shown
    (show dto.config.level = some dto.level from rfl) chosen
  have turned : (edited flags dto.config).enabled =
      if flags.disable then some false
      else if flags.enable || flags.cron.isSome then some true else dto.config.enabled := rfl
  have expr : (edited flags dto.config).cronExpr =
      (flags.cron.map trimSpace).or (dto.config.cronExpr.filter (· ≠ "")) := rfl
  have leveled : (edited flags dto.config).level =
      (flags.level.bind fun text => integrityLevels.lookup text).or dto.config.level := rfl
  have split : (edited flags dto.config).subsetParts =
      if (edited flags dto.config).level = some .rotating then
        ((flags.parts.bind atoi).map Int.toNat).or dto.config.subsetParts
      else none := rfl
  refine ⟨?_, ?_, ?_, ?_, ?_, ?_, ?_, ?_, ?_, ?_⟩
  · intro absent off still
    rw [turned, absent, off, still]
    rfl
  · intro on
    have still : flags.disable = false := by
      by_contra off
      have disabled : flags.disable = true := by simpa using off
      rcases on with given | enabled
      · rw [merged.noCron disabled] at given
        cases given
      · exact off (merged.exclusive enabled)
    rw [turned, still]
    rcases on with given | enabled
    · rw [given, Bool.or_true]
      rfl
    · rw [enabled]
      rfl
  · intro off
    rw [turned, if_pos off]
  · intro absent
    rw [expr, absent]
    rfl
  · intro text given
    rw [expr, given]
    rfl
  · intro absent
    rw [leveled, absent]
    rfl
  · intro text given
    have same : text = body.level := by
      unfold pickLevel at chosen
      rw [given] at chosen
      simp only at chosen
      split at chosen
      · cases chosen
        rfl
      · cases chosen
    exact ⟨level, same ▸ named, kept⟩
  · intro absent rotating
    rw [split, if_pos rotating, absent]
    rfl
  · intro text given
    unfold pickParts at counted
    rw [given] at counted
    simp only at counted
    split at counted
    · cases counted
    next number found =>
      split at counted
      · cases counted
      next turning =>
        cases counted
        obtain ⟨read, bounds⟩ := Option.filter_eq_some_iff.mp found
        rw [Bool.and_eq_true, decide_eq_true_eq, decide_eq_true_eq] at bounds
        refine ⟨parts, read, bounds.1, bounds.2, ?_⟩
        have rotating : level = .rotating := by
          rw [not_not.mp turning] at named
          exact (Option.some.inj named).symm
        rw [split, kept, rotating, if_pos rfl, given, Option.bind_some, read]
        rfl
  · intro other
    rw [split, if_neg other]

/-- Without flags nothing is changed, except that an empty expression is left out. -/
theorem edited_unused (unused : flags.integrityScheduleUsed = false) (absent : flags.level = none)
    (filled : dto.cronExpr ≠ some "") : edited flags dto.config = dto.config := by
  unfold CommandFlags.integrityScheduleUsed at unused
  simp only [Bool.or_eq_false_iff, Option.isSome_eq_false_iff, Option.isNone_iff_eq_none] at unused
  obtain ⟨⟨⟨cron, enable⟩, disable⟩, parts⟩ := unused
  unfold edited
  rw [cron, enable, disable, parts, absent]
  have kept : dto.cronExpr.filter (· ≠ "") = dto.cronExpr := by
    cases held : dto.cronExpr with
    | none => rfl
    | some text =>
        rw [held] at filled
        rw [Option.filter_some, if_pos]
        exact decide_eq_true fun empty => filled (congrArg some empty)
  change (⟨_, dto.cronExpr.filter (· ≠ ""), some dto.level, _⟩ : IntegrityCheckConfig) = _
  rw [kept]
  unfold IntegrityCheckConfigDto.config
  cases dto.level <;> rfl

/-- **Editing a check schedule.** What a client merges into a stored schedule is stored if the
expression it turns the schedule on with is one the server takes, and refused without an effect
otherwise; it changes what the flags name and nothing else. -/
theorem integrity_edit (manages : can world.db user .job id .manage = true)
    (found : joined (world.db.backupJobs.get? id) (fun row =>
      world.db.repositories.get? row.repositoryId) = some (row, repository))
    (storable : Storable editing dto) (stored : row.integrityCheck = dto.config)
    (built : buildIntegrityPayload flags (shownSchedule row.integrityCheck) = .ok body) :
    (CronAccepted editing flags row.integrityCheck →
      (putIntegrityCheck editing user id body).run world =
        (.ok (), ((writeSchedule id (edited flags row.integrityCheck)).run world).2)) ∧
    (¬ CronAccepted editing flags row.integrityCheck →
      ∃ failure, (putIntegrityCheck editing user id body).run world = (.error failure, world)) ∧
    ChangesNamed flags row.integrityCheck (edited flags row.integrityCheck) ∧
    (flags.integrityScheduleUsed = false → flags.level = none →
      CronAccepted editing flags row.integrityCheck ∧
        (row.integrityCheck.cronExpr ≠ some "" →
          edited flags row.integrityCheck = row.integrityCheck)) := by
  rw [stored] at built ⊢
  have merged := merged_of_built built
  obtain ⟨sent, config, enabled, shown, expr, accepted, refused⟩ :=
    dto_of_merged storable.parts merged
  have taken := taken_iff storable.taken storable.fits merged enabled expr shown
  refine ⟨?_, ?_, edited_changes merged, ?_⟩
  · intro cron
    obtain ⟨fits, held⟩ := taken.mpr cron
    unfold putIntegrityCheck
    rw [accepted fits, ← config]
    rcases setIntegrityCheck_run editing manages found sent with ⟨-, ran⟩ | ⟨no, -⟩
    · exact ran
    · rw [held] at no
      cases no
  · intro other
    unfold putIntegrityCheck
    cases fits : cronFits sent.cronExpr with
    | false =>
        obtain ⟨failure, invalid⟩ := refused fits
        rw [invalid]
        exact ⟨failure, rfl⟩
    | true =>
        rw [accepted fits]
        rcases setIntegrityCheck_run editing manages found sent with ⟨held, -⟩ | ⟨-, ran⟩
        · exact absurd (taken.mp ⟨fits, held⟩) other
        · exact ran
  · intro unused absent
    refine ⟨?_, edited_unused unused absent⟩
    intro on
    unfold CommandFlags.integrityScheduleUsed at unused
    simp only [Bool.or_eq_false_iff] at unused
    rcases on with enable | cron
    · rw [unused.1.1.2] at enable
      cases enable
    · rw [unused.1.1.1] at cron
      cases cron

end Merging

/-! ## Examples -/

/-- The cron package, by the number of fields of an expression. -/
def cronEditing : Editing := { vault with validCron := fun expr => expr.toList.count ' ' = 4 }

def checkedJob (schedule : IntegrityCheckConfigDto) : World where
  now := 5
  db := {
    repositories := .ofList [(1, {
      name := "main", targetId := none, repoConfig := [], repoPasswordSecretId := 9 })]
    backupJobs := .ofList [(2, {
      name := "daily", location := .«local», repositoryId := 1
      integrityCheck := schedule.config })] }

/-- A schedule that is off may have any text as its expression. -/
def neverOn : IntegrityCheckConfigDto where
  enabled := false
  cronExpr := some "never"
  level := .quick

def emptyExpr : IntegrityCheckConfigDto where
  enabled := false
  cronExpr := some ""
  level := .full

/-- The flag turns a schedule on that the server refuses, and without flags an empty expression is
lost. -/
theorem integrity_edit_not_exact :
    Storable cronEditing neverOn ∧ Storable cronEditing emptyExpr ∧
      ((putIntegrityCheck cronEditing admin 2
        ⟨true, "quick", some "never", none⟩).run (checkedJob neverOn)).1 =
          .error (.badRequest "Invalid cron expression: never") ∧
      edited {} emptyExpr.config ≠ emptyExpr.config ∧
      ¬ ∀ dto flags body, Storable cronEditing dto →
        buildIntegrityPayload flags (shownSchedule dto.config) = .ok body →
          ((putIntegrityCheck cronEditing admin 2 body).run (checkedJob dto)).1 = .ok () := by
  have first : Storable cronEditing neverOn :=
    ⟨by decide +kernel, by decide +kernel, by decide +kernel⟩
  have refused : ((putIntegrityCheck cronEditing admin 2
      ⟨true, "quick", some "never", none⟩).run (checkedJob neverOn)).1 =
        .error (.badRequest "Invalid cron expression: never") := by decide +kernel
  refine ⟨first, ⟨by decide +kernel, by decide +kernel, by decide +kernel⟩, refused,
    by decide +kernel, ?_⟩
  intro all
  have accepted := all neverOn { enable := true } ⟨true, "quick", some "never", none⟩ first
    (by decide +kernel)
  rw [refused] at accepted
  cases accepted

/-- The schedule of a job that is checked in parts. -/
def weeklyParts : IntegrityCheckConfigDto where
  enabled := true
  cronExpr := some "0 4 * * 0"
  level := .rotating
  subsetParts := some 12

theorem weekly_parts_edited :
    (putIntegrityCheck cronEditing admin 2
        ⟨true, "rotating", some "0 5 * * 0", some 12⟩).run (checkedJob weeklyParts) =
      (.ok (), ((writeSchedule 2
        (edited { cron := some " 0 5 * * 0" } weeklyParts.config)).run (checkedJob weeklyParts)).2) := by
  have manages : can (checkedJob weeklyParts).db admin .job 2 .manage = true := by decide +kernel
  have storable : Storable cronEditing weeklyParts :=
    ⟨by decide +kernel, by decide +kernel, by decide +kernel⟩
  have built : buildIntegrityPayload { cron := some " 0 5 * * 0" }
      (shownSchedule weeklyParts.config) =
        .ok ⟨true, "rotating", some "0 5 * * 0", some 12⟩ := by decide +kernel
  have taken : CronAccepted cronEditing { cron := some " 0 5 * * 0" } weeklyParts.config := by
    intro _ expr same
    have trimmed : (edited { cron := some " 0 5 * * 0" } weeklyParts.config).cronExpr =
        some "0 5 * * 0" := by decide +kernel
    rw [trimmed] at same
    cases same
    exact ⟨by decide +kernel, by decide +kernel⟩
  exact (integrity_edit manages rfl storable rfl built).1 taken

end Cli

end AmberBackup
