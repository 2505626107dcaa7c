import AmberBackup.Agents.AgentsService
import AmberBackup.GoAgent.LineScanner

/-! # Verdicts of integrity checks

A check passes, finds damage, or comes to no verdict, on the server as on an agent. The server
searches the whole output of restic for a report of damage, the agent the lines it keeps: the
verdicts are the same for every exit code and every output exactly if the check succeeds, or the
report is on a line that the agent keeps if it is on any (`check_verdicts_agree_iff`).
-/

namespace AmberBackup

inductive CheckVerdict where
  | passed | damaged | unable
  deriving DecidableEq, Repr

/-- The verdict that an outcome carries over to the repository. -/
def CheckOutcome.classified (outcome : CheckOutcome) : CheckVerdict :=
  if outcome.damaged then .damaged
  else if outcome.status = .success then .passed
  else .unable

/-- A repository keeps its status if a check comes to no verdict. -/
theorem repositoryPatch_checkStatus (now : Nat) (info : CheckInfo) (outcome : CheckOutcome)
    (repository : Repository) :
    (repositoryPatch now info outcome repository).checkStatus =
      match outcome.classified with
      | .passed => some .passed
      | .damaged => some .damaged
      | .unable => repository.checkStatus := by
  unfold repositoryPatch CheckOutcome.classified
  cases outcome.damaged with
  | true => rfl
  | false =>
      rw [if_neg Bool.false_ne_true, if_neg Bool.false_ne_true]
      by_cases success : outcome.status = .success
      · rw [if_neg (not_not.mpr success), if_pos success]
        dsimp only
        split
        · split <;> rfl
        · rfl
      · rw [if_pos success, if_neg success]

/-! ## Checks on the server -/

/-- What `execute` settles a check with that is not cancelled. -/
def settledOutcome (log : String) : Except String Bool → CheckOutcome
  | .ok damaged => {
      status := if damaged then .failed else .success
      damaged
      error := if damaged then some damagedMessage else none
      log := some log }
  | .error message => {
      status := .failed, damaged := false, error := some message, log := some log }

def ResticProcess.localOutcome (process : ResticProcess) (log : String) : CheckOutcome :=
  settledOutcome log (ResticService.check process.outcome)

/-- The exit of a check as its call sees it. -/
def RunOutcome.exit (outcome : RunOutcome) (log : String) : ChildExit where
  code := outcome.code
  stderr := jsTrim (String.ofList outcome.stderr)
  log
  errorsFound := ResticService.isDamagedCheckOutput (outcome.stdout ++ '\n' :: outcome.stderr)

section Calls

variable {server : Server} {call : Nat} {run repository : Uuid} {info : CheckInfo} {log : String}

/-- Where the call of a check goes from what `check` comes to. -/
def afterCheck (log : String) : Except String Bool → CheckPhase
  | .ok damaged => .settle (settledOutcome log (.ok damaged))
  | .error message => .caught message

theorem exit_error (process : ResticProcess) :
    (process.outcome.exit log).error "check" =
      ResticService.failure { stderr := String.ofList process.outcome.stderr }
        ("restic check exited " ++ toString process.code) := by
  unfold ChildExit.error ResticService.failure
  simp only [RunOutcome.exit, ResticProcess.outcome]
  rfl

theorem check_exits {deaf : Bool} {process : ResticProcess}
    (may : server.mayExit call deaf (process.outcome.exit log) = true) :
    (CheckPhase.step server call run repository info (.child deaf)
        (.exits (process.outcome.exit log))).map Effect.next =
      some (.check run repository info (afterCheck log (ResticService.check process.outcome))) := by
  change Option.map Effect.next (if server.mayExit call deaf (process.outcome.exit log) = true then
    _ else _) = _
  rw [if_pos may, Option.map_some]
  refine congrArg (fun phase => some (Call.check run repository info phase)) ?_
  unfold ResticService.check
  change (if process.code = 0 then _ else if ResticService.isDamagedCheckOutput
    (process.outcome.stdout ++ '\n' :: process.outcome.stderr) = true then _ else _) =
    afterCheck log (if process.code = 0 then _ else _)
  by_cases success : process.code = 0
  · rw [if_pos success, if_pos success]
    rfl
  · rw [if_neg success, if_neg success, exit_error]
    split <;> rfl

/-- A check that is not cancelled is settled with the outcome, at once or after its call has
caught the error. -/
theorem check_caught (error : String) (running : server.aborted call = false) :
    (CheckPhase.step server call run repository info (.caught error) (.returns log)).map
        Effect.next =
      some (.check run repository info (.settle (settledOutcome log (.error error)))) := by
  unfold CheckPhase.step
  rw [running]
  rfl

end Calls

/-! ## Checks on an agent -/

/-- What a check is settled with, as `submitResult` reads it off a posted result. -/
def TaskResultDto.outcome (posted : TaskResultDto) : CheckOutcome :=
  checkOutcome {
    status :=
      if posted.status = "success" then .success
      else if posted.status = "cancelled" then .cancelled
      else .failed
    damaged := posted.damaged
    error := posted.error
    log := posted.log }

namespace GoAgent

/-- The check of a task runs on the host as the process does, and logs the lines of its two
streams in any order. -/
structure Checks (host : Host) (unmarshals : List Char → Bool) (process : ResticProcess) :
    Prop where
  ending : (host.restic .check).ending = .ok process.code
  lines : (host.restic .check).lines.Perm ((loggedLines unmarshals process).map String.ofList)

/-- The outcome of a check that is not cancelled. -/
def checkOutcome (host : Host) (task : Task) : CheckOutcome :=
  ((runCheck host {} task).run {}).1.posted.outcome

end GoAgent

/-! ## Agreement -/

/-- The lines of the two streams, of any length. -/
def ResticProcess.lines (process : ResticProcess) : List (List Char) :=
  process.stdout.flatten.splitOn '\n' ++ process.stderr.flatten.splitOn '\n'

/-- A report is on a line of the output exactly if one is on a line that the agent keeps. -/
def ResticProcess.reportKept (process : ResticProcess) (unmarshals : List Char → Bool) : Bool :=
  process.lines.any (fun line => decide (ReportsDamage line)) =
    (GoAgent.loggedLines unmarshals process).any fun line => decide (GoAgent.ReportsDamage line)

section Agreement

variable {unmarshals : List Char → Bool} {process : ResticProcess} {host : Host}
  {task : GoAgent.Task} {log : String}

theorem localOutcome_classified :
    (process.localOutcome log).classified =
      if process.code = 0 then .passed
      else if process.lines.any (fun line => decide (ReportsDamage line)) then .damaged
      else .unable := by
  have found : ResticService.isDamagedCheckOutput
      (process.outcome.stdout ++ '\n' :: process.outcome.stderr) =
        process.lines.any fun line => decide (ReportsDamage line) := by
    have absent : Char.toLower '\n' ∉ damagePhrase := by decide
    rw [Bool.eq_iff_iff, damageReported_iff, ReportsDamage, ReportsDamage,
      Occurs.splitOn_iff absent, Occurs.splitOn_iff absent, ResticProcess.lines, List.any_append,
      Bool.or_eq_true, List.any_eq_true, List.any_eq_true]
    simp only [decide_eq_true_eq]
    rfl
  unfold ResticProcess.localOutcome ResticService.check
  rw [found]
  change (settledOutcome log (if process.code = 0 then _ else _)).classified = _
  by_cases success : process.code = 0
  · rw [if_pos success, if_pos success]
    rfl
  · rw [if_neg success, if_neg success]
    split <;> rfl

theorem GoAgent.checkOutcome_classified (ran : GoAgent.Checks host unmarshals process) :
    (GoAgent.checkOutcome host task).classified =
      if process.code = 0 then .passed
      else if (GoAgent.loggedLines unmarshals process).any
          fun line => decide (GoAgent.ReportsDamage line) then .damaged
      else .unable := by
  have found : GoAgent.isDamagedCheckOutput (GoAgent.logText (host.restic .check).lines) =
      (GoAgent.loggedLines unmarshals process).any
        fun line => decide (GoAgent.ReportsDamage line) := by
    rw [Bool.eq_iff_iff, GoAgent.damagedLog_iff ran.lines, List.any_eq_true]
    simp only [decide_eq_true_eq]
  unfold GoAgent.checkOutcome
  rw [GoAgent.runCheck_run, GoAgent.checkResult, GoAgent.succeeded, found, ran.ending]
  change (GoAgent.TaskResult.posted (if decide (process.code = 0) = true then _
    else if ((GoAgent.loggedLines unmarshals process).any _) = true then _
    else _)).outcome.classified = _
  by_cases success : process.code = 0
  · rw [if_pos (decide_eq_true success), if_pos success]
    rfl
  · rw [if_neg (mt of_decide_eq_true success), if_neg success]
    split <;> rfl

/-- **Verdicts of checks.** For every exit code and every output, in whatever chunks it is read
and however the agent's two readers alternate, the server and the agent come to the same verdict
exactly if the check succeeds, or a report is on a line of the output exactly if one is on a line
that the agent keeps. -/
theorem check_verdicts_agree_iff (ran : GoAgent.Checks host unmarshals process) :
    (process.localOutcome log).classified = (GoAgent.checkOutcome host task).classified ↔
      process.code = 0 ∨ process.reportKept unmarshals = true := by
  rw [localOutcome_classified, GoAgent.checkOutcome_classified ran, ResticProcess.reportKept,
    decide_eq_true_eq]
  by_cases success : process.code = 0
  · rw [if_pos success, if_pos success]
    exact iff_of_true rfl (.inl success)
  · rw [if_neg success, if_neg success, or_iff_right success]
    cases process.lines.any fun line => decide (ReportsDamage line) with
    | false =>
        cases (GoAgent.loggedLines unmarshals process).any
            fun line => decide (GoAgent.ReportsDamage line) <;> decide
    | true =>
        cases (GoAgent.loggedLines unmarshals process).any
            fun line => decide (GoAgent.ReportsDamage line) <;> decide

end Agreement

/-- A warning that does not fit the agent's scanner, and the report after it. -/
def longWarning : ResticProcess where
  code := 1
  stderr := [List.replicate GoAgent.maxScanTokenSize 'x',
    "\nFatal: repository contains errors\n".toList]

/-- A host on which checks end as the process does. -/
def checkingHost (unmarshals : List Char → Bool) (process : ResticProcess) : Host where
  restic _ := {
    ending := .ok process.code
    lines := (GoAgent.loggedLines unmarshals process).map String.ofList }

theorem checkingHost_checks (unmarshals : List Char → Bool) (process : ResticProcess) :
    GoAgent.Checks (checkingHost unmarshals process) unmarshals process :=
  ⟨rfl, .refl _⟩

theorem longWarning_stderr : longWarning.stderr.flatten =
    List.replicate GoAgent.maxScanTokenSize 'x' ++
      '\n' :: "Fatal: repository contains errors\n".toList :=
  (List.flatten_cons).trans (congrArg _ (by decide))

/-- The agent reads no line of the stream that the long warning is on. -/
theorem loggedLines_longWarning (unmarshals : List Char → Bool) :
    GoAgent.loggedLines unmarshals longWarning = [] := by
  have line : '\n' ∉ List.replicate GoAgent.maxScanTokenSize 'x' := by
    intro member
    exact absurd (List.eq_of_mem_replicate member) (by decide)
  have long : GoAgent.maxScanTokenSize ≤
      GoAgent.byteLength (List.replicate GoAgent.maxScanTokenSize 'x') := by
    rw [GoAgent.byteLength, List.map_replicate, List.sum_replicate_nat]
    exact Nat.le_mul_of_pos_right _ (by decide)
  unfold GoAgent.loggedLines
  rw [longWarning_stderr, GoAgent.scanLines_long line long]
  rfl

/-- The agent misses the damage that restic reports after a long line. -/
theorem long_line_hides_damage :
    ¬ ∃ unmarshals : List Char → Bool, ∀ (process : ResticProcess) (host : Host)
      (task : GoAgent.Task) (log : String), GoAgent.Checks host unmarshals process →
        (process.localOutcome log).classified = (GoAgent.checkOutcome host task).classified := by
  rintro ⟨unmarshals, claim⟩
  have ran := checkingHost_checks unmarshals longWarning
  have same := claim longWarning _ { type := .check, taskId := 1 } "" ran
  have reported : longWarning.lines.any (fun line => decide (ReportsDamage line)) = true := by
    rw [List.any_eq_true]
    refine ⟨"Fatal: repository contains errors".toList, ?_, by decide⟩
    exact List.mem_append_right _ (by
      rw [longWarning_stderr, List.splitOn_append_cons_self]
      exact List.mem_append_right _ (by decide))
  have failed : longWarning.code ≠ 0 := by decide
  rw [localOutcome_classified, GoAgent.checkOutcome_classified ran, loggedLines_longWarning,
    reported, if_neg failed, if_neg failed, if_pos rfl] at same
  cases same

/-- A check that finds damage, with its report cut in two. -/
def ordinaryDamage : ResticProcess where
  code := 1
  stdout := ["load indexes\r\n".toList, "\x7b\"files\":3\x7d\n".toList]
  stderr := ["pack 7c9e6679: ciphertext verification failed\nFatal: Repo".toList,
    "sitory contains errors\n".toList]

/-- The report of an ordinary check is found on both hosts. -/
theorem damage_found_alike :
    (ordinaryDamage.localOutcome "").classified =
      (GoAgent.checkOutcome
        (checkingHost (fun line => line.head? = some '\x7b') ordinaryDamage)
        { type := .check, taskId := 1 }).classified :=
  (check_verdicts_agree_iff (checkingHost_checks _ _)).mpr (.inr (by decide +kernel))

end AmberBackup
