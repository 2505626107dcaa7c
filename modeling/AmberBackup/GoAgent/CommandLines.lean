import AmberBackup.GoAgent.BackupAgreement

/-! # The command lines of a backup

The server and the agent build the restic command lines of a backup from the same options, the
agent from what it decodes of its task. The lines of a backup and of a forget without prune are
the same exactly if the job has no exclude files and no negative read concurrency, and the
agent can decode its numbers (`command_lines_agree_iff`).
-/

namespace AmberBackup

/-! ## Credential files in arguments -/

/-- A text is made of characters and of references to credential files. -/
inductive ArgumentPiece where
  | literal (char : Char)
  | reference (name : List Char)
  deriving DecidableEq, Repr

def referenceOpening : List Char := "\x7b\x7bcredentialFile:".toList

def referenceClosing : List Char := "\x7d\x7d".toList

/-- The name of the reference the text begins with: at least one character, none of them a
closing brace. -/
def credentialFileRefRE (text : List Char) : Option (List Char) :=
  if referenceOpening.isPrefixOf text then
    let rest := text.drop referenceOpening.length
    let name := rest.takeWhile (· ≠ '\x7d')
    if name ≠ [] && referenceClosing.isPrefixOf (rest.drop name.length) then some name else none
  else none

/-- The pieces of a text after the characters of a reference that are yet to be passed over. -/
def argumentPieces : Nat → List Char → List ArgumentPiece
  | _, [] => []
  | skipped + 1, _ :: rest => argumentPieces skipped rest
  | 0, first :: rest =>
      match credentialFileRefRE (first :: rest) with
      | some name =>
          .reference name :: argumentPieces
            (referenceOpening.length + name.length + referenceClosing.length - 1) rest
      | none => .literal first :: argumentPieces 0 rest

/-- A reference is replaced by the path of its file; one without a file stays. -/
def ArgumentPiece.substitute (paths : Fields) : ArgumentPiece → List Char
  | .literal char => [char]
  | .reference name =>
      match lookupLast (String.ofList name) paths with
      | some path => path.toList
      | none => referenceOpening ++ name ++ referenceClosing

def substituteCredentialPaths (args : List String) (paths : Fields) : List String :=
  args.map fun arg =>
    String.ofList ((argumentPieces 0 arg.toList).flatMap (ArgumentPiece.substitute paths))

example : substituteCredentialPaths
    ["-i", "ssh \x7b\x7bcredentialFile:key\x7d\x7d \x7b\x7bcredentialFile:\x7d\x7d"]
      [("key", "/tmp/key")] = ["-i", "ssh /tmp/key \x7b\x7bcredentialFile:\x7d\x7d"] := by
  decide +kernel

/-- What the server runs restic with: global options precede the subcommand. -/
def ResticService.commandLine (extraArgs : Option (List String)) (credentialPaths : Fields)
    (args : List String) : List String :=
  substituteCredentialPaths (extraArgs.getD []) credentialPaths ++ args

/-! ## Tasks -/

/-- The numbers among the retention rules. -/
def Retention.numbers (retention : Retention) : List Int :=
  [retention.keepLast, retention.keepHourly, retention.keepDaily, retention.keepWeekly,
    retention.keepMonthly, retention.keepYearly].reduceOption

def ResticOptions.numbers (options : ResticOptions) : List Int :=
  options.readConcurrency.toList ++ (options.retention.map Retention.numbers).getD []

namespace GoAgent

/-- The integers of the agent have 64 bits. -/
def fitsInt (number : Int) : Bool := -2 ^ 63 ≤ number && number < 2 ^ 63

/-- A task as the agent reads it; a number that is no integer of the agent fails the whole
response. -/
def Task.decode (task : AgentTask) : Option Task :=
  if task.options.all fun options => options.numbers.all fitsInt then some (.received task)
  else none

/-- What the agent runs restic with. -/
def commandLine (extraArgs : Option (List String)) (credPaths : Fields) (args : List String) :
    List String :=
  substituteCredentialPaths (extraArgs.getD []) credPaths ++ args

end GoAgent

/-! ## Agreement -/

/-- The agent decodes the task of a backup, and builds the command lines of the server for the
backup and for a forget without prune. -/
structure CommandsAgree (queued : QueuedRun) (target : ResolvedTarget) (credentialPaths : Fields)
    (task : GoAgent.Task) : Prop where
  decoded : GoAgent.Task.decode (backupTask queued target) = some task
  backup : GoAgent.commandLine target.extraArgs credentialPaths (GoAgent.backupArgs task) =
    ResticService.commandLine target.extraArgs credentialPaths
      (ResticService.backupArgs queued.job.paths queued.job.resticOptions)
  forget : ∀ retention, queued.job.resticOptions.retention = some retention →
    ∃ received, (task.options.bind fun options => options.retention) = some received ∧
      GoAgent.commandLine target.extraArgs credentialPaths (GoAgent.forgetArgs received) =
        ResticService.commandLine target.extraArgs credentialPaths
          (ResticService.forgetArgs { retention with prune := some false })

/-- The options the agent passes on as the server does. -/
def ResticOptions.mirrored (options : ResticOptions) : Bool :=
  options.excludeFile.getD [] = [] && 0 ≤ options.readConcurrency.getD 0 &&
    options.numbers.all GoAgent.fitsInt

section Agreement

variable {queued : QueuedRun} {target : ResolvedTarget} {credentialPaths : Fields}
  {task : GoAgent.Task}

theorem decode_eq_some_iff : GoAgent.Task.decode (backupTask queued target) = some task ↔
    (queued.job.resticOptions.numbers.all GoAgent.fitsInt) = true ∧
      agentTask queued target = task := by
  unfold GoAgent.Task.decode
  change (if (queued.job.resticOptions.numbers.all GoAgent.fitsInt) = true then
    some (agentTask queued target) else none) = some task ↔ _
  split
  case isTrue fits => simp [fits]
  case isFalse beyond => simp [beyond]

/-- **Command lines of a backup.** For every job, every list of extra arguments and every set of
credential files, the agent builds the command lines of the server exactly if the options have no
exclude files, no negative read concurrency, and numbers the agent can hold. -/
theorem command_lines_agree_iff :
    (∃ task, CommandsAgree queued target credentialPaths task) ↔
      queued.job.resticOptions.mirrored = true := by
  simp only [ResticOptions.mirrored, Bool.and_eq_true, decide_eq_true_eq]
  rw [← @backupArgs_agree_iff queued target]
  constructor
  · rintro ⟨task, agree⟩
    obtain ⟨fits, rfl⟩ := decode_eq_some_iff.mp agree.decoded
    exact ⟨(List.append_cancel_left agree.backup).symm, fits⟩
  · rintro ⟨same, fits⟩
    refine ⟨agentTask queued target, decode_eq_some_iff.mpr ⟨fits, rfl⟩, ?_, ?_⟩
    · rw [GoAgent.commandLine, ← same]
      rfl
    · intro retention kept
      refine ⟨.received retention, ?_, ?_⟩
      · change queued.job.resticOptions.retention.map GoAgent.Retention.received = _
        rw [kept]
        rfl
      · rw [forgetArgs_agree]
        rfl

end Agreement

/-- A backup that reads its exclude patterns from a file. -/
def excludingRun : QueuedRun :=
  { retainedRun with
    job := { retainedRun.job with
      paths := ["/srv"]
      resticOptions := { excludeFile := some ["/etc/amber/excludes"] } } }

/-- The agent backs up what the file excludes. -/
theorem agent_drops_exclude_file :
    ¬ ∀ (queued : QueuedRun) (target : ResolvedTarget) (credentialPaths : Fields),
      ∃ task, CommandsAgree queued target credentialPaths task := by
  intro claim
  let target : ResolvedTarget := {
    targetId := none, repository := "/var/backups", password := "secret", env := []
    credentialFiles := [], extraArgs := none }
  obtain ⟨task, agree⟩ := claim excludingRun target []
  obtain ⟨-, rfl⟩ := decode_eq_some_iff.mp agree.decoded
  have same := backupArgs_agree_iff.mp (List.append_cancel_left agree.backup).symm
  have listed : excludingRun.job.resticOptions.excludeFile.getD [] ≠ [] := by decide
  exact listed same.1

end AmberBackup
