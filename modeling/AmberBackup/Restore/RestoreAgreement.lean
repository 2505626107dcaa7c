import AmberBackup.GoAgent.BackupAgreement
import AmberBackup.Restore.RestoreService

/-! # Restores on the server and on the agent

The server executes a restore itself or hands it to an agent. Both run `restic restore`, with
their options in a different order, so that the command lines are compared on what restic reads
off them (`RestoreInvocation.read`). A restore to a path of the host is the same on both exactly
if an alternate path is there, and an empty list of paths leaves no patterns of the options out
(`restores_agree_iff`).
-/

namespace AmberBackup

/-! ## What restic reads -/

/-- A restore as restic reads it off its command line. -/
structure RestoreInvocation where
  target : Option String := none
  includes : List String := []
  excludes : List String := []
  overwrite : Option String := none
  verify : Bool := false
  delete : Bool := false
  dryRun : Bool := false
  snapshots : List String := []
  deriving DecidableEq, Repr

namespace RestoreInvocation

/-- Reads the options up to `--`, and the snapshots after it. -/
def read (seen : RestoreInvocation) : List String → Option RestoreInvocation
  | [] => none
  | "--" :: snapshots => some { seen with snapshots }
  | "--json" :: rest => seen.read rest
  | "--verify" :: rest => { seen with verify := true : RestoreInvocation }.read rest
  | "--delete" :: rest => { seen with delete := true : RestoreInvocation }.read rest
  | "--dry-run" :: rest => { seen with dryRun := true : RestoreInvocation }.read rest
  | "--target" :: path :: rest => { seen with target := some path : RestoreInvocation }.read rest
  | "--overwrite" :: mode :: rest =>
      { seen with overwrite := some mode : RestoreInvocation }.read rest
  | "--include" :: pattern :: rest =>
      { seen with includes := seen.includes ++ [pattern] : RestoreInvocation }.read rest
  | "--exclude" :: pattern :: rest =>
      { seen with excludes := seen.excludes ++ [pattern] : RestoreInvocation }.read rest
  | _ :: _ => none

/-- The restore a command line asks for. -/
def ofArgs : List String → Option RestoreInvocation
  | "restore" :: options => read {} options
  | _ => none

/-- The same target, sets of patterns, flags and snapshots. -/
structure Same (first second : RestoreInvocation) : Prop where
  target : first.target = second.target
  includes : ∀ pattern, pattern ∈ first.includes ↔ pattern ∈ second.includes
  excludes : ∀ pattern, pattern ∈ first.excludes ↔ pattern ∈ second.excludes
  overwrite : first.overwrite = second.overwrite
  verify : first.verify = second.verify
  delete : first.delete = second.delete
  dryRun : first.dryRun = second.dryRun
  snapshots : first.snapshots = second.snapshots

variable {seen : RestoreInvocation} {rest : List String}

theorem read_includes (patterns : List String) :
    seen.read (repeated "--include" patterns ++ rest) =
      { seen with includes := seen.includes ++ patterns : RestoreInvocation }.read rest := by
  induction patterns generalizing seen with
  | nil => simp
  | cons first later ih =>
      change ({ seen with includes := seen.includes ++ [first] : RestoreInvocation }).read
        (repeated "--include" later ++ rest) = _
      rw [ih]
      simp

theorem read_excludes (patterns : List String) :
    seen.read (repeated "--exclude" patterns ++ rest) =
      { seen with excludes := seen.excludes ++ patterns : RestoreInvocation }.read rest := by
  induction patterns generalizing seen with
  | nil => simp
  | cons first later ih =>
      change ({ seen with excludes := seen.excludes ++ [first] : RestoreInvocation }).read
        (repeated "--exclude" later ++ rest) = _
      rw [ih]
      simp

theorem read_overwrite (mode : String) :
    seen.read (texted "--overwrite" mode ++ rest) =
      { seen with
        overwrite := if mode = "" then seen.overwrite else some mode : RestoreInvocation }.read
          rest := by
  unfold texted
  split <;> rfl

theorem read_verify (on : Bool) :
    seen.read ((if on then ["--verify"] else []) ++ rest) =
      { seen with verify := seen.verify || on : RestoreInvocation }.read rest := by
  cases on with
  | false => simp
  | true =>
      rw [Bool.or_true]
      rfl

theorem read_delete (on : Bool) :
    seen.read ((if on then ["--delete"] else []) ++ rest) =
      { seen with delete := seen.delete || on : RestoreInvocation }.read rest := by
  cases on with
  | false => simp
  | true =>
      rw [Bool.or_true]
      rfl

theorem read_dryRun (on : Bool) :
    seen.read ((if on then ["--dry-run"] else []) ++ rest) =
      { seen with dryRun := seen.dryRun || on : RestoreInvocation }.read rest := by
  cases on with
  | false => simp
  | true =>
      rw [Bool.or_true]
      rfl

end RestoreInvocation

/-! ## The two executors -/

/-- The arguments of `ResticService.restore`. -/
def ResticService.restoreArgs (snapshotId target : String) (options : RestoreOptions) :
    List String :=
  ["restore", "--json", "--target", target] ++
    repeated "--include" (options.includes.getD []) ++
    repeated "--exclude" (options.excludes.getD []) ++
    texted "--overwrite" (options.overwrite.getD "") ++
    (if options.verify.getD false then ["--verify"] else []) ++
    (if options.delete.getD false then ["--delete"] else []) ++
    (if options.dryRun.getD false then ["--dry-run"] else []) ++
    ["--", snapshotId]

/-- What `executeLocal` runs restic with; it throws before where there is no path. -/
def localRestoreArgs (settings : Settings) (id : Uuid) (run : RestoreRun) :
    Except String (List String) :=
  (serverTargetPath settings id run).map fun targetPath =>
    ResticService.restoreArgs run.snapshotId targetPath
      { run.options with includes := run.includedPaths.or run.options.includes }

/-- What the agent runs restic with for the claimed restore; it refuses none. -/
def agentRestoreArgs (id : Uuid) (run : RestoreRun) (target : ResolvedTarget) :
    Except String (List String) :=
  .ok (GoAgent.restoreArgs (.received (restoreTask id run target)))

/-- The same restore is run, or none. -/
def SameExecution : Except String (List String) → Except String (List String) → Prop
  | .ok args, .ok other => ∃ first second, RestoreInvocation.ofArgs args = some first ∧
      RestoreInvocation.ofArgs other = some second ∧ first.Same second
  | .error _, .error _ => True
  | .ok _, .error _ | .error _, .ok _ => False

/-- An alternate path is there, and an empty list of paths leaves no patterns out. -/
def RestoreRun.mirrored (run : RestoreRun) : Bool :=
  (run.mode ≠ .alternatePath || run.destination.path.getD "" ≠ "") &&
    (run.includedPaths ≠ some [] || run.options.includes.getD [] = [])

section Agreement

variable {settings : Settings} {id : Uuid} {run : RestoreRun} {target : ResolvedTarget}

/-- The restore the options ask for. -/
def RestoreOptions.invocation (options : RestoreOptions) (snapshotId targetPath : String)
    (includes : List String) : RestoreInvocation where
  target := some targetPath
  includes
  excludes := options.excludes.getD []
  overwrite := if options.overwrite.getD "" = "" then none else some (options.overwrite.getD "")
  verify := options.verify.getD false
  delete := options.delete.getD false
  dryRun := options.dryRun.getD false
  snapshots := [snapshotId]

theorem ofArgs_server (snapshotId targetPath : String) (options : RestoreOptions) :
    RestoreInvocation.ofArgs (ResticService.restoreArgs snapshotId targetPath options) =
      some (options.invocation snapshotId targetPath (options.includes.getD [])) := by
  unfold ResticService.restoreArgs
  simp only [List.cons_append, List.nil_append, List.append_assoc]
  change RestoreInvocation.read { target := some targetPath } _ = _
  rw [RestoreInvocation.read_includes, RestoreInvocation.read_excludes,
    RestoreInvocation.read_overwrite, RestoreInvocation.read_verify,
    RestoreInvocation.read_delete, RestoreInvocation.read_dryRun]
  rfl

/-- The paths of the restore, or the patterns of its options if there are none. -/
def RestoreRun.agentIncludes (run : RestoreRun) : List String :=
  if run.includedPaths.getD [] = [] then run.options.includes.getD []
  else run.includedPaths.getD []

theorem agentRestoreArgs_eq :
    agentRestoreArgs id run target = .ok
      (["restore", "--json", "--target", agentTargetPath run.destination] ++
        (repeated "--exclude" (run.options.excludes.getD []) ++
          texted "--overwrite" (run.options.overwrite.getD "") ++
          (if run.options.verify.getD false then ["--verify"] else []) ++
          (if run.options.delete.getD false then ["--delete"] else []) ++
          (if run.options.dryRun.getD false then ["--dry-run"] else []) ++
          repeated "--include" run.agentIncludes) ++ ["--", run.snapshotId]) := rfl

theorem ofArgs_agent {args : List String} (built : agentRestoreArgs id run target = .ok args) :
    RestoreInvocation.ofArgs args =
      some (run.options.invocation run.snapshotId (agentTargetPath run.destination)
        run.agentIncludes) := by
  obtain rfl := Except.ok.inj (agentRestoreArgs_eq.symm.trans built)
  simp only [List.cons_append, List.nil_append, List.append_assoc]
  change RestoreInvocation.read { target := some (agentTargetPath run.destination) } _ = _
  rw [RestoreInvocation.read_excludes, RestoreInvocation.read_overwrite,
    RestoreInvocation.read_verify, RestoreInvocation.read_delete,
    RestoreInvocation.read_dryRun, RestoreInvocation.read_includes]
  rfl

/-- The server writes where the agent does, except to an alternate path that is missing. -/
theorem serverTargetPath_cases (mode : run.mode ≠ .download) :
    (run.mode = .alternatePath ∧ run.destination.path.getD "" = "" ∧
        ∃ error, serverTargetPath settings id run = .error error) ∨
      ¬ (run.mode = .alternatePath ∧ run.destination.path.getD "" = "") ∧
        serverTargetPath settings id run = .ok (agentTargetPath run.destination) := by
  unfold serverTargetPath agentTargetPath
  cases here : run.mode with
  | download => exact absurd here mode
  | original =>
      refine .inr ⟨?_, rfl⟩
      rintro ⟨alternate, -⟩
      cases alternate
  | alternatePath =>
      cases run.destination.path with
      | none => exact .inl ⟨rfl, rfl, _, rfl⟩
      | some path =>
          by_cases empty : path = ""
          · exact .inl ⟨rfl, empty, _, if_pos empty⟩
          · refine .inr ⟨fun alternate => empty alternate.2, ?_⟩
            dsimp only
            rw [if_neg empty, if_neg empty]

/-- The patterns of the two restores are the same, unless an empty list hides some. -/
theorem includes_agree_iff :
    (∀ pattern, pattern ∈ (run.includedPaths.or run.options.includes).getD [] ↔
        pattern ∈ run.agentIncludes) ↔
      run.includedPaths ≠ some [] ∨ run.options.includes.getD [] = [] := by
  unfold RestoreRun.agentIncludes
  cases listed : run.includedPaths with
  | none => simp
  | some paths =>
      cases paths with
      | nil => simp [List.eq_nil_iff_forall_not_mem]
      | cons first rest => simp

/-- **Restores on the two executors.** For every restore to a path of the host, the server and
the agent run the same restore, or both refuse it, exactly if an alternate path is there and an
empty list of included paths leaves no patterns of the options out. -/
theorem restores_agree_iff (mode : run.mode ≠ .download) :
    SameExecution (localRestoreArgs settings id run) (agentRestoreArgs id run target) ↔
      run.mirrored = true := by
  simp only [RestoreRun.mirrored, Bool.and_eq_true, Bool.or_eq_true, decide_eq_true_eq]
  rw [agentRestoreArgs_eq, ← includes_agree_iff, localRestoreArgs]
  rcases @serverTargetPath_cases settings id run mode with
    ⟨alternate, missing, error, refused⟩ | ⟨there, writes⟩
  · rw [refused]
    simp only [alternate, missing, ne_eq, not_true_eq_false, or_self, false_and, iff_false]
    exact False.elim
  · rw [writes]
    have path : run.mode ≠ .alternatePath ∨ run.destination.path.getD "" ≠ "" := by
      by_contra neither
      rw [not_or, not_not, not_not] at neither
      exact there neither
    rw [and_iff_right path]
    have agent := ofArgs_agent (@agentRestoreArgs_eq id run target)
    constructor
    · rintro ⟨first, second, server, other, same⟩
      rw [ofArgs_server] at server
      obtain rfl := Option.some.inj server
      obtain rfl := Option.some.inj (agent.symm.trans other)
      exact same.includes
    · intro same
      exact ⟨_, _, ofArgs_server _ _ _, agent, rfl, same, fun _ => Iff.rfl, rfl, rfl, rfl, rfl, rfl⟩

end Agreement

/-- A restore to another path on the host of an agent. -/
def pathlessRestore : RestoreRun where
  targetId := none
  jobId := some 2
  repoConfig := [("path", .text "/var/backups")]
  repoPasswordSecretId := 4
  credentialSecretId := none
  snapshotId := "latest"
  mode := .alternatePath
  destination := { agentId := some 3 }
  initiatedBy := 1
  createdAt := 0

def restoredRepository : ResolvedTarget where
  targetId := none
  repository := "/var/backups"
  password := "secret"
  env := []
  credentialFiles := []
  extraArgs := none

/-- The server refuses a restore to an alternate path that is not given; the agent restores it
over its root directory. -/
theorem agent_restores_over_root :
    ¬ ∀ (settings : Settings) (id : Uuid) (run : RestoreRun) (target : ResolvedTarget),
      run.mode ≠ .download →
        SameExecution (localRestoreArgs settings id run) (agentRestoreArgs id run target) := by
  intro claim
  exact claim { runQueueTimeoutSeconds := 0, restoreTmpDir := "/tmp" } 5 pathlessRestore
    restoredRepository (by decide)

/-- Two paths of a snapshot are restored below another one. -/
theorem selected_paths_restored_alike :
    SameExecution
      (localRestoreArgs { runQueueTimeoutSeconds := 0, restoreTmpDir := "/tmp" } 5
        { pathlessRestore with
          destination := { path := some "/mnt/restored" }
          includedPaths := some ["/srv", "/etc"]
          options := { excludes := some ["*.tmp"], verify := some true } })
      (agentRestoreArgs 5
        { pathlessRestore with
          destination := { path := some "/mnt/restored" }
          includedPaths := some ["/srv", "/etc"]
          options := { excludes := some ["*.tmp"], verify := some true } } restoredRepository) :=
  (restores_agree_iff (by decide)).mpr (by decide)

end AmberBackup
