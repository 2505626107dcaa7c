import AmberBackup.Cli.Update

/-! # What an update leaves

However requests and operations on files fail, and wherever the run is cut off, the executable is
the old one or the binary of the release whose checksum was right and that ran and reported its
version (`self_update`). On Windows the old one can also be left beside its place. Every request goes
to GitHub over HTTPS, redirects included, and no other file is changed.
-/

namespace AmberBackup

namespace Cli

open NetUrl (Url)
open Utf8 (Bytes)
open GoAgent (trimSpace)
open Procedure (Ends ending)
open Updating

/-! ## Downloads -/

/-- What a run has not changed since its start, and what it has fetched. -/
structure Frame (lower : Char → Char) (start : Computer) (touched : Path → Prop)
    (known : List (String × Bytes)) (machine : Computer) : Prop where
  files : ∀ path, ¬ touched path → machine.files path = start.files path
  requests : ∀ url ∈ machine.requests, url ∈ start.requests ∨ allowedDownloadHost lower url = true
  known : ∀ entry ∈ known, entry ∈ machine.fetched

section Frames

variable {lower : Char → Char} {start machine : Computer} {touched : Path → Prop}
  {known : List (String × Bytes)} {tools : Toolchain} {url : Url} {rawURL name version : String}
  {limit via : Nat} {release : GhRelease}

theorem Frame.quiet (machine : Computer) (ahead : List Circumstances)
    (frame : Frame lower start touched known machine) :
    Frame lower start touched known { machine with ahead } :=
  ⟨frame.files, frame.requests, frame.known⟩

theorem Frame.forget (frame : Frame lower start touched known machine) :
    Frame lower start touched [] machine :=
  ⟨frame.files, frame.requests, fun _ absent => absurd absent List.not_mem_nil⟩

theorem request_ends (allowed : allowedDownloadHost lower url = true) :
    (request url).Ends (Frame lower start touched known)
      (ending (fun _ => Frame lower start touched known)
        fun _ => Frame lower start touched []) := by
  constructor
  intro machine frame
  refine ⟨frame.files, ?_, frame.known⟩
  intro other member
  rcases List.mem_append.mp member with before | last
  · exact frame.requests other before
  · rw [List.mem_singleton.mp last]
    exact .inr allowed

/-- Redirects are followed to allowed hosts only. -/
theorem follow_ends (hops : List Url) :
    (follow lower via hops).Ends (Frame lower start touched known)
      (ending (fun _ => Frame lower start touched known)
        fun _ => Frame lower start touched []) := by
  induction hops generalizing via with
  | nil => exact Ends.pure fun _ frame => frame
  | cons hop rest ih =>
      unfold follow
      refine Ends.ite (fun _ => Ends.raise fun _ frame => frame.forget) fun _ => ?_
      refine Ends.ite (fun _ => Ends.raise fun _ frame => frame.forget) fun allowed => ?_
      rw [Bool.not_eq_true, Bool.not_eq_false'] at allowed
      exact Ends.bind (request_ends allowed) fun _ => ih

theorem await_ends :
    await.Ends (Frame lower start touched known)
      (ending (fun _ => Frame lower start touched known)
        fun _ => Frame lower start touched []) :=
  attempt_ends Frame.quiet (fun _ _ frame => frame.forget) fun _ _ frame => frame

theorem record_ends {body : Bytes} :
    (record rawURL body).Ends (Frame lower start touched known)
      (ending (fun _ => Frame lower start touched ((rawURL, body) :: known))
        fun _ => Frame lower start touched []) := by
  constructor
  intro machine frame
  refine ⟨frame.files, frame.requests, ?_⟩
  intro entry member
  rcases List.mem_cons.mp member with rfl | before
  · exact List.mem_append_right _ List.mem_cons_self
  · exact List.mem_append_left _ (frame.known entry before)

/-- What is fetched is recorded under its URL. -/
theorem fetchLimited_ends :
    (fetchLimited tools rawURL limit).Ends (Frame tools.lower start touched known)
      (ending (fun body => Frame tools.lower start touched ((rawURL, body) :: known))
        fun _ => Frame tools.lower start touched []) := by
  unfold fetchLimited
  split
  · exact Ends.raise fun _ frame => frame.forget
  · refine Ends.ite (fun _ => Ends.raise fun _ frame => frame.forget) fun allowed => ?_
    rw [Bool.not_eq_true, Bool.not_eq_false'] at allowed
    refine Ends.bind (request_ends allowed) fun _ => Ends.bind await_ends fun reply =>
      Ends.bind (follow_ends reply.hops) fun _ =>
        Ends.bind (Ends.lift fun _ _ frame => frame.forget) fun body => Ends.assuming fun _ => ?_
    exact Ends.bind record_ends fun _ => Ends.pure fun _ frame => frame

theorem fetchLatestRelease_ends :
    (fetchLatestRelease tools).Ends (Frame tools.lower start touched known)
      (ending (fun result machine => ∃ body, readRelease tools body = .ok result ∧
          Frame tools.lower start touched ((latestReleaseURL, body) :: known) machine)
        fun _ => Frame tools.lower start touched []) := by
  refine Ends.bind (Ends.mapError fetchLimited_ends) fun body => ?_
  exact Ends.imp (Ends.lift fun _ _ frame => frame.forget) (fun _ _ read => ⟨body, read⟩)
    fun _ _ frame => frame

/-- The files a binary was taken from, and where they are from. -/
structure Downloads where
  archiveAsset : GhAsset
  checksumAsset : GhAsset
  listing : Bytes
  archive : Bytes

/-- The checksum of the archive is the one that the release lists, and the binary is in it. -/
structure Downloads.Verified (downloads : Downloads) (tools : Toolchain) (release : GhRelease)
    (version goos goarch : String) (binary : Bytes) : Prop where
  archiveAsset : findAsset release (assetName version goos goarch) = some downloads.archiveAsset
  checksumAsset : findAsset release "checksums.txt" = some downloads.checksumAsset
  checksum : lookupChecksum downloads.listing (assetName version goos goarch) =
    .ok (hexText (tools.sha256 downloads.archive))
  binary : extractBinary tools downloads.archive (goos = "windows")
    ("ambb_" ++ version ++ "_" ++ goos ++ "_" ++ goarch ++ "/" ++ binaryName goos) = .ok binary

def Downloads.entries (downloads : Downloads) : List (String × Bytes) :=
  [(downloads.archiveAsset.url, downloads.archive), (downloads.checksumAsset.url, downloads.listing)]

theorem pickAssets_eq_ok {archive checksums : GhAsset}
    (picked : pickAssets release name = .ok (archive, checksums)) :
    findAsset release name = some archive ∧
      findAsset release "checksums.txt" = some checksums := by
  unfold pickAssets at picked
  split at picked
  · cases picked
  · cases picked
  · cases picked
    exact ⟨‹_›, ‹_›⟩

theorem verifiedBinary_eq_ok {goos goarch : String} {sum : List Char} {archive binary : Bytes}
    (verified : verifiedBinary tools version goos goarch sum archive = .ok binary) :
    sum = hexText (tools.sha256 archive) ∧
      extractBinary tools archive (goos = "windows")
        ("ambb_" ++ version ++ "_" ++ goos ++ "_" ++ goarch ++ "/" ++ binaryName goos) =
          .ok binary := by
  unfold verifiedBinary at verified
  dsimp only at verified
  split at verified
  case isTrue => cases verified
  case isFalse same => exact ⟨(not_not.mp same).symm, verified⟩

theorem downloadBinary_ends {goos goarch : String} :
    (downloadBinary tools release version goos goarch).Ends (Frame tools.lower start touched known)
      (ending (fun binary machine => ∃ downloads : Downloads,
          downloads.Verified tools release version goos goarch binary ∧
            Frame tools.lower start touched (downloads.entries ++ known) machine)
        fun _ => Frame tools.lower start touched []) := by
  refine Ends.bind (Ends.lift fun _ _ frame => frame.forget) fun assets => Ends.assuming fun picked => ?_
  obtain ⟨archiveAsset, checksumAsset⟩ := assets
  obtain ⟨archived, checksums⟩ := pickAssets_eq_ok picked
  refine Ends.bind fetchLimited_ends fun listing => ?_
  refine Ends.bind (Ends.lift fun _ _ frame => frame.forget) fun sum => Ends.assuming fun listed => ?_
  refine Ends.bind fetchLimited_ends fun archive => ?_
  refine Ends.imp (Ends.lift fun _ _ frame => frame.forget) ?_ fun _ _ frame => frame
  rintro binary machine ⟨verified, frame⟩
  obtain ⟨same, extracted⟩ := verifiedBinary_eq_ok verified
  subst same
  exact ⟨⟨archiveAsset, checksumAsset, listing, archive⟩,
    ⟨archived, checksums, listed, extracted⟩, frame⟩

end Frames

/-! ## Installing -/

/-- The name is one that staged files have. -/
def Staged (path : Path) : Prop := stagePrefix.toList <+: path.name.toList

/-- The paths of a staged file. -/
def Spare (install : Installation) (staged path : Path) : Prop :=
  path = staged ∨ install.windows = true ∧ path = exePath staged

/-- The paths an installation may change. -/
def Reached (install : Installation) (staged path : Path) : Prop :=
  Spare install staged path ∨ path = install.exe ∨
    install.windows = true ∧ path = oldPath install.exe

/-- A file is staged beside an executable that is not staged itself. -/
structure Stage (install : Installation) (start : Computer) (staged : Path) : Prop where
  exists_exe : start.files install.exe ≠ none
  free : start.files staged = none
  name : Staged staged
  dir : staged.dir = install.exe.dir
  plain : install.windows = true → ¬ Staged install.exe

section Paths

variable {install : Installation} {start : Computer} {staged path : Path}

theorem staged_exePath (name : Staged path) : Staged (exePath path) := by
  unfold Staged exePath
  dsimp only
  rw [String.toList_append]
  exact name.trans (List.prefix_append _ _)

/-- Moving a file aside does not give it the name of a staged one. -/
theorem staged_of_oldPath (name : Staged (oldPath path)) : Staged path := by
  unfold Staged oldPath at name
  dsimp only at name
  rw [String.toList_append] at name
  obtain ⟨rest, same⟩ := name
  rcases List.append_eq_append_iff.mp same with ⟨more, longer, -⟩ | ⟨more, shorter, suffix⟩
  · exact ⟨more, longer.symm⟩
  · cases more using List.reverseRecOn with
    | nil => exact ⟨[], by rw [List.append_nil, shorter, List.append_nil]⟩
    | append_singleton front last =>
        -- The dash at the end of the prefix is none of the characters of `.old`.
        have dash : last = '-' := by
          have ends := congrArg List.getLast? shorter
          rw [← List.append_assoc, List.getLast?_concat] at ends
          exact (Option.some.inj ends).symm
        have member : last ∈ ".old".toList := by
          rw [suffix]
          simp
        rw [dash] at member
        exact absurd member (by decide)

namespace Stage

variable (stage : Stage install start staged)

include stage

theorem exe_ne : install.exe ≠ staged := by
  intro same
  exact stage.exists_exe (same ▸ stage.free)

theorem exe_not_spare : ¬ Spare install staged install.exe := by
  rintro (same | ⟨windows, same⟩)
  · exact stage.exe_ne same
  · exact stage.plain windows (same ▸ staged_exePath stage.name)

theorem old_not_spare (windows : install.windows = true) :
    ¬ Spare install staged (oldPath install.exe) := by
  rintro (same | ⟨-, same⟩)
  · exact stage.plain windows (staged_of_oldPath (same ▸ stage.name))
  · exact stage.plain windows (staged_of_oldPath (same ▸ staged_exePath stage.name))

omit stage in
theorem old_ne (path : Path) : oldPath path ≠ path := by
  intro same
  have names := congrArg (fun path : Path => path.name.toList.length) same
  unfold oldPath at names
  dsimp only at names
  rw [String.toList_append, List.length_append] at names
  exact absurd names (by simp)

end Stage

end Paths

/-- The staged file, as far as it is written. -/
structure Holds (lower : Char → Char) (start : Computer) (touched : Path → Prop)
    (known : List (String × Bytes)) (path : Path) (node : FileNode) (machine : Computer) : Prop where
  frame : Frame lower start touched known machine
  here : machine.files path = some node

section Filling

variable {lower : Char → Char} {install : Installation} {start machine : Computer}
  {touched : Path → Prop} {known : List (String × Bytes)} {path target : Path} {node : FileNode}
  {content : Bytes} {mode : Nat}

theorem Holds.quiet (machine : Computer) (ahead : List Circumstances)
    (holds : Holds lower start touched known path node machine) :
    Holds lower start touched known path node { machine with ahead } :=
  ⟨holds.frame.quiet machine ahead, holds.here⟩

/-- What is written to a path that may be touched keeps the rest. -/
theorem Frame.setFile (frame : Frame lower start touched known machine) (inside : touched path)
    (value : Option FileNode) : Frame lower start touched known (setFile path value machine) := by
  refine ⟨?_, frame.requests, frame.known⟩
  intro other outside
  refine (Function.update_of_ne ?_ _ _).trans (frame.files other outside)
  rintro rfl
  exact outside inside

theorem Holds.modify (holds : Holds lower start touched known path node machine)
    (inside : touched path) (change : FileNode → FileNode) :
    Holds lower start touched known path (change node) (modifyFile path change machine) := by
  refine ⟨holds.frame.setFile inside _, ?_⟩
  unfold modifyFile
  rw [files_setFile, holds.here]
  rfl

theorem stat_ends :
    (stat path).Ends (Frame lower start (fun _ => False) known)
      (ending (fun info machine => start.files path = some info ∧
          Frame lower start (fun _ => False) known machine)
        fun _ => Frame lower start (fun _ => False) []) := by
  refine attempt_ends Frame.quiet (fun _ _ frame => frame.forget) ?_
  intro outcome machine frame
  split
  · exact ⟨(frame.files path not_false).symm.trans ‹_›, frame⟩
  · exact frame.forget

theorem createTemp_ends (present : start.files install.exe ≠ none)
    (plain : install.windows = true → ¬ Staged install.exe) :
    (createTemp install.exe.dir).Ends (Frame lower start (fun _ => False) known)
      (ending (fun staged machine => Stage install start staged ∧
          Holds lower start (Spare install staged) known staged ⟨[], 0o600⟩ machine)
        fun _ => Frame lower start (fun _ => False) []) := by
  refine attempt_ends Frame.quiet (fun _ _ frame => frame.forget) ?_
  intro outcome machine frame
  dsimp only
  split
  · exact frame.forget
  case h_2 free =>
    refine ⟨⟨present, (frame.files _ not_false).symm.trans free, ?_, rfl, plain⟩, ?_⟩
    · unfold Staged
      dsimp only
      rw [String.toList_append]
      exact List.prefix_append _ _
    · have wider : Frame lower start (Spare install ⟨install.exe.dir, stagePrefix ++ outcome.suffix⟩)
          known machine := ⟨fun path _ => frame.files path not_false, frame.requests, frame.known⟩
      exact ⟨wider.setFile (.inl rfl) _, files_setFile _⟩

/-- A write that reports no error wrote everything. -/
theorem write_ends (inside : touched path) :
    (write path content).Ends (Holds lower start touched known path node)
      (ending (fun failed machine => ∃ written : FileNode,
          (failed = none → written = { node with content }) ∧
            Holds lower start touched known path written machine)
        fun _ => Frame lower start touched []) := by
  refine perform_ends Holds.quiet (fun _ holds => holds.frame.forget) ?_
  intro outcome machine holds
  split
  · exact ⟨_, nofun, holds.modify inside fun node =>
      { node with content := content.take outcome.written }⟩
  · exact ⟨_, fun _ => rfl, holds.modify inside fun node => { node with content }⟩

theorem close_ends :
    close.Ends (Holds lower start touched known path node)
      (ending (fun _ => Holds lower start touched known path node)
        fun _ => Frame lower start touched []) :=
  perform_ends Holds.quiet (fun _ holds => holds.frame.forget) fun _ _ holds => holds

theorem throwing_ends (failed : Option SystemError) :
    (throwing failed).Ends (Holds lower start touched known path node)
      (ending (fun _ machine => failed = none ∧ Holds lower start touched known path node machine)
        fun _ => Frame lower start touched []) := by
  cases failed with
  | none => exact Ends.pure fun _ holds => ⟨rfl, holds⟩
  | some error => exact Ends.raise fun _ holds => holds.frame.forget

theorem chmod_ends (inside : touched path) :
    (chmod path mode).Ends (Holds lower start touched known path node)
      (ending (fun _ => Holds lower start touched known path { node with mode })
        fun _ => Frame lower start touched []) :=
  attempt_ends Holds.quiet (fun _ _ holds => holds.frame.forget) fun _ _ holds =>
    holds.modify inside fun node => { node with mode }

theorem fillStaged_ends (inside : touched path) :
    (fillStaged path content mode).Ends (Holds lower start touched known path node)
      (ending (fun _ => Holds lower start touched known path ⟨content, mode &&& 0o777 ||| 0o100⟩)
        fun _ => Frame lower start touched []) := by
  refine Ends.bind (write_ends inside) fun writeErr => Ends.exists_pre fun written =>
    Ends.assuming fun whole => ?_
  refine Ends.bind close_ends fun closeErr => ?_
  refine Ends.bind (throwing_ends writeErr) fun _ => Ends.assuming fun wrote => ?_
  refine Ends.bind (throwing_ends closeErr) fun _ => Ends.assuming fun _ => ?_
  obtain rfl := whole wrote
  exact chmod_ends inside

/-- A file that is moved is where it is moved to. -/
theorem rename_ends (source : touched path) (destination : touched target) :
    (rename path target).Ends (Holds lower start touched known path node)
      (ending (fun _ => Holds lower start touched known target node)
        fun _ => Holds lower start touched known path node) := by
  refine attempt_ends Holds.quiet (fun _ _ holds => holds) ?_
  intro outcome machine holds
  rw [holds.here]
  exact ⟨(holds.frame.setFile source _).setFile destination _, files_setFile _⟩

end Filling

/-- The file ran and reported the version. -/
def Reports (latest : String) (node : FileNode) (ran : List (Bytes × String)) : Prop :=
  ∃ out, (node.content, out) ∈ ran ∧ trimSpace out = "ambb " ++ latest

/-- The staged file has run, and the executable is in its place. -/
structure Waiting (lower : Char → Char) (install : Installation) (start : Computer) (staged : Path)
    (known : List (String × Bytes)) (path : Path) (new : FileNode) (latest : String)
    (machine : Computer) : Prop where
  frame : Frame lower start (Reached install staged) known machine
  here : machine.files path = some new
  ran : Reports latest new machine.ran
  exe : machine.files install.exe = start.files install.exe

/-- The executable is moved aside. -/
structure Aside (lower : Char → Char) (install : Installation) (start : Computer) (staged : Path)
    (known : List (String × Bytes)) (path : Path) (new : FileNode) (latest : String)
    (machine : Computer) : Prop where
  frame : Frame lower start (Reached install staged) known machine
  here : machine.files path = some new
  ran : Reports latest new machine.ran
  exe : machine.files install.exe = none
  old : machine.files (oldPath install.exe) = start.files install.exe

/-- The staged file has taken the executable's place. -/
structure Replaced (lower : Char → Char) (install : Installation) (start : Computer) (staged : Path)
    (known : List (String × Bytes)) (new : FileNode) (latest : String) (machine : Computer) : Prop where
  frame : Frame lower start (Reached install staged) known machine
  exe : machine.files install.exe = some new
  ran : Reports latest new machine.ran

/-- What a failed installation leaves. -/
structure Failed (lower : Char → Char) (install : Installation) (start : Computer) (staged : Path)
    (known : List (String × Bytes)) (new : FileNode) (latest : String) (failure : UpdateError)
    (machine : Computer) : Prop where
  frame : Frame lower start (Reached install staged) [] machine
  exe : machine.files install.exe = start.files install.exe ∨
    install.windows = true ∧ machine.files install.exe = none ∧
      machine.files (oldPath install.exe) = start.files install.exe ∨
    failure = .interrupted ∧ Replaced lower install start staged known new latest machine

section Replacing

variable {lower : Char → Char} {install : Installation} {start machine : Computer}
  {known : List (String × Bytes)} {staged path : Path} {new : FileNode} {latest : String}

theorem Waiting.failed (waiting : Waiting lower install start staged known path new latest machine)
    (failure : UpdateError) : Failed lower install start staged known new latest failure machine :=
  ⟨waiting.frame.forget, .inl waiting.exe⟩

theorem Aside.failed (windows : install.windows = true)
    (aside : Aside lower install start staged known path new latest machine)
    (failure : UpdateError) : Failed lower install start staged known new latest failure machine :=
  ⟨aside.frame.forget, .inr (.inl ⟨windows, aside.exe, aside.old⟩)⟩

theorem Waiting.quiet (machine : Computer) (ahead : List Circumstances)
    (waiting : Waiting lower install start staged known path new latest machine) :
    Waiting lower install start staged known path new latest { machine with ahead } :=
  ⟨waiting.frame.quiet machine ahead, waiting.here, waiting.ran, waiting.exe⟩

theorem Aside.quiet (machine : Computer) (ahead : List Circumstances)
    (aside : Aside lower install start staged known path new latest machine) :
    Aside lower install start staged known path new latest { machine with ahead } :=
  ⟨aside.frame.quiet machine ahead, aside.here, aside.ran, aside.exe, aside.old⟩

theorem Replaced.quiet (machine : Computer) (ahead : List Circumstances)
    (replaced : Replaced lower install start staged known new latest machine) :
    Replaced lower install start staged known new latest { machine with ahead } :=
  ⟨replaced.frame.quiet machine ahead, replaced.exe, replaced.ran⟩

theorem Failed.quiet {failure : UpdateError} (machine : Computer) (ahead : List Circumstances)
    (failed : Failed lower install start staged known new latest failure machine) :
    Failed lower install start staged known new latest failure { machine with ahead } := by
  refine ⟨failed.frame.quiet machine ahead, ?_⟩
  rcases failed.exe with kept | aside | ⟨cut, replaced⟩
  · exact .inl kept
  · exact .inr (.inl aside)
  · exact .inr (.inr ⟨cut, replaced.quiet machine ahead⟩)

/-- A failure that is cut off leaves no less. -/
theorem Failed.cut {failure : UpdateError}
    (failed : Failed lower install start staged known new latest failure machine) :
    Failed lower install start staged known new latest .interrupted machine := by
  refine ⟨failed.frame, ?_⟩
  rcases failed.exe with kept | aside | ⟨-, replaced⟩
  · exact .inl kept
  · exact .inr (.inl aside)
  · exact .inr (.inr ⟨rfl, replaced⟩)

theorem Replaced.failed (replaced : Replaced lower install start staged known new latest machine) :
    Failed lower install start staged known new latest .interrupted machine :=
  ⟨replaced.frame.forget, .inr (.inr ⟨rfl, replaced⟩)⟩

/-- Removing a file that is not the executable keeps what took its place. -/
theorem Replaced.setFile (replaced : Replaced lower install start staged known new latest machine)
    (inside : Reached install staged path) (other : install.exe ≠ path) (value : Option FileNode) :
    Replaced lower install start staged known new latest (setFile path value machine) :=
  ⟨replaced.frame.setFile inside value, (files_setFile_of_ne other value).trans replaced.exe,
    replaced.ran⟩

theorem Failed.setFile {failure : UpdateError}
    (failed : Failed lower install start staged known new latest failure machine)
    (inside : Reached install staged path) (other : install.exe ≠ path)
    (apart : install.windows = true → oldPath install.exe ≠ path) (value : Option FileNode) :
    Failed lower install start staged known new latest failure (setFile path value machine) := by
  refine ⟨failed.frame.setFile inside value, ?_⟩
  rcases failed.exe with kept | ⟨windows, gone, old⟩ | ⟨cut, replaced⟩
  · exact .inl ((files_setFile_of_ne other value).trans kept)
  · exact .inr (.inl ⟨windows, (files_setFile_of_ne other value).trans gone,
      (files_setFile_of_ne (apart windows) value).trans old⟩)
  · exact .inr (.inr ⟨cut, replaced.setFile inside other value⟩)

theorem remove_replaced_ends (inside : Reached install staged path) (other : install.exe ≠ path) :
    (removeQuietly path).Ends (Replaced lower install start staged known new latest)
      (ending (fun _ => Replaced lower install start staged known new latest)
        (Failed lower install start staged known new latest)) := by
  refine perform_ends Replaced.quiet (fun _ replaced => replaced.failed) ?_
  intro outcome machine replaced
  change Replaced _ _ _ _ _ _ _ (if outcome.error.isSome then machine else _)
  split
  · exact replaced
  · exact replaced.setFile inside other none

/-- The cleanup keeps how an installation ended. -/
theorem removeQuietly_ends (inside : Reached install staged path) (other : install.exe ≠ path)
    (apart : install.windows = true → oldPath install.exe ≠ path) (result : Except UpdateError Unit) :
    (removeQuietly path).Ends
      (ending (fun _ => Replaced lower install start staged known new latest)
        (Failed lower install start staged known new latest) result)
      (ending
        (fun _ => ending (fun _ => Replaced lower install start staged known new latest)
          (Failed lower install start staged known new latest) result)
        (Failed lower install start staged known new latest)) := by
  cases result with
  | ok value => exact remove_replaced_ends inside other
  | error failure =>
      refine perform_ends Failed.quiet (fun _ failed => failed.cut) ?_
      intro outcome machine failed
      change Failed _ _ _ _ _ _ _ _ (if outcome.error.isSome then machine else _)
      split
      · exact failed
      · exact failed.setFile inside other apart none

/-- Moving the staged file over the executable replaces it or leaves it. -/
theorem rename_over_ends (spare : Spare install staged path) :
    (rename path install.exe).Ends (Waiting lower install start staged known path new latest)
      (ending (fun _ => Replaced lower install start staged known new latest)
        (Failed lower install start staged known new latest)) := by
  refine attempt_ends Waiting.quiet (fun _ _ waiting => waiting.failed _) ?_
  intro outcome machine waiting
  rw [waiting.here]
  exact ⟨(waiting.frame.setFile (.inl spare) none).setFile (.inr (.inl rfl)) _, files_setFile _,
    waiting.ran⟩

/-- On Windows the executable is moved aside. -/
theorem rename_aside_ends (stage : Stage install start staged) (spare : Spare install staged path)
    (windows : install.windows = true) :
    (rename install.exe (oldPath install.exe)).Ends
      (Waiting lower install start staged known path new latest)
      (ending (fun _ => Aside lower install start staged known path new latest)
        (Failed lower install start staged known new latest)) := by
  refine attempt_ends Waiting.quiet (fun _ _ waiting => waiting.failed _) ?_
  intro outcome machine waiting
  have notExe : path ≠ install.exe := fun same => stage.exe_not_spare (same ▸ spare)
  have notOld : path ≠ oldPath install.exe := fun same => stage.old_not_spare windows (same ▸ spare)
  split
  · exact waiting.failed _
  case h_2 node present =>
    refine ⟨(waiting.frame.setFile (.inr (.inl rfl)) none).setFile (.inr (.inr ⟨windows, rfl⟩)) _,
      ?_, waiting.ran, ?_, ?_⟩
    · rw [files_setFile_of_ne notOld, files_setFile_of_ne notExe, waiting.here]
    · rw [files_setFile_of_ne (Stage.old_ne install.exe).symm, files_setFile]
    · rw [files_setFile, ← present, waiting.exe]

/-- What is left of an earlier update is removed first. -/
theorem remove_old_ends (stage : Stage install start staged) (spare : Spare install staged path)
    (windows : install.windows = true) :
    (removeQuietly (oldPath install.exe)).Ends
      (Waiting lower install start staged known path new latest)
      (ending (fun _ => Waiting lower install start staged known path new latest)
        (Failed lower install start staged known new latest)) := by
  refine perform_ends Waiting.quiet (fun _ waiting => waiting.failed _) ?_
  intro outcome machine waiting
  have notOld : path ≠ oldPath install.exe := fun same => stage.old_not_spare windows (same ▸ spare)
  change Waiting _ _ _ _ _ _ _ _ (if outcome.error.isSome then machine else _)
  split
  · exact waiting
  · refine ⟨waiting.frame.setFile (.inr (.inr ⟨windows, rfl⟩)) none, ?_, waiting.ran, ?_⟩
    · rw [files_setFile_of_ne notOld, waiting.here]
    · rw [files_setFile_of_ne (Stage.old_ne install.exe).symm, waiting.exe]

/-- The staged file takes the free place, or the executable waits aside. -/
theorem rename_into_ends (spare : Spare install staged path) :
    (rename path install.exe).Ends (Aside lower install start staged known path new latest)
      (ending (fun _ => Replaced lower install start staged known new latest)
        fun _ => Aside lower install start staged known path new latest) := by
  refine attempt_ends Aside.quiet (fun _ _ aside => aside) ?_
  intro outcome machine aside
  rw [aside.here]
  exact ⟨(aside.frame.setFile (.inl spare) none).setFile (.inr (.inl rfl)) _, files_setFile _,
    aside.ran⟩

/-- The executable is moved back, if that does not fail, too. -/
theorem rename_back_ends (windows : install.windows = true) (failure : UpdateError) :
    (renameQuietly (oldPath install.exe) install.exe).Ends
      (Aside lower install start staged known path new latest)
      (ending (fun _ => Failed lower install start staged known new latest failure)
        (Failed lower install start staged known new latest)) := by
  refine perform_ends Aside.quiet (fun _ aside => aside.failed windows _) ?_
  intro outcome machine aside
  split
  case h_1 node _ moved =>
    refine ⟨((aside.frame.setFile (.inr (.inr ⟨windows, rfl⟩)) none).setFile (.inr (.inl rfl))
      _).forget, .inl ?_⟩
    rw [files_setFile, ← moved, aside.old]
  case h_2 => exact aside.failed windows _

theorem replaceExecutable_ends (stage : Stage install start staged)
    (spare : Spare install staged path) :
    (replaceExecutable install.windows path install.exe).Ends
      (Waiting lower install start staged known path new latest)
      (ending (fun _ => Replaced lower install start staged known new latest)
        (Failed lower install start staged known new latest)) := by
  unfold replaceExecutable
  refine Ends.ite (fun _ => rename_over_ends spare) fun windows => ?_
  rw [Bool.not_eq_true, Bool.not_eq_false'] at windows
  refine Ends.bind (remove_old_ends stage spare windows) fun _ => ?_
  refine Ends.bind (rename_aside_ends stage spare windows) fun _ => ?_
  refine Ends.bind (Ends.onFailure (rename_into_ends spare)
    (fun failure _ _ aside => aside.failed windows failure) (rename_back_ends windows)) fun _ => ?_
  exact remove_replaced_ends (.inr (.inr ⟨windows, rfl⟩)) (Stage.old_ne install.exe).symm

/-- What is staged has not touched the executable. -/
theorem Frame.failed {fetched : List (String × Bytes)} (stage : Stage install start staged)
    (frame : Frame lower start (Spare install staged) fetched machine) (failure : UpdateError) :
    Failed lower install start staged known new latest failure machine := by
  refine ⟨⟨?_, frame.requests, fun _ absent => absurd absent List.not_mem_nil⟩,
    .inl (frame.files _ stage.exe_not_spare)⟩
  exact fun path outside => frame.files path fun spare => outside (.inl spare)

theorem runBinary_ends (stage : Stage install start staged) :
    (runBinary path).Ends (Holds lower start (Spare install staged) known path new)
      (ending (fun result machine =>
          (result.1 = true → trimSpace result.2 = "ambb " ++ latest →
            Reports latest new machine.ran) ∧
          Holds lower start (Spare install staged) known path new machine)
        (Failed lower install start staged known new latest)) := by
  refine perform_ends Holds.quiet (fun _ holds => holds.frame.failed stage _) ?_
  intro outcome machine holds
  rw [holds.here]
  cases outcome.error with
  | some error => exact ⟨nofun, holds⟩
  | none =>
      exact ⟨fun _ right => ⟨outcome.output, List.mem_append_right _ List.mem_cons_self, right⟩,
        ⟨holds.frame.files, holds.frame.requests, holds.frame.known⟩, holds.here⟩

theorem checkAndReplace_ends (stage : Stage install start staged)
    (spare : Spare install staged path) :
    (checkAndReplace install latest path).Ends
      (Holds lower start (Spare install staged) known path new)
      (ending (fun _ => Replaced lower install start staged known new latest)
        (Failed lower install start staged known new latest)) := by
  refine Ends.bind (runBinary_ends stage) fun result => ?_
  obtain ⟨succeeded, out⟩ := result
  refine Ends.ite (fun _ => Ends.raise fun _ checked => checked.2.frame.failed stage _) fun right => ?_
  rw [Bool.or_eq_true, not_or, Bool.not_eq_true, Bool.not_eq_false', decide_eq_true_eq,
    not_not] at right
  refine (replaceExecutable_ends stage spare).mono ?_ fun _ _ ends => ends
  rintro machine ⟨reports, holds⟩
  refine ⟨⟨fun other outside => holds.frame.files other fun inside => outside (.inl inside),
    holds.frame.requests, holds.frame.known⟩, holds.here, reports right.1 right.2, ?_⟩
  exact holds.frame.files _ stage.exe_not_spare

/-- What an installation leaves, whatever became of its parts. -/
theorem installBinary_ends {binary : Bytes} {mode : Nat}
    (present : start.files install.exe ≠ none)
    (plain : install.windows = true → ¬ Staged install.exe) :
    (installBinary install latest binary mode).Ends (Frame lower start (fun _ => False) known)
      (ending
        (fun _ machine => ∃ staged, Stage install start staged ∧
          Replaced lower install start staged known
            ⟨binary, mode &&& 0o777 ||| 0o100⟩ latest machine)
        (fun failure machine =>
          Frame lower start (fun _ => False) [] machine ∨
            ∃ staged, Stage install start staged ∧ Failed lower install start staged known
              ⟨binary, mode &&& 0o777 ||| 0o100⟩ latest failure machine)) := by
  refine Ends.bind ((createTemp_ends present plain).imp (fun _ _ holds => holds)
    fun _ _ frame => .inl frame) fun staged => Ends.assuming fun stage => ?_
  refine Ends.imp (Ends.deferring ?_ (removeQuietly_ends (.inl (.inl rfl)) stage.exe_ne
      fun windows same => stage.old_not_spare windows (.inl same)))
    (fun _ _ replaced => ⟨staged, stage, replaced⟩) fun _ _ failed => .inr ⟨staged, stage, failed⟩
  refine Ends.bind ((fillStaged_ends (.inl rfl)).imp (fun _ _ holds => holds)
    fun _ _ frame => frame.failed stage _) fun _ => ?_
  refine Ends.ite (fun windows => ?_) fun _ => checkAndReplace_ends stage (.inl rfl)
  have moved : Spare install staged (exePath staged) := .inr ⟨windows, rfl⟩
  refine Ends.bind ((rename_ends (.inl rfl) moved).imp (fun _ _ holds => holds)
    fun _ _ holds => holds.frame.failed stage _) fun _ => ?_
  exact Ends.deferring (checkAndReplace_ends stage moved) (removeQuietly_ends (.inl moved)
    (fun same => stage.exe_not_spare (same ▸ moved))
    fun windows same => stage.old_not_spare windows (same ▸ moved))

end Replacing

/-! ## The update as a whole -/

/-- An update was asked for, and is one unless it is forced. -/
def Wanted (flags : CommandFlags) (current latest : String) : Prop :=
  flags.check = false ∧ (flags.force = true ∨
    (releaseVersion? ("v" ++ current)).isSome = true ∧ versionGreater latest current = true)

theorem wanted_of_decision {flags : CommandFlags} {current latest : String}
    (decided : updateDecision flags current latest = .ok none) : Wanted flags current latest := by
  unfold updateDecision at decided
  dsimp only at decided
  split at decided
  case isTrue => cases decided
  case isFalse unchecked =>
    rw [Bool.not_eq_true] at unchecked
    refine ⟨unchecked, ?_⟩
    cases forced : flags.force with
    | true => exact .inl rfl
    | false =>
        rw [forced] at decided
        simp only [Bool.not_false, Bool.and_true] at decided
        split at decided
        · cases decided
        · split at decided
          · cases decided
          · rename_i released newer
            refine .inr ⟨?_, ?_⟩
            · cases version : releaseVersion? ("v" ++ current) with
              | none =>
                  rw [version] at released
                  exact absurd rfl released
              | some _ => rfl
            · cases order : versionGreater latest current with
              | true => rfl
              | false =>
                  rw [order, Bool.not_false, Bool.and_true, Bool.not_eq_true', Bool.not_eq_false]
                    at newer
                  exact absurd newer released

/-- Nothing is reported as updated before it is. -/
theorem not_updated {flags : CommandFlags} {current latest version : String} :
    updateDecision flags current latest ≠ .ok (some (.updated version)) := by
  intro decided
  unfold updateDecision at decided
  dsimp only at decided
  split at decided
  · split at decided <;> cases decided
  · split at decided
    · cases decided
    · split at decided <;> cases decided

/-- The executable is the binary of the latest release: its archive has the checksum that the
release lists, and the binary has run and reported the version. -/
def Installed (tools : Toolchain) (install : Installation) (flags : CommandFlags)
    (files : Path → Option FileNode) (latest : String) (machine : Computer) : Prop :=
  Wanted flags install.current latest ∧
    ∃ (old new : FileNode) (body : Bytes) (release : GhRelease) (downloads : Downloads),
      files install.exe = some old ∧ machine.files install.exe = some new ∧
        new.mode = (old.mode &&& 0o777 ||| 0o100) ∧
        (latestReleaseURL, body) ∈ machine.fetched ∧
        readRelease tools body = .ok (latest, release) ∧
        (∀ entry ∈ downloads.entries, entry ∈ machine.fetched) ∧
        downloads.Verified tools release latest install.goos install.goarch new.content ∧
        Reports latest new machine.ran

/-- How an update ends that began with these files. -/
structure SelfUpdate (tools : Toolchain) (install : Installation) (flags : CommandFlags)
    (files : Path → Option FileNode) (result : Except UpdateError Report) (machine : Computer) :
    Prop where
  requests : ∀ url ∈ machine.requests, allowedDownloadHost tools.lower url = true
  others : machine.files = files ∨ ∃ staged, Staged staged ∧ staged.dir = install.exe.dir ∧
    files staged = none ∧ ∀ path, machine.files path ≠ files path → Reached install staged path
  exe : match result with
    | .ok (.updated latest) => Installed tools install flags files latest machine
    | .ok _ => machine.files = files
    | .error failure => machine.files install.exe = files install.exe ∨
        install.windows = true ∧ machine.files install.exe = none ∧
          machine.files (oldPath install.exe) = files install.exe ∨
        failure = .interrupted ∧ ∃ latest, Installed tools install flags files latest machine

section Whole

variable {tools : Toolchain} {install : Installation} {flags : CommandFlags}
  {files : Path → Option FileNode} {ahead : List Circumstances} {machine : Computer}
  {known : List (String × Bytes)} {staged : Path}

/-- A run that changed no file. -/
theorem SelfUpdate.unchanged {result : Except UpdateError Report}
    (frame : Frame tools.lower { files, ahead } (fun _ => False) known machine)
    (other : ∀ latest, result ≠ .ok (.updated latest)) :
    SelfUpdate tools install flags files result machine := by
  have same : machine.files = files := funext fun path => frame.files path not_false
  refine ⟨fun url member => ?_, .inl same, ?_⟩
  · exact (frame.requests url member).resolve_left List.not_mem_nil
  · rcases result with failure | report
    · exact .inl (congrFun same _)
    · cases report with
      | updated latest => exact absurd rfl (other latest)
      | upToDate => exact same
      | available latest => exact same

/-- The frame of an installation, read as what is changed. -/
theorem changed_of_frame (stage : Stage install { files, ahead } staged)
    (frame : Frame tools.lower { files, ahead } (Reached install staged) known machine) :
    ∃ staged, Staged staged ∧ staged.dir = install.exe.dir ∧ files staged = none ∧
      ∀ path, machine.files path ≠ files path → Reached install staged path := by
  refine ⟨staged, stage.name, stage.dir, stage.free, fun path changed => ?_⟩
  by_contra outside
  exact changed (frame.files path outside)

/-- **Self-update.** Whatever fails and wherever it is cut off, an update leaves the old executable
or the verified binary of a release that was asked for. -/
theorem self_update (tools : Toolchain) (install : Installation) (flags : CommandFlags)
    (files : Path → Option FileNode) (ahead : List Circumstances)
    (plain : install.windows = true → ¬ Staged install.exe) :
    SelfUpdate tools install flags files
      ((runUpdate tools install flags).run { files, ahead }).1
      ((runUpdate tools install flags).run { files, ahead }).2 := by
  have start : Frame tools.lower { files, ahead } (fun _ => False) [] { files, ahead } :=
    ⟨fun _ _ => rfl, fun _ absent => absurd absent List.not_mem_nil,
      fun _ absent => absurd absent List.not_mem_nil⟩
  have ends : (runUpdate tools install flags).Ends
      (Frame tools.lower { files, ahead } (fun _ => False) [])
      (ending (fun report => SelfUpdate tools install flags files (.ok report))
        fun failure => SelfUpdate tools install flags files (.error failure)) := by
    refine Ends.bind (fetchLatestRelease_ends.imp (fun _ _ read => read)
      fun _ _ frame => .unchanged frame nofun) fun result => ?_
    obtain ⟨latest, release⟩ := result
    refine Ends.exists_pre fun body => Ends.assuming fun read => ?_
    refine Ends.bind (Ends.lift fun _ _ frame => .unchanged frame nofun) fun report =>
      Ends.assuming fun decided => ?_
    cases report with
    | some report =>
        refine Ends.pure fun _ frame => .unchanged frame ?_
        rintro latest' ⟨⟩
        exact not_updated decided
    | none =>
        have wanted := wanted_of_decision decided
        refine Ends.bind (stat_ends.imp (fun _ _ known => known)
          fun _ _ frame => .unchanged frame nofun) fun info => Ends.assuming fun present => ?_
        refine Ends.bind (downloadBinary_ends.imp (fun _ _ known => known)
          fun _ _ frame => .unchanged frame nofun) fun binary => Ends.exists_pre fun downloads =>
            Ends.assuming fun verified => ?_
        have exists_exe : ({ files, ahead } : Computer).files install.exe ≠ none := by
          rw [present]
          exact nofun
        have installed : ∀ staged machine, Replaced tools.lower install { files, ahead } staged
            (downloads.entries ++ [(latestReleaseURL, body)])
            ⟨binary, info.mode &&& 0o777 ||| 0o100⟩ latest machine →
              Installed tools install flags files latest machine := by
          intro staged machine replaced
          refine ⟨wanted, info, _, body, release, downloads, present, replaced.exe, rfl, ?_, read, ?_,
            verified, replaced.ran⟩
          · exact replaced.frame.known _ (List.mem_append_right _ List.mem_cons_self)
          · exact fun entry member => replaced.frame.known _ (List.mem_append_left _ member)
        refine Ends.bind ((installBinary_ends exists_exe plain).imp (fun _ _ ends => ends) ?_)
          fun _ => Ends.pure ?_
        · rintro failure machine (frame | ⟨staged, stage, failed⟩)
          · exact .unchanged frame nofun
          · refine ⟨fun url member => ?_, .inr (changed_of_frame stage failed.frame), ?_⟩
            · exact (failed.frame.requests url member).resolve_left List.not_mem_nil
            · rcases failed.exe with kept | aside | ⟨cut, replaced⟩
              · exact .inl kept
              · exact .inr (.inl aside)
              · exact .inr (.inr ⟨cut, latest, installed staged machine replaced⟩)
        · rintro machine ⟨staged, stage, replaced⟩
          refine ⟨fun url member => ?_, .inr (changed_of_frame stage replaced.frame), ?_⟩
          · exact (replaced.frame.requests url member).resolve_left List.not_mem_nil
          · exact installed staged machine replaced
  have whole : (runUpdate tools install flags).Ends
      (Frame tools.lower { files, ahead } (fun _ => False) [])
      (SelfUpdate tools install flags files) := by
    refine ends.mono (fun _ frame => frame) fun result machine final => ?_
    cases result <;> exact final
  exact whole.run _ start

end Whole

/-- A release without assets. -/
def emptyRelease : Toolchain where
  rules := { name := fun _ => true, literal := fun _ => true }
  lower := Char.toLower
  sha256 _ := []
  decodeRelease _ := some { tagName := "v2.0.0", assets := [] }
  openZip _ := none
  readTar _ := none

def windowsInstallation : Installation where
  goos := "windows"
  goarch := "amd64"
  current := "1.0.0"
  exe := ⟨"C:\\amber", "ambb.exe"⟩

def noFiles : Path → Option FileNode := fun _ => none

theorem self_update_windows :
    SelfUpdate emptyRelease windowsInstallation {} noFiles
      ((runUpdate emptyRelease windowsInstallation {}).run { files := noFiles, ahead := [{}, {}] }).1
      ((runUpdate emptyRelease windowsInstallation {}).run
        { files := noFiles, ahead := [{}, {}] }).2 :=
  self_update emptyRelease windowsInstallation {} noFiles [{}, {}] fun _ => by
    unfold Staged
    decide

/-- The executable is moved aside, and cannot be replaced or moved back. -/
example :
    let run := (installBinary windowsInstallation "2.0.0" [1] 0o755).run
      { files := Function.update noFiles windowsInstallation.exe (some ⟨[0], 0o755⟩)
        ahead := [{}, {}, {}, {}, {}, { output := "ambb 2.0.0\n" }, {}, {},
          { error := some { message := "in use" } }, { error := some { message := "in use" } }] }
    run.2.files windowsInstallation.exe = none ∧
      run.2.files (oldPath windowsInstallation.exe) = some ⟨[0], 0o755⟩ := by
  decide

end Cli

end AmberBackup
