import AmberBackup.Common.UpdateMachine
import AmberBackup.Common.Versions

/-! # Self-update of the agent

When the server advertises a newer version, an agent that polls over HTTPS downloads the binary of
that version beside its own, runs it, moves it over its own and goes on as the new one. However
downloads and file operations fail, and wherever the agent is cut off and started again, what it
runs is what it ran or a version that was advertised and is greater than all before
(`agent_upgrades`): it never goes back, and no version is installed twice.
-/

namespace AmberBackup

namespace GoAgent

open Utf8 (Bytes)
open Updating
open Procedure (Ends ending)

/-- The machine an agent runs on. -/
structure AgentHost where
  baseURL : String
  goarch : String
  exe : Path
  /-- What a binary prints for `--version`. -/
  program : Bytes → String

def newPath (path : Path) : Path := { path with name := path.name ++ ".new" }

/-- `os.OpenFile` with `O_CREATE|O_TRUNC`. -/
def openTruncated (path : Path) : Update Unit :=
  attempt fun _ machine =>
    (.ok (), setFile path (some ⟨[], ((machine.files path).map FileNode.mode).getD 0o755⟩) machine)

/-- Fetches `url` into `dest` as an executable file. -/
def download (url : String) (dest : Path) : Update Unit := do
  let reply ← await
  if 300 ≤ reply.status then .raise (.status url reply.status)
  else do
    openTruncated dest
    let copyErr ← write dest reply.body
    let closeErr ← close
    throwing copyErr
    if reply.cutShort then .raise (.unreadable url)
    else throwing closeErr

namespace AgentHost

variable (host : AgentHost)

/-- Runs a binary with `--version`. -/
def reportedVersion (path : Path) : Update (Bool × String) :=
  perform fun outcome machine =>
    match outcome.error, machine.files path with
    | none, some node => (.ok (true, trimSpace (host.program node.content)), machine)
    | _, _ => (.ok (false, ""), machine)

/-- The binary must run and report exactly the advertised version. -/
def checkAndSwap (latest : String) : Update Unit := do
  let (succeeded, got) ← host.reportedVersion (newPath host.exe)
  if !succeeded || got ≠ latest then .raise (.versionCheck got latest)
  else rename (newPath host.exe) host.exe

def selfUpdate (latest : String) : Update Unit := do
  download (host.baseURL ++ "/api/agents/binary/linux-" ++ host.goarch) (newPath host.exe)
  Procedure.deferring isInterrupted (removeQuietly (newPath host.exe)) (host.checkAndSwap latest)

/-- Whether the running binary is to be replaced. -/
def updates (running latest : String) : Bool :=
  !(latest = "" || !versionGreater latest running) &&
    "https://".toList.isPrefixOf (host.baseURL.toList.map toLower)

/-- What comes of an advertised version: whether the agent goes on as the new binary. A failed update
is logged. -/
def maybeSelfUpdate (running latest : String) : Update Bool :=
  if host.updates running latest then ⟨fun machine =>
    match (host.selfUpdate latest).run machine with
    | (.ok _, final) => (.ok true, final)
    | (.error .interrupted, final) => (.error .interrupted, final)
    | (.error _, final) => (.ok false, final)⟩
  else pure false

end AgentHost

/-! ## Runs of an agent -/

structure AgentState where
  files : Path → Option FileNode
  /-- `agentVersion` of the process. -/
  running : String

/-- A poll while the agent is idle: the version that the response advertises, and what an update
meets. -/
structure Poll where
  latest : String
  ahead : List Circumstances := []
  deriving DecidableEq, Repr

/-- The version of the binary that is started. -/
def AgentHost.startedVersion (host : AgentHost) (files : Path → Option FileNode) : Option String :=
  (files host.exe).map fun node => trimSpace (host.program node.content)

/-- After an update the new binary runs. One that is cut off is started again. -/
def AgentState.poll (host : AgentHost) (state : AgentState) (poll : Poll) : AgentState :=
  match (host.maybeSelfUpdate state.running poll.latest).run
    { files := state.files, ahead := poll.ahead } with
  | (.ok false, final) => { files := final.files, running := state.running }
  | (.ok true, final) | (.error _, final) =>
      { files := final.files, running := (host.startedVersion final.files).getD state.running }

def runPolls (host : AgentHost) (state : AgentState) (polls : List Poll) : AgentState :=
  polls.foldl (AgentState.poll host) state

/-- The versions an agent goes on as, one after the other. -/
def installs (host : AgentHost) : AgentState → List Poll → List String
  | _, [] => []
  | state, poll :: rest =>
      let next := state.poll host poll
      (if next.running = state.running then [] else [next.running]) ++ installs host next rest

/-! ## What an update leaves -/

/-- Only the downloaded file has changed. -/
def Kept (host : AgentHost) (files : Path → Option FileNode) (machine : Computer) : Prop :=
  ∀ path, path ≠ newPath host.exe → machine.files path = files path

/-- The executable is a binary of the advertised version. -/
structure Swapped (host : AgentHost) (files : Path → Option FileNode) (latest : String)
    (machine : Computer) : Prop where
  others : ∀ path, path ≠ newPath host.exe → path ≠ host.exe → machine.files path = files path
  exe : host.startedVersion machine.files = some latest

/-- How a failed update leaves the files. -/
def LeftAfter (host : AgentHost) (files : Path → Option FileNode) (latest : String)
    (failure : UpdateError) (machine : Computer) : Prop :=
  Kept host files machine ∨ failure = .interrupted ∧ Swapped host files latest machine

theorem newPath_ne (path : Path) : newPath path ≠ path := by
  intro same
  have names := congrArg (fun path : Path => path.name.toList.length) same
  unfold newPath at names
  dsimp only at names
  rw [String.toList_append, List.length_append] at names
  exact absurd names (by simp)

section Updates

variable {host : AgentHost} {files : Path → Option FileNode} {latest : String} {machine : Computer}
  {throws : UpdateError → Computer → Prop} {node : FileNode}

theorem Kept.quiet (machine : Computer) (ahead : List Circumstances) (kept : Kept host files machine) :
    Kept host files { machine with ahead } := kept

theorem Kept.setFile (kept : Kept host files machine) (value : Option FileNode) :
    Kept host files (setFile (newPath host.exe) value machine) :=
  fun path other => (files_setFile_of_ne other value).trans (kept path other)

theorem throwing_kept (failed : Option SystemError) :
    (throwing failed).Ends (Kept host files)
      (ending (fun _ => Kept host files) fun _ => Kept host files) := by
  cases failed with
  | none => exact Ends.pure fun _ kept => kept
  | some error => exact Ends.raise fun _ kept => kept

/-- A download touches its own file only. -/
theorem download_ends (url : String) :
    (download url (newPath host.exe)).Ends (Kept host files)
      (ending (fun _ => Kept host files) fun _ => Kept host files) := by
  have responds : await.Ends (Kept host files)
      (ending (fun _ => Kept host files) fun _ => Kept host files) :=
    attempt_ends Kept.quiet (fun _ _ kept => kept) fun _ _ kept => kept
  have opens : (openTruncated (newPath host.exe)).Ends (Kept host files)
      (ending (fun _ => Kept host files) fun _ => Kept host files) :=
    attempt_ends Kept.quiet (fun _ _ kept => kept) fun _ _ kept => kept.setFile _
  have writes : ∀ content, (write (newPath host.exe) content).Ends (Kept host files)
      (ending (fun _ => Kept host files) fun _ => Kept host files) := by
    intro content
    refine perform_ends Kept.quiet (fun _ kept => kept) ?_
    intro outcome machine kept
    cases outcome.error with
    | none => exact kept.setFile _
    | some error => exact kept.setFile _
  have closes : close.Ends (Kept host files)
      (ending (fun _ => Kept host files) fun _ => Kept host files) :=
    perform_ends Kept.quiet (fun _ kept => kept) fun _ _ kept => kept
  refine Ends.bind responds fun reply => ?_
  refine Ends.ite (fun _ => Ends.raise fun _ kept => kept) fun _ => ?_
  refine Ends.bind opens fun _ => Ends.bind (writes reply.body) fun copyErr =>
    Ends.bind closes fun closeErr => ?_
  refine Ends.bind (throwing_kept copyErr) fun _ => ?_
  exact Ends.ite (fun _ => Ends.raise fun _ kept => kept) fun _ => throwing_kept closeErr

/-- A binary that reported a version is where it was downloaded to. -/
theorem reportedVersion_ends :
    (host.reportedVersion (newPath host.exe)).Ends (Kept host files)
      (ending (fun result machine => Kept host files machine ∧ (result.1 = true →
          ∃ node, machine.files (newPath host.exe) = some node ∧
            trimSpace (host.program node.content) = result.2))
        fun _ => Kept host files) := by
  refine perform_ends Kept.quiet (fun _ kept => kept) ?_
  intro outcome machine kept
  split
  case h_1 node _ present => exact ⟨kept, fun _ => ⟨node, present, rfl⟩⟩
  case h_2 => exact ⟨kept, nofun⟩

/-- The move is the moment at which the new version is the one that is started. -/
theorem swap_ends :
    (rename (newPath host.exe) host.exe).Ends
      (fun machine => Kept host files machine ∧ ∃ node,
        machine.files (newPath host.exe) = some node ∧
          trimSpace (host.program node.content) = latest)
      (ending (fun _ => Swapped host files latest) fun _ => Kept host files) := by
  refine attempt_ends (fun _ _ ready => ready) (fun _ _ ready => ready.1) ?_
  rintro outcome machine ⟨kept, node, present, reported⟩
  rw [present]
  refine ⟨fun path other apart => ?_, ?_⟩
  · rw [files_setFile_of_ne apart, files_setFile_of_ne other]
    exact kept path other
  · unfold AgentHost.startedVersion
    rw [files_setFile, Option.map_some, reported]

theorem checkAndSwap_ends :
    (host.checkAndSwap latest).Ends (Kept host files)
      (ending (fun _ => Swapped host files latest) fun _ => Kept host files) := by
  refine Ends.bind reportedVersion_ends fun result => ?_
  obtain ⟨succeeded, got⟩ := result
  refine Ends.ite (fun _ => Ends.raise fun _ checked => checked.1) fun right => ?_
  rw [Bool.or_eq_true, not_or, Bool.not_eq_true, Bool.not_eq_false', decide_eq_true_eq,
    not_not] at right
  obtain ⟨ran, rfl⟩ := right
  exact swap_ends.mono (fun _ checked => ⟨checked.1, checked.2 ran⟩) fun _ _ ends => ends

theorem Swapped.setFile (swapped : Swapped host files latest machine) (value : Option FileNode) :
    Swapped host files latest (setFile (newPath host.exe) value machine) := by
  refine ⟨fun path other apart => ?_, ?_⟩
  · rw [files_setFile_of_ne other, swapped.others path other apart]
  · unfold AgentHost.startedVersion
    rw [files_setFile_of_ne (newPath_ne host.exe).symm]
    exact swapped.exe

/-- The cleanup keeps how an update ended. -/
theorem remove_new_ends (result : Except UpdateError Unit) :
    (removeQuietly (newPath host.exe)).Ends
      (ending (fun _ => Swapped host files latest) (LeftAfter host files latest) result)
      (ending
        (fun _ => ending (fun _ => Swapped host files latest) (LeftAfter host files latest) result)
        (LeftAfter host files latest)) := by
  cases result with
  | ok value =>
      refine perform_ends (fun _ _ swapped => ⟨swapped.others, swapped.exe⟩)
        (fun _ swapped => .inr ⟨rfl, swapped⟩) ?_
      intro outcome machine swapped
      change Swapped host files latest (if outcome.error.isSome then machine else _)
      split
      · exact swapped
      · exact swapped.setFile none
  | error failure =>
      refine perform_ends (fun _ _ left => left.imp_right fun swapped =>
        ⟨swapped.1, swapped.2.others, swapped.2.exe⟩)
        (fun _ left => left.imp_right fun swapped => ⟨rfl, swapped.2⟩) ?_
      intro outcome machine left
      change LeftAfter host files latest failure (if outcome.error.isSome then machine else _)
      split
      · exact left
      · rcases left with kept | ⟨cut, swapped⟩
        · exact .inl (kept.setFile none)
        · exact .inr ⟨cut, swapped.setFile none⟩

theorem selfUpdate_ends :
    (host.selfUpdate latest).Ends (Kept host files)
      (ending (fun _ => Swapped host files latest) (LeftAfter host files latest)) := by
  refine Ends.bind ((download_ends _).imp (fun _ _ kept => kept) fun _ _ kept => .inl kept)
    fun _ => ?_
  exact Ends.deferring (checkAndSwap_ends.imp (fun _ _ swapped => swapped)
    fun _ _ kept => .inl kept) remove_new_ends

end Updates

/-! ## Every run of an agent -/

/-- What one poll does: the version stays, or is the greater one that is advertised. -/
structure Polled (host : AgentHost) (latest : String) (state next : AgentState) : Prop where
  started : host.startedVersion next.files = some next.running
  others : ∀ path, path ≠ newPath host.exe → path ≠ host.exe → next.files path = state.files path
  version : next.running = state.running ∧ next.files host.exe = state.files host.exe ∨
    next.running = latest ∧ versionGreater latest state.running = true

section Runs

variable {host : AgentHost} {state : AgentState} {poll : Poll}

theorem poll_idle (idle : host.updates state.running poll.latest = false) :
    state.poll host poll = state := by
  unfold AgentState.poll AgentHost.maybeSelfUpdate
  rw [idle]
  rfl

theorem polled_kept {machine : Computer} {latest : String}
    (started : host.startedVersion state.files = some state.running)
    (kept : Kept host state.files machine) {running : String}
    (same : running = state.running ∨
      running = (host.startedVersion machine.files).getD state.running) :
    Polled host latest state { files := machine.files, running } := by
  have exe : machine.files host.exe = state.files host.exe :=
    kept host.exe (newPath_ne host.exe).symm
  have starts : host.startedVersion machine.files = some state.running := by
    unfold AgentHost.startedVersion
    rw [exe]
    exact started
  have runs : running = state.running := by
    rcases same with same | same
    · exact same
    · rw [same, starts]
      rfl
  subst runs
  exact ⟨starts, fun path other _ => kept path other, .inl ⟨rfl, exe⟩⟩

theorem polled_swapped {machine : Computer} {latest : String}
    (newer : versionGreater latest state.running = true)
    (swapped : Swapped host state.files latest machine) :
    Polled host latest state
      { files := machine.files
        running := (host.startedVersion machine.files).getD state.running } := by
  rw [swapped.exe]
  exact ⟨swapped.exe, swapped.others, .inr ⟨rfl, newer⟩⟩

/-- One poll. -/
theorem polled (started : host.startedVersion state.files = some state.running) :
    Polled host poll.latest state (state.poll host poll) := by
  cases wanted : host.updates state.running poll.latest with
  | false =>
      rw [poll_idle wanted]
      exact ⟨started, fun _ _ _ => rfl, .inl ⟨rfl, rfl⟩⟩
  | true =>
      have newer : versionGreater poll.latest state.running = true := by
        unfold AgentHost.updates at wanted
        simp only [Bool.and_eq_true, Bool.not_eq_true', Bool.or_eq_false_iff] at wanted
        simpa using wanted.1.2
      have ends := (selfUpdate_ends :
        (host.selfUpdate poll.latest).Ends (Kept host state.files) _).run
          { files := state.files, ahead := poll.ahead } fun _ _ => rfl
      unfold AgentState.poll AgentHost.maybeSelfUpdate
      rw [wanted, if_pos rfl]
      dsimp only
      generalize (host.selfUpdate poll.latest).run { files := state.files, ahead := poll.ahead } =
        ended at ends ⊢
      obtain ⟨result, machine⟩ := ended
      cases result with
      | ok value => exact polled_swapped newer ends
      | error failure =>
          rcases ends with kept | ⟨rfl, swapped⟩
          · cases failure with
            | interrupted => exact polled_kept started kept (.inr rfl)
            | _ => exact polled_kept started kept (.inl rfl)
          · exact polled_swapped newer swapped

end Runs

/-- What a run of an agent comes to: the versions it went on as, and its files. -/
structure Upgrades (host : AgentHost) (state : AgentState) (polls : List Poll) : Prop where
  increasing : (installs host state polls).Pairwise fun earlier later =>
    versionGreater later earlier = true
  newer : ∀ version ∈ installs host state polls, versionGreater version state.running = true
  advertised : ∀ version ∈ installs host state polls, version ∈ polls.map Poll.latest
  running : (runPolls host state polls).running = (installs host state polls).getLastD state.running
  started : host.startedVersion (runPolls host state polls).files =
    some (runPolls host state polls).running
  others : ∀ path, path ≠ newPath host.exe → path ≠ host.exe →
    (runPolls host state polls).files path = state.files path
  kept : installs host state polls = [] →
    (runPolls host state polls).files host.exe = state.files host.exe
  plain : "https://".toList.isPrefixOf (host.baseURL.toList.map toLower) = false →
    runPolls host state polls = state

section Upgrades

variable {host : AgentHost} {state : AgentState} {poll : Poll} {rest : List Poll}

theorem Upgrades.cons (polled : Polled host poll.latest state (state.poll host poll))
    (later : Upgrades host (state.poll host poll) rest) : Upgrades host state (poll :: rest) := by
  have idle : "https://".toList.isPrefixOf (host.baseURL.toList.map toLower) = false →
      runPolls host state (poll :: rest) = state := by
    intro plain
    have same : state.poll host poll = state := poll_idle (by
      unfold AgentHost.updates
      rw [plain, Bool.and_false])
    exact (later.plain plain).trans same
  have others : ∀ path, path ≠ newPath host.exe → path ≠ host.exe →
      (runPolls host state (poll :: rest)).files path = state.files path :=
    fun path other apart => (later.others path other apart).trans (polled.others path other apart)
  by_cases same : (state.poll host poll).running = state.running
  · have list : installs host state (poll :: rest) = installs host (state.poll host poll) rest := by
      rw [installs, if_pos same, List.nil_append]
    have exe : (state.poll host poll).files host.exe = state.files host.exe := by
      rcases polled.version with kept | ⟨named, newer⟩
      · exact kept.2
      · rw [← named, same, versionGreater_irrefl] at newer
        cases newer
    refine ⟨?_, ?_, ?_, ?_, later.started, others, ?_, idle⟩
    · rw [list]
      exact later.increasing
    · rw [list, ← same]
      exact later.newer
    · rw [list]
      exact fun version member => List.mem_cons_of_mem _ (later.advertised version member)
    · rw [list, ← same]
      exact later.running
    · rw [list]
      exact fun none => (later.kept none).trans exe
  · have list : installs host state (poll :: rest) =
        (state.poll host poll).running :: installs host (state.poll host poll) rest := by
      rw [installs, if_neg same, List.singleton_append]
    obtain ⟨named, newer⟩ := polled.version.resolve_left fun kept => same kept.1
    rw [← named] at newer
    refine ⟨?_, ?_, ?_, ?_, later.started, others, ?_, idle⟩
    · rw [list]
      exact List.pairwise_cons.mpr ⟨later.newer, later.increasing⟩
    · rw [list]
      intro version member
      rcases List.mem_cons.mp member with rfl | after
      · exact newer
      · exact versionGreater_trans (later.newer version after) newer
    · rw [list]
      intro version member
      rcases List.mem_cons.mp member with rfl | after
      · exact named ▸ List.mem_cons_self
      · exact List.mem_cons_of_mem _ (later.advertised version after)
    · rw [list, List.getLastD_cons]
      exact later.running
    · rw [list]
      exact nofun

/-- **Agent upgrades.** In every run, each version that an agent goes on as was advertised and is
greater than all it ran before; what is started is what runs, and no other file is changed. Over
plain HTTP nothing is. -/
theorem agent_upgrades (host : AgentHost) (state : AgentState) (polls : List Poll)
    (started : host.startedVersion state.files = some state.running) :
    Upgrades host state polls := by
  induction polls generalizing state with
  | nil =>
      exact ⟨.nil, nofun, nofun, rfl, started, fun _ _ _ => rfl, fun _ => rfl, fun _ => rfl⟩
  | cons poll rest ih =>
      have first : Polled host poll.latest state (state.poll host poll) := polled started
      exact Upgrades.cons first (ih (state.poll host poll) first.started)

end Upgrades

def someAgent : AgentHost where
  baseURL := "https://amber.example"
  goarch := "amd64"
  exe := ⟨"/opt/amber-agent", "amber-agent"⟩
  program content := if content = [2] then "0.2.0\n" else "0.1.0\n"

def firstBinary : AgentState where
  files := fun path => if path = someAgent.exe then some ⟨[1], 0o755⟩ else none
  running := "0.1.0"

/-- An update, an update that is cut off after the move, and an older version. -/
def somePolls : List Poll :=
  [⟨"0.1.0", []⟩,
    ⟨"0.2.0", [{ reply := { body := [2] } }, {}, {}, {}, {}, {}]⟩,
    ⟨"0.1.0", [{ reply := { body := [1] } }, {}, {}, {}, {}, {}, {}]⟩]

theorem agent_upgrades_someAgent : Upgrades someAgent firstBinary somePolls :=
  agent_upgrades someAgent firstBinary somePolls (by decide)

example : installs someAgent firstBinary somePolls = ["0.2.0"] := by decide

end GoAgent

end AmberBackup
