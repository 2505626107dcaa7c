import AmberBackup.Server.RestoreExecution

/-! # Where the restores of ordinary users go

A restore of a user without administrator rights is meant to fill the managed directory of
its download and nothing else. Whether it may be created is decided from its mode alone,
while an agent executes whatever restore names it. As long as the accepted requests that
name an agent are administrators', the restores of other users stay in their directories
(`restores_confined`); one that does not is written to the root of the agent's filesystem
(`download_onto_agent`).
-/

namespace AmberBackup

open Relational Transition Pool

/-- The agent a request names as the destination. -/
def CreateRestoreDto.agentId (dto : CreateRestoreDto) : Option Uuid :=
  dto.destination.bind RestoreDestinationDto.agentId

/-- An accepted request of a user who is no administrator names no agent. -/
def Call.agentByAdmin (server : Server) : Call → Bool
  | .createRestore user dto =>
      user.isAdmin || dto.agentId.isNone ||
        !(can server.db user .job dto.jobId .operate && modeAllowed user dto.mode)
  | _ => true

abbrev AgentsByAdmins (server : Server) (action : Action) : Prop :=
  onSteps (fun server call _ => call.agentByAdmin server) server action = true

/-- What a download is confined to. -/
def confinedFact (row : RestoreRun) : Prop := row.mode = .download ∧ row.agentId = none

/-- What the phases of an execution carry. -/
structure RestorePhase.Faithful (settings : Settings) (db : Db) (id : Uuid)
    (phase : RestorePhase) : Prop where
  loaded : ∀ run, phase.loaded = some run → KnownRestore db id fun row => row.mode = run.mode
  target : ∀ run path, phase.target = some (run, path) → serverTargetPath settings id run = .ok path

structure Confined (settings : Settings) (server : Server) : Prop where
  created : ∀ id row, server.db.restoreRuns.get? id = some row →
    ∃ byAdmin, .restoreCreated id byAdmin ∈ server.journal
  confined : ∀ id, .restoreCreated id false ∈ server.journal →
    KnownRestore server.db id confinedFact
  executing : ∀ id phase, .restore id phase ∈ server.calls → phase.Faithful settings server.db id
  claiming : ∀ call ∈ server.calls, ∀ id ∈ call.claiming,
    KnownRestore server.db id fun row => row.agentId ≠ none
  started : ∀ id path, .restoreStarted id path ∈ server.journal →
    KnownRestore server.db id fun row => row.mode = .download → path = downloadDir settings id
  claimed : ∀ id agent path, .restoreClaimed id agent path ∈ server.journal →
    KnownRestore server.db id fun row => row.agentId ≠ none

/-- What is known of the mode and the agent of a restore stays known. -/
theorem KnownRestore.later {db : Db} {id : Uuid} {fact : RestoreRun → Prop}
    (known : KnownRestore db id fact)
    (stable : ∀ before after : RestoreRun, before.SameIdentity after → fact before → fact after)
    (statement : Statement) (now : Nat) : KnownRestore (statement.execute now db) id fact := by
  obtain ⟨row, present, holds⟩ := known
  obtain ⟨after, found, same⟩ := statement.restore_kept now present
  exact ⟨after, found, stable row after same holds⟩

theorem KnownRestore.inserted {db : Db} {row : RestoreRun} {now : Nat} {fact : RestoreRun → Prop}
    (holds : fact row) :
    KnownRestore ((Statement.insertRestore row).execute now db) (freshId db.restoreRuns) fact :=
  ⟨row, Table.get?_insert_self (get?_freshId _), holds⟩

theorem stable_confinedFact (before after : RestoreRun) (same : before.SameIdentity after)
    (fact : confinedFact before) : confinedFact after :=
  ⟨same.mode.trans fact.1, same.agentId.trans fact.2⟩

theorem stable_handedRestore (before after : RestoreRun) (same : before.SameIdentity after)
    (handed : before.agentId ≠ none) : after.agentId ≠ none :=
  fun none => handed (same.agentId.symm.trans none)

theorem RestorePhase.Faithful.later {settings : Settings} {db : Db} {id : Uuid}
    {phase : RestorePhase} (faithful : phase.Faithful settings db id) (statement : Statement)
    (now : Nat) : phase.Faithful settings (statement.execute now db) id where
  loaded run equal := (faithful.loaded run equal).later
    (fun _ _ same mode => same.mode.trans mode) statement now
  target := faithful.target

theorem RestorePhase.faithful_of_none {settings : Settings} {db : Db} {id : Uuid}
    {phase : RestorePhase} (none : phase.loaded = none) : phase.Faithful settings db id where
  loaded run equal := by
    rw [none] at equal
    cases equal
  target run path equal := by
    have carried := RestorePhase.loaded_of_target equal
    rw [none] at carried
    cases carried

theorem RestorePhase.faithful_of_loaded {settings : Settings} {db : Db} {id : Uuid}
    {phase : RestorePhase} {run : RestoreRun} (loaded : phase.loaded = some run)
    (known : KnownRestore db id fun row => row.mode = run.mode) (untargeted : phase.target = none) :
    phase.Faithful settings db id where
  loaded other equal := by
    rw [loaded] at equal
    cases equal
    exact known
  target other path equal := by
    rw [untargeted] at equal
    cases equal

section Step

variable {settings : Settings} {server : Server} {index : Nat} {current : Call}
  {outcome : Outcome} {effect : Effect}

/-- The phases of restores that a step leaves behind. -/
theorem Confined.executing_after (confined : Confined settings server)
    (mine : current ∈ server.calls)
    (move : RestoreMove settings server index current effect) {id : Uuid} {phase : RestorePhase}
    (leaves : effect.Leaves (.restore id phase)) :
    phase.Faithful settings (effect.statement.execute server.now server.db) id := by
  have unstarted : (∀ call ∈ effect.spawned, call.SparesRestores) →
      Call.restore id phase ∉ effect.spawned :=
    fun spares started => nomatch (spares _ started).restoring
  cases move with
  | elsewhere was spares =>
      rcases leaves with same | started
      · have none := spares.next
        rw [← same] at none
        cases none
      · exact absurd started (unstarted spares.spawned)
  | poll agent dto before after next claiming spawned =>
      rcases leaves with same | started
      · rw [next] at same
        cases same
      · rw [spawned] at started
        cases started
  | dispatch other =>
      rcases leaves with same | started
      · cases same
      · rcases dispatchedRestore_cases server.db other with none | one
        · simp [none] at started
        · rw [one, List.mem_singleton] at started
          cases started
          exact RestorePhase.faithful_of_none rfl
  | load other run present =>
      rcases leaves with same | started
      · cases same
        exact RestorePhase.faithful_of_loaded rfl ⟨run, present, rfl⟩ rfl
      · cases started
  | register other run | openRun other run | start other run =>
      rcases leaves with same | started
      · cases same
        exact RestorePhase.faithful_of_loaded rfl
          (((confined.executing id _ mine).later _ server.now).loaded run rfl) rfl
      · cases started
  | advance other was becomes loaded target others =>
      rcases leaves with same | started
      · cases same
        refine ⟨fun run equal => ?_, target⟩
        rcases loaded with kept | none
        · exact (confined.executing id _ mine).loaded run (kept ▸ equal)
        · rw [none] at equal
          cases equal
      · exact absurd started (unstarted others)
  | record =>
      rcases leaves with same | started
      · cases same
        exact RestorePhase.faithful_of_none rfl
      · cases started
  | create | abandon | finish | cancelWrite | claim | report | figures =>
      rcases leaves with same | started
      · cases same
      · cases started

/-- The restores that polls are left to claim name an agent. -/
theorem Confined.claiming_after (confined : Confined settings server)
    (mine : current ∈ server.calls)
    (move : RestoreMove settings server index current effect) {call : Call}
    (leaves : effect.Leaves call) {id : Uuid} (listed : id ∈ call.claiming) :
    KnownRestore (effect.statement.execute server.now server.db) id
      fun row => row.agentId ≠ none := by
  have spared : (∀ other ∈ effect.spawned, other.SparesRestores) → call ∉ effect.spawned := by
    intro spares started
    rw [(spares call started).claiming] at listed
    cases listed
  have before : id ∈ current.claiming →
      KnownRestore (effect.statement.execute server.now server.db) id
        fun row => row.agentId ≠ none :=
    fun member => (confined.claiming current mine id member).later stable_handedRestore _ _
  cases move with
  | elsewhere was spares =>
      rcases leaves with same | started
      · rw [same, spares.claiming] at listed
        cases listed
      · exact absurd started (spared spares.spawned)
  | poll agent dto earlier after next claiming spawned =>
      rcases leaves with same | started
      · rw [same, next] at listed
        rcases claiming id listed with kept | ⟨row, present, handed⟩
        · exact before kept
        · refine KnownRestore.later ⟨row, present, ?_⟩ stable_handedRestore _ _
          simp [handed]
      · rw [spawned] at started
        cases started
  | claim agent dto restore rest =>
      rcases leaves with same | started
      · subst same
        refine before (List.mem_cons_of_mem restore ?_)
        unfold claimRestoreEffect at listed
        dsimp only [Call.claiming] at listed
        split at listed <;> exact listed
      · cases started
  | dispatch other =>
      rcases leaves with same | started
      · subst same
        cases listed
      · rcases dispatchedRestore_cases server.db other with none | one
        · simp [none] at started
        · rw [one, List.mem_singleton] at started
          subst started
          cases listed
  | advance other was becomes loaded target others =>
      rcases leaves with same | started
      · subst same
        cases listed
      · exact absurd started (spared others)
  | create | abandon | load | register | openRun | start | record | finish | cancelWrite
  | report | figures =>
      rcases leaves with same | started
      · subst same
        cases listed
      · cases started

/-- What an event implies about its restore. -/
def Event.ConfinedIn (settings : Settings) (db : Db) : Event → Prop
  | .restoreCreated id byAdmin => byAdmin = false → KnownRestore db id confinedFact
  | .restoreStarted id path =>
      KnownRestore db id fun row => row.mode = .download → path = downloadDir settings id
  | .restoreClaimed id _ _ => KnownRestore db id fun row => row.agentId ≠ none
  | _ => True

/-- A download on the server is written to its directory. -/
theorem serverTargetPath_download {id : Uuid} {run : RestoreRun} {path : String}
    (settled : serverTargetPath settings id run = .ok path) (download : run.mode = .download) :
    path = downloadDir settings id := by
  unfold serverTargetPath at settled
  rw [download] at settled
  cases settled
  rfl

theorem Confined.events_after (confined : Confined settings server)
    (mine : current ∈ server.calls) (permitted : current.agentByAdmin server = true)
    (move : RestoreMove settings server index current effect) {event : Event}
    (listed : event ∈ effect.events) :
    event.ConfinedIn settings (effect.statement.execute server.now server.db) := by
  have quiet : event.passive = false →
      event.ConfinedIn settings (effect.statement.execute server.now server.db) := by
    intro other
    cases event with
    | restoreCreated | restoreStarted | restoreClaimed => cases other
    | _ => trivial
  cases move with
  | elsewhere was spares => exact quiet (spares.events event listed)
  | poll agent dto before after next claiming spawned statement events =>
      exact quiet (events event listed)
  | create user dto repository accepted =>
      rw [List.mem_singleton.mp listed]
      intro ordinary
      have mode : dto.mode = .download := by
        simp only [modeAllowed, ordinary, Bool.or_false, Bool.and_eq_true, decide_eq_true_eq]
          at accepted
        exact accepted.2
      have unnamed : dto.agentId = none := by
        simp only [Call.agentByAdmin, ordinary, accepted, Bool.false_or, Bool.not_true,
          Bool.or_false, Option.isNone_iff_eq_none] at permitted
        exact permitted
      exact KnownRestore.inserted ⟨mode, unnamed⟩
  | start id run targetPath deaf =>
      rw [List.mem_singleton.mp listed]
      have faithful := confined.executing id _ mine
      obtain ⟨row, present, mode⟩ := faithful.loaded run rfl
      exact ⟨row, present, fun download =>
        serverTargetPath_download (faithful.target run targetPath rfl) (mode.symm.trans download)⟩
  | claim agent dto restore rest =>
      unfold claimRestoreEffect at listed
      dsimp only at listed
      split at listed
      · rw [List.mem_singleton.mp listed]
        exact (confined.claiming _ mine restore List.mem_cons_self).later stable_handedRestore _ _
      · cases listed
  | _ => cases listed

/-- A created restore has its event. -/
theorem Confined.created_after (confined : Confined settings server)
    (move : RestoreMove settings server index current effect) {id : Uuid} {row : RestoreRun}
    (present : (effect.statement.execute server.now server.db).restoreRuns.get? id = some row) :
    ∃ byAdmin, .restoreCreated id byAdmin ∈ server.journal ++ effect.events := by
  rcases Statement.restore_after present with ⟨inserts, fresh⟩ | ⟨old, before, -⟩
  · cases move with
    | create user dto repository =>
        exact ⟨user.isAdmin, List.mem_append_right _ (by simp [fresh])⟩
    | elsewhere was spares =>
        have statement := spares.statement
        rw [inserts] at statement
        cases statement
    | poll agent dto before after next claiming spawned statement =>
        rw [inserts] at statement
        cases statement
    | _ => cases inserts
  · obtain ⟨byAdmin, listed⟩ := confined.created id old before
    exact ⟨byAdmin, List.mem_append_left _ listed⟩

end Step

section Reachable

variable {settings : Settings} {server : Server}

theorem confined_of_reachable
    (reached : (runningServer settings).Reachable AgentsByAdmins server) :
    Confined settings server := by
  have invariant : (runningServer settings).Invariant AgentsByAdmins (Confined settings) := by
    refine ⟨fun state fresh => ?_, fun state action next confined permitted stepped => ?_⟩
    · have journal := Server.Fresh.journal fresh
      have calls := Server.Fresh.calls fresh
      refine ⟨fun id row present => ?_, by simp [journal], by simp [calls], by simp [calls],
        by simp [journal], by simp [journal]⟩
      rw [Server.Fresh.restoreRuns fresh] at present
      cases present
    · rcases Server.step_taken stepped with ⟨elapsed, -, same⟩ | ⟨entry, -, same⟩ |
        ⟨index, outcome, current, effect, resumes, present, taken, same⟩
      · subst same
        exact ⟨confined.created, confined.confined, confined.executing, confined.claiming,
          confined.started, confined.claimed⟩
      · subst same
        have spares := Entry.call_spares settings state.now entry
        refine ⟨confined.created, confined.confined, fun id phase member => ?_,
          fun call member id listed => ?_, confined.started, confined.claimed⟩
        · rcases List.mem_append.mp member with old | new
          · exact confined.executing id phase old
          · have none := spares.restoring
            rw [← List.mem_singleton.mp new] at none
            cases none
        · rcases List.mem_append.mp member with old | new
          · exact confined.claiming call old id listed
          · rw [List.mem_singleton.mp new, spares.claiming] at listed
            cases listed
      · subst resumes
        subst same
        have move : RestoreMove settings state index current effect := Call.step_restoreMove taken
        have mine := List.mem_of_getElem? present
        have events := fun event (listed : event ∈ effect.events) =>
          confined.events_after mine (onSteps_resume permitted present) move listed
        refine ⟨fun id row found => confined.created_after move found, fun id listed => ?_,
          fun id phase member => ?_, fun call member id listed => ?_, fun id path listed => ?_,
          fun id agent path listed => ?_⟩
        · rcases List.mem_append.mp listed with old | new
          · exact (confined.confined id old).later stable_confinedFact _ _
          · exact events _ new rfl
        · rcases Pool.mem_advance member with old | leaves
          · exact (confined.executing id phase old).later _ _
          · exact confined.executing_after mine move leaves
        · rcases Pool.mem_advance member with old | leaves
          · exact (confined.claiming call old id listed).later stable_handedRestore _ _
          · exact confined.claiming_after mine move leaves listed
        · rcases List.mem_append.mp listed with old | new
          · exact (confined.started id path old).later
              (fun _ _ same fact download => fact (same.mode.symm.trans download)) _ _
          · exact events _ new
        · rcases List.mem_append.mp listed with old | new
          · exact (confined.claimed id agent path old).later stable_handedRestore _ _
          · exact events _ new
  exact invariant.holds reached

/-- **Restores are confined.** As long as the accepted requests that name an agent are
administrators', every restore that an agent can claim or that is no download was created
by an administrator, and the other users' restores are executed on the server, into the
directories of their downloads. -/
theorem restores_confined (reached : (runningServer settings).Reachable AgentsByAdmins server)
    (id : Uuid) :
    (∀ row, server.db.restoreRuns.get? id = some row →
        row.agentId ≠ none ∨ row.mode ≠ .download →
        .restoreCreated id true ∈ server.journal ∧ .restoreCreated id false ∉ server.journal) ∧
      (.restoreCreated id false ∈ server.journal →
        (∀ path, .restoreStarted id path ∈ server.journal → path = downloadDir settings id) ∧
          ∀ agent path, .restoreClaimed id agent path ∉ server.journal) := by
  have confined := confined_of_reachable reached
  constructor
  · intro row present exposed
    have byAdmin : .restoreCreated id false ∉ server.journal := by
      intro listed
      obtain ⟨other, found, download, unnamed⟩ := confined.confined id listed
      rw [present] at found
      cases found
      rcases exposed with named | elsewhere
      · exact named unnamed
      · exact elsewhere download
    obtain ⟨creator, listed⟩ := confined.created id row present
    cases creator with
    | false => exact absurd listed byAdmin
    | true => exact ⟨listed, byAdmin⟩
  · intro listed
    obtain ⟨row, present, download, unnamed⟩ := confined.confined id listed
    refine ⟨fun path started => ?_, fun agent path claimed => ?_⟩
    · obtain ⟨other, found, confines⟩ := confined.started id path started
      rw [present] at found
      cases found
      exact confines download
    · obtain ⟨other, found, handed⟩ := confined.claimed id agent path claimed
      rw [present] at found
      cases found
      exact handed unnamed

end Reachable

/-- A user who is no administrator asks for a download and names an agent. -/
def namedAgent : CreateRestoreDto where
  jobId := 1
  snapshotId := "latest"
  mode := .download
  destination := some { agentId := some 7 }

/-- The agent claims it, with the root of its filesystem as the target. -/
theorem download_onto_agent : ∃ server,
    (runningServer hourSettings).Reachable (fun _ _ => True) server ∧
      .restoreCreated 0 false ∈ server.journal ∧ .restoreClaimed 0 7 "/" ∈ server.journal := by
  have ends : ((runningServer hourSettings).runWithin (fun _ _ => True) (installation nightlyJob)
      ([.begin (.createRestore operator namedAgent), .returns 0, .returns 0,
        .begin (.poll 7 none {})] ++ List.replicate 5 (.returns 1))).any
          (fun server => .restoreCreated 0 false ∈ server.journal ∧
            .restoreClaimed 0 7 "/" ∈ server.journal) = true := by decide
  obtain ⟨server, reached, both⟩ :=
    System.exists_reachable (fresh_installation hourSettings nightlyJob) ends
  exact ⟨server, reached, by simpa using both⟩

/-- The user's plain download is restored into its directory. -/
theorem operator_download_confined : ∃ server : Server,
    .restoreCreated 0 false ∈ server.journal ∧
      ∀ path, .restoreStarted 0 path ∈ server.journal → path = downloadDir hourSettings 0 := by
  have ends : ((runningServer hourSettings).runWithin AgentsByAdmins (installation nightlyJob)
      ([.begin (.createRestore operator { namedAgent with destination := none }), .returns 0,
        .returns 0] ++ List.replicate 6 (.returns 1))).any
          (fun server => .restoreCreated 0 false ∈ server.journal) = true := by decide
  obtain ⟨server, reached, listed⟩ :=
    System.exists_reachable (fresh_installation hourSettings nightlyJob) ends
  have created : .restoreCreated 0 false ∈ server.journal := by simpa using listed
  exact ⟨server, created, ((restores_confined reached 0).2 created).1⟩

end AmberBackup
