import AmberBackup.Jobs.EditCases
import AmberBackup.Lib.Sequences

/-! # Where a job runs

The creation of a job checks its location, its agent and its connection together. An edit
writes each of the columns it names, and the removal of an agent takes it from its jobs. In
sequences in which every edit leaves an agent exactly with a job on an agent, and no agent is
removed that a job names, the columns stay consistent; every other edit and removal breaks
them (`placement_stays_consistent`).
-/

namespace AmberBackup

open Relational Transition

/-- `AgentsService.remove`: the jobs, the runs and the restores of the agent lose it. -/
def removeAgent (id : Uuid) : Service Unit :=
  .write fun world =>
    { world with
      db := { world.db with
        agents := world.db.agents.delete fun other _ => other = id
        backupJobs := world.db.backupJobs.update (fun _ job => job.agentId = some id) fun job =>
          { job with agentId := none }
        jobRuns := world.db.jobRuns.update (fun _ run => run.agentId = some id) fun run =>
          { run with agentId := none }
        restoreRuns := world.db.restoreRuns.update (fun _ run => run.agentId = some id) fun run =>
          { run with agentId := none } } }

inductive PlacementAction where
  | createJob (user : RequestUser) (dto : CreateJobDto)
  | updateJob (user : RequestUser) (job : Uuid) (dto : UpdateJobDto)
  | removeAgent (agent : Uuid)

def PlacementAction.call (editing : Editing) : PlacementAction → Service Unit
  | .createJob user dto => do
      let _ ← AmberBackup.createJob editing user dto
  | .updateJob user job dto => AmberBackup.updateJob editing user job dto
  | .removeAgent agent => AmberBackup.removeAgent agent

/-- Every job has a repository, and no other job has it. -/
structure Db.OwnRepositories (db : Db) : Prop where
  present : ∀ id job, db.backupJobs.get? id = some job →
    (db.repositories.get? job.repositoryId).isSome
  distinct : ∀ id other job second, db.backupJobs.get? id = some job →
    db.backupJobs.get? other = some second → job.repositoryId = second.repositoryId → id = other

/-- A job runs on an agent exactly if it names one, the agent is there, and a job on an agent
has a connection. -/
structure Db.Placed (db : Db) : Prop where
  location : ∀ id job, db.backupJobs.get? id = some job →
    (job.location = .agent ↔ job.agentId.isSome)
  agent : ∀ id job agent, db.backupJobs.get? id = some job → job.agentId = some agent →
    (db.agents.get? agent).isSome
  connection : ∀ id job repository, db.backupJobs.get? id = some job → job.location = .agent →
    db.repositories.get? job.repositoryId = some repository → repository.targetId.isSome

def placing (editing : Editing) : System World PlacementAction :=
  Procedure.sequences (fun world => world.db.OwnRepositories ∧ world.db.Placed)
    (PlacementAction.call editing)

/-- An edit that moves the job to an agent names one, or the job has one; an edit that leaves
the location gives an agent to a job on an agent and takes it from a job on the server. -/
def JobPatch.keepsPlacement (patch : JobPatch) (job : BackupJob) : Bool :=
  match patch.location, patch.agentId with
  | some .«local», _ | none, none => true
  | some .agent, some agent => agent.isSome
  | some .agent, none => job.agentId.isSome
  | none, some agent => agent.isSome = (job.location = .agent)

/-- The edit keeps the columns together, and the agent that is removed has no job. -/
def keepsPlacement (world : World) : PlacementAction → Bool
  | .createJob .. => true
  | .updateJob _ job dto => (world.db.backupJobs.get? job).all dto.job.keepsPlacement
  | .removeAgent agent => !world.db.backupJobs.anyWhere fun _ job => job.agentId = some agent

abbrev KeepsPlacement (world : World) (action : PlacementAction) : Prop :=
  keepsPlacement world action = true

/-! ## A call -/

section Call

variable {editing : Editing} {user : RequestUser} {world next : World}

theorem JobPatch.keepsPlacement_iff (patch : JobPatch) (now : Nat) {job : BackupJob}
    (before : job.location = .agent ↔ job.agentId.isSome) :
    patch.keepsPlacement job = true ↔
      ((patch.apply now job).location = .agent ↔ (patch.apply now job).agentId.isSome) := by
  unfold keepsPlacement apply
  dsimp only
  rcases patch.location with _ | _ | _ <;> rcases patch.agentId with _ | _ | _ <;> simp_all

/-- The agent after an edit is the one it names, or the one there was. -/
theorem agentColumn_cases {patch : JobPatch} {now : Nat} {job : BackupJob} {agent : Uuid}
    (names : (patch.apply now job).agentId = some agent) :
    patch.agentColumn = some (some agent) ∨ job.agentId = some agent := by
  unfold JobPatch.apply at names
  unfold JobPatch.agentColumn
  dsimp only at names
  split at names
  case isTrue => cases names
  case isFalse moved =>
    rw [if_neg moved]
    cases named : patch.agentId with
    | none =>
        rw [named] at names
        exact .inr names
    | some column =>
        rw [named] at names
        exact .inl (congrArg some names)

/-- No job has the repository a creation inserts. -/
theorem Db.OwnRepositories.unused (owned : world.db.OwnRepositories) :
    ∀ id row, world.db.backupJobs.get? id = some row →
      row.repositoryId ≠ freshId world.db.repositories := by
  intro id row found same
  have present := owned.present id row found
  rw [same, get?_freshId] at present
  cases present

/-- A new job has a new repository. -/
theorem createJob_owned {dto : CreateJobDto} {job : Uuid} (owned : world.db.OwnRepositories)
    (returned : (createJob editing user dto).run world = (.ok job, next)) :
    next.db.OwnRepositories := by
  obtain ⟨backendType, config, overrides, credential, middle, created⟩ :=
    createJob_returns returned
  obtain ⟨secrets, restores, rfl, -⟩ := created.before
  obtain rfl := (Prod.mk.inj created.inserted).2
  have freshJob : world.db.backupJobs.get? (freshId world.db.backupJobs) = none := get?_freshId _
  refine ⟨?_, ?_⟩
  · intro id row found
    rcases Table.insert_cases freshJob found with ⟨-, rfl⟩ | ⟨-, before⟩
    · exact Option.isSome_iff_exists.mpr ⟨_, Table.get?_insert_self (get?_freshId _)⟩
    · obtain ⟨repository, present⟩ := Option.isSome_iff_exists.mp (owned.present id row before)
      exact Option.isSome_iff_exists.mpr ⟨_, Table.get?_insert_of_some present _⟩
  · intro id other row second found present same
    rcases Table.insert_cases freshJob found with ⟨rfl, rfl⟩ | ⟨-, before⟩ <;>
      rcases Table.insert_cases freshJob present with ⟨rfl, rfl⟩ | ⟨-, earlier⟩
    · rfl
    · exact absurd same.symm (owned.unused other second earlier)
    · exact absurd same (owned.unused id row before)
    · exact owned.distinct id other row second before earlier same

/-- A creation leaves the columns consistent. -/
theorem createJob_placed {dto : CreateJobDto} {job : Uuid} (owned : world.db.OwnRepositories)
    (placed : world.db.Placed)
    (returned : (createJob editing user dto).run world = (.ok job, next)) : next.db.Placed := by
  obtain ⟨backendType, config, overrides, credential, middle, created⟩ :=
    createJob_returns returned
  obtain ⟨secrets, restores, rfl, -⟩ := created.before
  obtain rfl := (Prod.mk.inj created.inserted).2
  have freshJob : world.db.backupJobs.get? (freshId world.db.backupJobs) = none := get?_freshId _
  have freshRepository : world.db.repositories.get? (freshId world.db.repositories) = none :=
    get?_freshId _
  refine ⟨?_, ?_, ?_⟩
  · intro id row found
    rcases Table.insert_cases freshJob found with ⟨-, rfl⟩ | ⟨-, before⟩
    · by_cases onAgent : dto.location = .agent
      · obtain ⟨agent, named, -⟩ := created.agent onAgent
        simp [onAgent, named]
      · simp [onAgent]
    · exact placed.location id row before
  · intro id row agent found names
    rcases Table.insert_cases freshJob found with ⟨-, rfl⟩ | ⟨-, before⟩
    · dsimp only at names
      split at names
      case isTrue onAgent =>
        obtain ⟨other, named, present⟩ := created.agent onAgent
        rw [named] at names
        exact Option.some.inj names ▸ present
      case isFalse => cases names
    · exact placed.agent id row agent before names
  · intro id row repository found onAgent present
    rcases Table.insert_cases freshJob found with ⟨-, rfl⟩ | ⟨-, before⟩
    · have same : _ = some repository := present
      rw [Table.get?_insert_self freshRepository] at same
      obtain rfl := Option.some.inj same
      have allowed := created.allowed
      rw [repoAllowed, show dto.location = .agent from onAgent] at allowed
      simpa [Option.isSome_iff_ne_none] using allowed
    · rcases Table.insert_cases freshRepository present with ⟨same, -⟩ | ⟨-, earlier⟩
      · exact absurd same (owned.unused id row before)
      · exact placed.connection id row repository before onAgent earlier

/-- Jobs keep their repositories as long as none is moved to another one. -/
theorem Db.OwnRepositories.of_kept {db after : Db} (owned : db.OwnRepositories)
    (jobs : ∀ id job, after.backupJobs.get? id = some job →
      ∃ old, db.backupJobs.get? id = some old ∧ job.repositoryId = old.repositoryId)
    (repositories : ∀ id, (db.repositories.get? id).isSome →
      (after.repositories.get? id).isSome) : after.OwnRepositories where
  present := by
    intro id job found
    obtain ⟨old, before, same⟩ := jobs id job found
    rw [same]
    exact repositories _ (owned.present id old before)
  distinct := by
    intro id other job second found present same
    obtain ⟨old, before, first⟩ := jobs id job found
    obtain ⟨earlier, there, last⟩ := jobs other second present
    rw [first, last] at same
    exact owned.distinct id other old earlier before there same

/-- An edit leaves every job its repository. -/
theorem updateJob_owned {job : Uuid} {dto : UpdateJobDto} (owned : world.db.OwnRepositories)
    (returned : (updateJob editing user job dto).run world = (.ok (), next)) :
    next.db.OwnRepositories := by
  obtain ⟨row, repository, place, edit, middle, edited⟩ := updateJob_returns returned
  obtain ⟨secrets, restores, rfl, -⟩ := edited.before
  obtain ⟨others, changed, rfl, -⟩ := edited.after
  refine owned.of_kept ?_ ?_
  · intro id after found
    rcases Table.update_cases found with ⟨rfl, old, before, rfl⟩ | ⟨-, before⟩
    · exact ⟨old, before, rfl⟩
    · exact ⟨after, before, rfl⟩
  · intro id present
    change ((world.db.repositories.update _ _).get? id).isSome
    rw [Table.get?_update, Option.isSome_map]
    exact present

/-- An edit leaves the columns consistent exactly if it keeps them together. -/
theorem updateJob_placed {job : Uuid} {dto : UpdateJobDto} (owned : world.db.OwnRepositories)
    (placed : world.db.Placed)
    (returned : (updateJob editing user job dto).run world = (.ok (), next)) :
    next.db.Placed ↔ KeepsPlacement world (.updateJob user job dto) := by
  obtain ⟨row, repository, place, edit, middle, edited⟩ := updateJob_returns returned
  obtain ⟨secrets, restores, rfl, -⟩ := edited.before
  obtain ⟨others, changed, rfl, -⟩ := edited.after
  obtain ⟨stored, kept⟩ := of_joined edited.found
  have written : (world.db.backupJobs.update (fun id _ => id = job)
      (dto.job.apply world.now)).get? job = some (dto.job.apply world.now row) := by
    rw [Table.get?_update_self, stored]
    rfl
  have located := dto.job.keepsPlacement_iff world.now (placed.location job row stored)
  simp only [KeepsPlacement, keepsPlacement, stored, Option.all_some]
  constructor
  · intro after
    exact located.mpr (after.location job _ written)
  · intro keeps
    refine ⟨?_, ?_, ?_⟩
    · intro id after found
      rcases Table.update_cases found with ⟨rfl, old, before, rfl⟩ | ⟨-, before⟩
      · rw [stored] at before
        obtain rfl := Option.some.inj before
        exact located.mp keeps
      · exact placed.location id after before
    · intro id after agent found names
      rcases Table.update_cases found with ⟨rfl, old, before, rfl⟩ | ⟨-, before⟩
      · rw [stored] at before
        obtain rfl := Option.some.inj before
        rcases agentColumn_cases names with written | same
        · exact edited.agent agent written
        · exact placed.agent id row agent stored same
      · exact placed.agent id after agent before names
    · intro id after owner found onAgent present
      rcases Table.update_cases found with ⟨rfl, old, before, rfl⟩ | ⟨other, before⟩
      · rw [stored] at before
        obtain rfl := Option.some.inj before
        rcases Table.update_cases present with ⟨-, was, here, rfl⟩ | ⟨elsewhere, -⟩
        · rw [kept] at here
          obtain rfl := Option.some.inj here
          rw [RepoPatch.apply_targetId]
          dsimp only
          rw [movedPlace_target edited.placed]
          have allowed := edited.allowed
          rw [repoAllowed, show dto.job.location.getD row.location = .agent from onAgent]
            at allowed
          simpa [Option.isSome_iff_ne_none] using allowed
        · exact absurd rfl elsewhere
      · rcases Table.update_cases present with ⟨same, -⟩ | ⟨-, here⟩
        · exact absurd (owned.distinct id job after row before stored same) other
        · exact placed.connection id after owner before onAgent here

/-- The removal of an agent leaves the columns consistent exactly if no job names it. -/
theorem removeAgent_placed {agent : Uuid} (owned : world.db.OwnRepositories)
    (placed : world.db.Placed) (returned : (removeAgent agent).run world = (.ok (), next)) :
    next.db.OwnRepositories ∧ (next.db.Placed ↔ KeepsPlacement world (.removeAgent agent)) := by
  obtain rfl := (Prod.mk.inj returned).2
  simp only [KeepsPlacement, keepsPlacement, Bool.not_eq_true', Table.anyWhere_eq_false,
    decide_eq_false_iff_not]
  refine ⟨owned.of_kept ?_ fun _ present => present, ?_, ?_⟩
  · intro id after found
    rw [Table.get?_update] at found
    obtain ⟨old, before, rfl⟩ := Option.map_eq_some_iff.mp found
    refine ⟨old, before, ?_⟩
    split <;> rfl
  · intro after id job found names
    have taken : (world.db.backupJobs.update (fun _ job => job.agentId = some agent)
        fun job => { job with agentId := none }).get? id = some { job with agentId := none } := by
      rw [Table.get?_update, found]
      simp [names]
    have onAgent : job.location = .agent :=
      (placed.location id job found).mpr (by rw [names]; rfl)
    exact absurd ((after.location id _ taken).mp onAgent) Bool.false_ne_true
  · intro unused
    have same : world.db.backupJobs.update (fun _ job => job.agentId = some agent)
        (fun job => { job with agentId := none }) = world.db.backupJobs := by
      refine Table.update_eq_self_iff.mpr ?_
      intro id job found names
      exact absurd (of_decide_eq_true names) (unused id job found)
    refine ⟨?_, ?_, ?_⟩
    · intro id job found
      exact placed.location id job (same ▸ found)
    · intro id job other found names
      have before : world.db.backupJobs.get? id = some job := same ▸ found
      have different : other ≠ agent := by
        rintro rfl
        exact unused id job before names
      change ((world.db.agents.delete fun key _ => key = agent).get? other).isSome
      rw [Table.get?_delete_of_ne different]
      exact placed.agent id job other before names
    · intro id job repository found onAgent present
      exact placed.connection id job repository (same ▸ found) onAgent present

theorem call_placed {action : PlacementAction} (owned : world.db.OwnRepositories)
    (placed : world.db.Placed) (returned : (action.call editing).run world = (.ok (), next)) :
    next.db.OwnRepositories ∧ (next.db.Placed ↔ KeepsPlacement world action) := by
  cases action with
  | createJob user dto =>
      obtain ⟨job, after, created, same⟩ := Procedure.bind_returns.mp returned
      obtain rfl := (Prod.mk.inj same).2
      exact ⟨createJob_owned owned created, iff_of_true (createJob_placed owned placed created) rfl⟩
  | updateJob user job dto =>
      exact ⟨updateJob_owned owned returned, updateJob_placed owned placed returned⟩
  | removeAgent agent => exact removeAgent_placed owned placed returned

end Call

/-- **Placement stays consistent.** In every sequence of successful creations and edits of jobs
and removals of agents, from a consistent database in which every job has a repository of its
own, in which each edit keeps the location and the agent together and no agent is removed that
a job names, the database stays consistent; and a successful call that does neither leaves it
inconsistent. -/
theorem placement_stays_consistent {editing : Editing} {start : World}
    (owned : start.db.OwnRepositories) (placed : start.db.Placed) :
    (∀ world, (placing editing).Steps KeepsPlacement start world → world.db.Placed) ∧
      ∀ world action next, (placing editing).Steps KeepsPlacement start world →
        (action.call editing).run world = (.ok (), next) →
          (next.db.Placed ↔ KeepsPlacement world action) := by
  have kept : ∀ world, (placing editing).Steps KeepsPlacement start world →
      world.db.OwnRepositories ∧ world.db.Placed := by
    intro world steps
    refine steps.stable (fun world => world.db.OwnRepositories ∧ world.db.Placed)
      (.initial ⟨owned, placed⟩) ?_ ⟨owned, placed⟩
    rintro world action next - ⟨owned, placed⟩ keeps moved
    obtain ⟨owns, stays⟩ := call_placed owned placed (Procedure.step_eq_some.mp moved)
    exact ⟨owns, stays.mpr keeps⟩
  refine ⟨fun world steps => (kept world steps).2, ?_⟩
  intro world action next steps returned
  obtain ⟨owns, stands⟩ := kept world steps
  exact (call_placed owns stands returned).2

/-- The row of a job on the server. -/
def serverJob : BackupJob where
  name := "nightly"
  location := .«local»
  repositoryId := 0

/-- A job on the server, whose repository has a connection, and an agent. -/
def connectedJob : World where
  now := 0
  db := {
    secrets := .ofList [(0, ⟨.repoPassword, "old", aadFor 0⟩)]
    targets := .ofList [(7, {
      backendType := "rclone", config := [("remote", .text "box")], credentialSecretId := none })]
    agents := .ofList [(3, { name := "host" })]
    repositories := .ofList [(0, {
      name := "nightly", targetId := some 7, repoConfig := [], repoPasswordSecretId := 0 })]
    backupJobs := .ofList [(0, serverJob)] }

theorem connectedJob_only {id : Uuid} {job : BackupJob}
    (found : connectedJob.db.backupJobs.get? id = some job) : id = 0 ∧ job = serverJob := by
  have checked : ∀ entry ∈ connectedJob.db.backupJobs.rows, entry = (0, serverJob) := by decide
  exact Prod.mk.inj (checked (id, job) (Table.mem_rows.mpr found))

theorem connectedJob_owns : connectedJob.db.OwnRepositories where
  present := by
    intro id job found
    obtain ⟨-, rfl⟩ := connectedJob_only found
    decide
  distinct := by
    intro id other job second found present _
    rw [(connectedJob_only found).1, (connectedJob_only present).1]

theorem connectedJob_placed : connectedJob.db.Placed where
  location := by
    intro id job found
    obtain ⟨-, rfl⟩ := connectedJob_only found
    decide
  agent := by
    intro id job agent found names
    obtain ⟨-, rfl⟩ := connectedJob_only found
    cases names
  connection := by
    intro id job repository found onAgent
    obtain ⟨-, rfl⟩ := connectedJob_only found
    cases onAgent

/-- An edit moves the job to an agent without naming one. -/
theorem agent_job_without_agent :
    ¬ ∀ (editing : Editing) (start world : World), start.db.OwnRepositories → start.db.Placed →
      (placing editing).Steps (fun _ _ => True) start world → world.db.Placed := by
  intro claim
  have ends : ((placing vault).runWithin (fun _ _ => True) connectedJob
      [.updateJob admin 0 { job := { location := some .agent } }]).any (fun world =>
        (world.db.backupJobs.get? 0).any fun job =>
          job.location = .agent && job.agentId.isNone) = true := by
    decide +kernel
  obtain ⟨world, ran, found⟩ := (Option.any_eq_true _ _).mp ends
  obtain ⟨job, present, both⟩ := (Option.any_eq_true _ _).mp found
  simp only [Bool.and_eq_true, decide_eq_true_eq, Option.isNone_iff_eq_none] at both
  have placed := claim vault connectedJob world connectedJob_owns connectedJob_placed
    (System.steps_of_runWithin ran)
  have named := (placed.location 0 job present).mp both.1
  rw [both.2] at named
  cases named

/-- The job moves to the agent and back, and then the agent is removed. -/
theorem moved_job_stays_placed :
    ∃ world, (placing vault).Steps KeepsPlacement connectedJob world ∧
      world.db.agents.get? 3 = none ∧ world.db.Placed := by
  have ends : ((placing vault).runWithin KeepsPlacement connectedJob
      [.updateJob admin 0 { job := { location := some .agent, agentId := some (some 3) } },
        .updateJob admin 0 { job := { location := some .«local» } },
        .removeAgent 3]).any (fun world => (world.db.agents.get? 3).isNone) = true := by
    decide +kernel
  obtain ⟨world, ran, gone⟩ := (Option.any_eq_true _ _).mp ends
  have steps := System.steps_of_runWithin ran
  exact ⟨world, steps, Option.isNone_iff_eq_none.mp gone,
    (placement_stays_consistent connectedJob_owns connectedJob_placed).1 world steps⟩

end AmberBackup
