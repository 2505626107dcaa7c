import AmberBackup.Jobs.FailedEdits
import AmberBackup.Jobs.StoredCredentials

/-! # What an edit plans for the override

An accepted edit keeps the override, clears it, merges its fields into it, or replaces it
(`planned`), depending on whether it starts over, what it enters, and whether there is an
override. The fields it enters are overridable on the connection it leaves the repository with.
-/

namespace AmberBackup

open Relational Procedure

/-- The fields of a form that have a value, as texts. -/
def nonEmptyFields (values : Config) : Fields :=
  values.filterMap fun entry =>
    if entry.2 = .null ∨ entry.2 = .text "" then none else some (entry.1, entry.2.toText)

namespace UpdateJobDto

def enteredFields (dto : UpdateJobDto) : Fields := nonEmptyFields (dto.repoCredentials.join.getD [])

/-- The edit moves the repository to another connection, or takes its override away. -/
def startsOver (dto : UpdateJobDto) (repository : Repository) : Bool :=
  dto.movesConnection repository || dto.repoCredentials = some none

end UpdateJobDto

/-- The backend of a connection; without one it is the local filesystem. -/
def Db.backendOf (db : Db) : Option Uuid → Option String
  | none => some "local"
  | some id => (db.targets.get? id).map Target.backendType

/-- The field may be overridden on the connection. -/
def Db.Overridable (db : Db) (targetId : Option Uuid) (name : String) : Prop :=
  ∃ backendType names, db.backendOf targetId = some backendType ∧
    overridableFields backendType = .ok names ∧ name ∈ names

/-- What an edit may plan. -/
inductive Planned (platform : Platform) (db : Db) (dto : UpdateJobDto) (repository : Repository) :
    OverridePlan → Prop where
  | keep (blank : dto.enteredFields = [])
      (none_there : dto.startsOver repository = true → repository.credentialSecretId = none) :
      Planned platform db dto repository .keep
  | drop (blank : dto.enteredFields = []) (afresh : dto.startsOver repository = true) :
      Planned platform db dto repository .drop
  | merge (secret : Uuid) (current : Fields) (stays : dto.startsOver repository = false)
      (stored : repository.credentialSecretId = some secret)
      (revealed : revealCredentials platform db (some secret) = .ok current)
      (allowed : ∀ entry ∈ dto.enteredFields, db.Overridable repository.targetId entry.1) :
      Planned platform db dto repository (.merge secret (current ++ dto.enteredFields))
  | replace (entered : dto.enteredFields ≠ [])
      (none_there : dto.startsOver repository = false → repository.credentialSecretId = none)
      (allowed : ∀ entry ∈ dto.enteredFields,
        db.Overridable (dto.targetId.getD repository.targetId) entry.1) :
      Planned platform db dto repository (.replace dto.enteredFields)

section Checks

variable {user : RequestUser} {world : World} {target : Option Uuid} {type : String}

/-- A connection whose backend is resolved is there. -/
theorem resolveBackendType_returns
    (resolved : ((resolveBackendType user target).run world).1 = .ok type) :
    world.db.backendOf target = some type := by
  cases target with
  | none =>
      obtain rfl := Except.ok.inj resolved
      rfl
  | some id =>
      obtain ⟨_, -, found⟩ :=
        bind_returns_quiet (assertAcl_within user .target id .operate) (Prod.ext resolved rfl)
      have found := congrArg Prod.fst found
      rw [run_lift] at found
      dsimp only at found
      split at found
      case h_1 => cases found
      case h_2 row present =>
        obtain rfl := Except.ok.inj found
        exact congrArg (Option.map Target.backendType) present

theorem overrideEntries_returns {allowed : List String} {values : Config} {fields : Fields}
    (entered : overrideEntries type allowed values = .ok fields) :
    fields = nonEmptyFields values ∧ ∀ entry ∈ fields, entry.1 ∈ allowed := by
  induction values generalizing fields with
  | nil =>
      obtain rfl := Except.ok.inj entered
      exact ⟨rfl, fun _ listed => absurd listed List.not_mem_nil⟩
  | cons first rest ih =>
      obtain ⟨name, value⟩ := first
      unfold overrideEntries at entered
      split at entered
      case isTrue => cases entered
      case isFalse listed =>
        obtain ⟨others, earlier, same⟩ := of_bind_eq_ok entered
        obtain ⟨rfl, known⟩ := ih earlier
        obtain rfl := Except.ok.inj same
        have member : name ∈ allowed := by simpa using listed
        by_cases blank : value = .null ∨ value = .text ""
        · have dropped : nonEmptyFields ((name, value) :: rest) = nonEmptyFields rest :=
            List.filterMap_cons_none (if_pos blank)
          simp only [dropped, Bool.or_eq_true, decide_eq_true_eq, if_pos blank, List.nil_append]
          exact ⟨trivial, known⟩
        · have kept : nonEmptyFields ((name, value) :: rest) =
              (name, value.toText) :: nonEmptyFields rest :=
            List.filterMap_cons_some (if_neg blank)
          simp only [kept, Bool.or_eq_true, decide_eq_true_eq, if_neg blank,
            List.singleton_append]
          refine ⟨trivial, ?_⟩
          intro entry listed
          rcases List.mem_cons.mp listed with rfl | later
          · exact member
          · exact known entry later

/-- An accepted override has the fields that are not empty, all of them overridable. -/
theorem buildCredentialOverride_returns {values : Config} {fields : Fields}
    (backend : world.db.backendOf target = some type)
    (entered : buildCredentialOverride type values = .ok fields) :
    fields = nonEmptyFields values ∧ ∀ entry ∈ fields, world.db.Overridable target entry.1 := by
  obtain ⟨names, listed, entries⟩ := of_bind_eq_ok entered
  obtain ⟨same, known⟩ := overrideEntries_returns entries
  exact ⟨same, fun entry member => ⟨type, names, backend, listed, known entry member⟩⟩

end Checks

section Plans

variable {editing : Editing} {user : RequestUser} {world next : World} {id : Uuid}
  {dto : UpdateJobDto} {repository : Repository} {plan : OverridePlan}

theorem UpdateJobDto.targetId_of_stays (stays : dto.movesConnection repository = false) :
    dto.targetId.getD repository.targetId = repository.targetId := by
  unfold UpdateJobDto.movesConnection at stays
  cases named : dto.targetId with
  | none => rfl
  | some target =>
      rw [named] at stays
      simpa using stays

/-- The plan that clears an override there is, and keeps none. -/
theorem planned_dropped (blank : dto.enteredFields = [])
    (named : dto.repoCredentials ≠ some none) :
    Planned editing.platform world.db dto repository
      (if dto.movesConnection repository && repository.credentialSecretId.isSome then
        OverridePlan.drop
      else .keep) := by
  have afresh : dto.startsOver repository = dto.movesConnection repository := by
    rw [UpdateJobDto.startsOver, decide_eq_false named, Bool.or_false]
  split
  case isTrue both =>
    exact .drop blank (afresh.trans (Bool.and_eq_true_iff.mp both).1)
  case isFalse neither =>
    refine .keep blank fun starts => ?_
    rw [afresh.symm.trans starts, Bool.true_and] at neither
    simpa using neither

/-- What an accepted edit plans. -/
theorem planned
    (returned : ((planOverride editing user (fun _ => none) dto repository).run world).1 =
      .ok plan) : Planned editing.platform world.db dto repository plan := by
  unfold planOverride at returned
  cases named : dto.repoCredentials with
  | none =>
      rw [named] at returned
      obtain rfl := Except.ok.inj returned
      refine planned_dropped ?_ ?_
      · rw [UpdateJobDto.enteredFields, named]
        rfl
      · rw [named]
        exact (Option.some_ne_none _).symm
  | some values =>
      cases values with
      | none =>
          rw [named] at returned
          obtain rfl := Except.ok.inj returned
          refine .drop ?_ ?_
          · rw [UpdateJobDto.enteredFields, named]
            rfl
          · rw [UpdateJobDto.startsOver, decide_eq_true named, Bool.or_true]
      | some values =>
          rw [named] at returned
          have given : dto.repoCredentials ≠ some none := by
            rw [named]
            intro same
            cases Option.some.inj same
          have entered : nonEmptyFields values = dto.enteredFields := by
            rw [UpdateJobDto.enteredFields, named]
            rfl
          dsimp only at returned
          rw [resolveBackendTypeUnder_none] at returned
          obtain ⟨type, resolved, after⟩ :=
            bind_returns_quiet (resolveBackendType_within user _) (Prod.ext returned rfl)
          obtain ⟨overrides, built, after⟩ := bind_returns_quiet (Within.lift _) after
          obtain ⟨rfl, allowed⟩ :=
            buildCredentialOverride_returns (resolveBackendType_returns resolved) built
          rw [entered] at allowed after
          split at after
          case h_1 secret stored stays =>
            obtain ⟨_, -, after⟩ := bind_returns_quiet (failing_within _ _) after
            obtain ⟨current, revealed, same⟩ := bind_returns_quiet (Within.lift _) after
            obtain rfl := Except.ok.inj (Prod.mk.inj same).1
            rw [UpdateJobDto.targetId_of_stays stays] at allowed
            refine .merge secret current ?_ stored revealed allowed
            rw [UpdateJobDto.startsOver, stays, decide_eq_false given, Bool.false_or]
          case h_2 neither =>
            obtain rfl := Except.ok.inj (Prod.mk.inj after).1
            by_cases blank : dto.enteredFields = []
            · rw [if_neg (not_not_intro blank)]
              exact planned_dropped blank given
            · rw [if_pos blank]
              refine .replace blank ?_ allowed
              intro stays
              rw [UpdateJobDto.startsOver, Bool.or_eq_false_iff] at stays
              cases stored : repository.credentialSecretId with
              | none => rfl
              | some secret => exact absurd stays.1 (neither secret stored)

theorem perform_none (world : World) :
    (plan.perform editing (fun _ => none) repository).run world =
      (.ok (plan.edit repository world), plan.written editing world) := by
  cases plan <;> rfl

/-- What an edit that returns has planned and written. -/
structure Replanned (editing : Editing) (id : Uuid) (dto : UpdateJobDto) (world next : World)
    (row : BackupJob) (repository : Repository) (place : Option (Option Uuid × Config))
    (plan : OverridePlan) : Prop where
  found : joined (world.db.backupJobs.get? id) (fun row =>
    world.db.repositories.get? row.repositoryId) = some (row, repository)
  target : (place.map Prod.fst).getD repository.targetId = dto.targetId.getD repository.targetId
  planned : Planned editing.platform (renewed editing dto repository world).db dto repository plan
  removed : (Secrets.removeOptional
      (plan.edit repository (renewed editing dto repository world)).orphaned).run
    (rewritten id dto row place (plan.edit repository (renewed editing dto repository world))
      (plan.written editing (renewed editing dto repository world))) = (.ok (), next)

theorem updatePassword_renewed (world : World) :
    ((updatePassword editing repository.repoPasswordSecretId dto.repoPassword).run world).2 =
      renewed editing dto repository world := by
  unfold renewed
  cases dto.repoPassword <;> rfl

theorem updateJob_planned
    (returned : (updateJob editing user id dto).run world = (.ok (), next)) :
    ∃ row repository place plan,
      Replanned editing id dto world next row repository place plan := by
  obtain ⟨row, repository, place, edit, middle, edited⟩ := updateJob_returns returned
  have overridden := edited.overridden
  rw [updatePassword_renewed, editOverride_eq] at overridden
  obtain ⟨plan, plans, performed⟩ :=
    bind_returns_quiet (planOverride_within dto repository) overridden
  rw [perform_none] at performed
  obtain ⟨same, rfl⟩ := Prod.mk.inj performed
  obtain rfl := Except.ok.inj same
  exact ⟨row, repository, place, plan, edited.found, movedPlace_target edited.placed,
    planned plans, edited.removed⟩

end Plans

end AmberBackup
