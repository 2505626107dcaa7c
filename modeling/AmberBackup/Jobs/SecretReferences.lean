import AmberBackup.Jobs.OverridePlans

/-! # References to secrets

Every reference names a stored secret (`Db.Resolves`): the foreign keys see to it, and the
calls keep it, since a secret is created before the row that refers to it and removed only when
nothing does. A credential secret nothing refers to is `Db.Orphaned`.
-/

namespace AmberBackup

open Relational Procedure

/-- The foreign keys to the secrets. -/
structure Db.Resolves (db : Db) : Prop where
  password : ∀ key row, db.repositories.get? key = some row →
    (db.secrets.get? row.repoPasswordSecretId).isSome
  override : ∀ key row id, db.repositories.get? key = some row →
    row.credentialSecretId = some id → (db.secrets.get? id).isSome
  connection : ∀ key target id, db.targets.get? key = some target →
    target.credentialSecretId = some id → (db.secrets.get? id).isSome
  channel : ∀ key channel id, db.notificationChannels.get? key = some channel →
    channel.secretId = some id → (db.secrets.get? id).isSome
  restorePassword : ∀ key run, db.restoreRuns.get? key = some run →
    (db.secrets.get? run.repoPasswordSecretId).isSome
  restoreOverride : ∀ key run id, db.restoreRuns.get? key = some run →
    run.credentialSecretId = some id → (db.secrets.get? id).isSome

/-- A credential secret of no repository and of no connection. -/
structure Db.Orphaned (db : Db) (id : Uuid) : Prop where
  credential : ∃ secret, db.secrets.get? id = some secret ∧ secret.type = .backendCredential
  repositories : ∀ key row, db.repositories.get? key = some row → row.credentialSecretId ≠ some id
  targets : ∀ key target, db.targets.get? key = some target →
    target.credentialSecretId ≠ some id

/-- The secrets of the repositories are kept apart: a password is no override, and an override
belongs to one repository. -/
structure Db.SeparateSecrets (db : Db) : Prop where
  password : ∀ key row secret, db.repositories.get? key = some row →
    db.secrets.get? row.repoPasswordSecretId = some secret → secret.type = .repoPassword
  override : ∀ key row id secret, db.repositories.get? key = some row →
    row.credentialSecretId = some id → db.secrets.get? id = some secret →
      secret.type = .backendCredential
  distinct : ∀ key other row second id, db.repositories.get? key = some row →
    db.repositories.get? other = some second → row.credentialSecretId = some id →
      second.credentialSecretId = some id → key = other

namespace Db.Resolves

variable {db : Db}

/-- More secrets, for the same references. -/
theorem grow (resolves : db.Resolves) {secrets : Table Uuid Secret}
    (kept : ∀ id, (db.secrets.get? id).isSome → (secrets.get? id).isSome) :
    ({ db with secrets } : Db).Resolves where
  password key row found := kept _ (resolves.password key row found)
  override key row id found names := kept _ (resolves.override key row id found names)
  connection key target id found names := kept _ (resolves.connection key target id found names)
  channel key channel id found names := kept _ (resolves.channel key channel id found names)
  restorePassword key run found := kept _ (resolves.restorePassword key run found)
  restoreOverride key run id found names :=
    kept _ (resolves.restoreOverride key run id found names)

/-- Other repositories, whose secrets are there. -/
theorem rewrite (resolves : db.Resolves) {repositories : Table Uuid Repository}
    {backupJobs : Table Uuid BackupJob}
    (password : ∀ key row, repositories.get? key = some row →
      (db.secrets.get? row.repoPasswordSecretId).isSome)
    (override : ∀ key row id, repositories.get? key = some row →
      row.credentialSecretId = some id → (db.secrets.get? id).isSome) :
    ({ db with repositories, backupJobs } : Db).Resolves where
  password := password
  override := override
  connection := resolves.connection
  channel := resolves.channel
  restorePassword := resolves.restorePassword
  restoreOverride := resolves.restoreOverride

/-- A secret that nothing refers to is deleted, and restores lose it. -/
theorem delete (resolves : db.Resolves) {secret : Uuid}
    (free : Secrets.referenced db secret = false) :
    ({ db with
        secrets := db.secrets.delete fun other _ => other = secret
        restoreRuns := db.restoreRuns.update (fun _ run => run.credentialSecretId = some secret)
          fun run => { run with credentialSecretId := none } } : Db).Resolves := by
  simp only [Secrets.referenced, Bool.or_eq_false_iff, Table.anyWhere_eq_false,
    decide_eq_false_iff_not] at free
  obtain ⟨⟨⟨repositories, targets⟩, channels⟩, restores⟩ := free
  have kept : ∀ id, id ≠ secret → (db.secrets.get? id).isSome →
      ((db.secrets.delete fun other _ => other = secret).get? id).isSome := by
    intro id different present
    rw [Table.get?_delete_of_ne different]
    exact present
  have restore : ∀ key run, (db.restoreRuns.update
      (fun _ run => run.credentialSecretId = some secret)
        fun run => { run with credentialSecretId := none }).get? key = some run →
      ∃ old, db.restoreRuns.get? key = some old ∧
        run.repoPasswordSecretId = old.repoPasswordSecretId ∧
          ∀ id, run.credentialSecretId = some id → old.credentialSecretId = some id ∧
            id ≠ secret := by
    intro key run found
    rw [Table.get?_update] at found
    obtain ⟨old, before, rfl⟩ := Option.map_eq_some_iff.mp found
    refine ⟨old, before, ?_, ?_⟩
    · split <;> rfl
    · intro id names
      split at names
      case isTrue => cases names
      case isFalse other =>
        refine ⟨names, ?_⟩
        rintro rfl
        exact other (decide_eq_true names)
  refine ⟨?_, ?_, ?_, ?_, ?_, ?_⟩
  · intro key row found
    exact kept _ (repositories key row found).1 (resolves.password key row found)
  · intro key row id found names
    refine kept id ?_ (resolves.override key row id found names)
    rintro rfl
    exact (repositories key row found).2 names
  · intro key target id found names
    refine kept id ?_ (resolves.connection key target id found names)
    rintro rfl
    exact targets key target found names
  · intro key channel id found names
    refine kept id ?_ (resolves.channel key channel id found names)
    rintro rfl
    exact channels key channel found names
  · intro key run found
    obtain ⟨old, before, same, -⟩ := restore key run found
    rw [same]
    exact kept _ (restores key old before) (resolves.restorePassword key old before)
  · intro key run id found names
    obtain ⟨old, before, -, named⟩ := restore key run found
    obtain ⟨names, different⟩ := named id names
    exact kept id different (resolves.restoreOverride key old id before names)

end Db.Resolves

section Writes

variable {editing : Editing} {world next : World} {dto : UpdateJobDto} {repository : Repository}
  {plan : OverridePlan} {id : Uuid}

theorem updated_type (secret : Uuid) (text : String) :
    ((((Secrets.update editing secret text).run world).2.db.secrets.get? id).map Secret.type) =
      (world.db.secrets.get? id).map Secret.type := by
  change (((world.db.secrets.update _ _).get? id).map Secret.type) = _
  rw [Table.get?_update, Option.map_map]
  congr 1
  funext row
  dsimp only [Function.comp_apply]
  split <;> rfl

theorem updated_of_ne {secret : Uuid} (different : id ≠ secret) (text : String) :
    ((Secrets.update editing secret text).run world).2.db.secrets.get? id =
      world.db.secrets.get? id :=
  Table.get?_update_of_ne different _

theorem renewed_type : ((renewed editing dto repository world).db.secrets.get? id).map Secret.type =
    (world.db.secrets.get? id).map Secret.type := by
  unfold renewed
  cases dto.repoPassword with
  | none => rfl
  | some password => exact updated_type _ _

theorem renewed_of_ne (different : id ≠ repository.repoPasswordSecretId) :
    (renewed editing dto repository world).db.secrets.get? id = world.db.secrets.get? id := by
  unfold renewed
  cases dto.repoPassword with
  | none => rfl
  | some password => exact updated_of_ne different _

/-- A plan writes to the override there is, or to a new one. -/
theorem written_of_ne {platform : Platform} {db : Db}
    (planned : Planned platform db dto repository plan)
    (other : repository.credentialSecretId ≠ some id)
    (present : (world.db.secrets.get? id).isSome) :
    (plan.written editing world).db.secrets.get? id = world.db.secrets.get? id := by
  cases planned with
  | keep | drop => rfl
  | merge secret current stays stored =>
      refine updated_of_ne ?_ _
      rintro rfl
      exact other stored
  | replace =>
      obtain ⟨row, found⟩ := Option.isSome_iff_exists.mp present
      rw [found]
      exact Table.get?_insert_of_some found _

/-- A secret after a plan was there, with its type, or is the new override. -/
theorem written_cases {row : Secret}
    (found : (plan.written editing world).db.secrets.get? id = some row) :
    (world.db.secrets.get? id).map Secret.type = some row.type ∨
      world.db.secrets.get? id = none ∧ row.type = .backendCredential ∧
        (plan.edit repository world).column = some (some id) := by
  cases plan with
  | keep | drop => exact .inl (congrArg (Option.map Secret.type) found)
  | merge secret fields =>
      refine .inl ?_
      rw [← updated_type secret (editing.renderCredentials fields)]
      exact congrArg (Option.map Secret.type) found
  | replace fields =>
      rcases Table.insert_cases (get?_freshId _) found with ⟨rfl, rfl⟩ | ⟨-, before⟩
      · exact .inr ⟨get?_freshId _, rfl, rfl⟩
      · exact .inl (congrArg (Option.map Secret.type) before)

theorem written_present (present : (world.db.secrets.get? id).isSome) :
    ((plan.written editing world).db.secrets.get? id).isSome := by
  cases plan with
  | keep | drop => exact present
  | merge secret fields =>
      rw [← Option.isSome_map (f := Secret.type)] at present ⊢
      exact (updated_type secret _).symm ▸ present
  | replace =>
      obtain ⟨row, found⟩ := Option.isSome_iff_exists.mp present
      exact Option.isSome_iff_exists.mpr ⟨row, Table.get?_insert_of_some found _⟩

/-- A secret that is removed is gone, and nothing refers to it. -/
theorem removeOptional_returns {orphaned : Option Uuid}
    (returned : (Secrets.removeOptional orphaned).run world = (.ok (), next)) :
    ∃ secrets restoreRuns, next = { world with db := { world.db with secrets, restoreRuns } } ∧
      (∀ id, secrets.get? id = if orphaned = some id then none else world.db.secrets.get? id) ∧
        (world.db.Resolves → next.db.Resolves) := by
  cases orphaned with
  | none =>
      obtain rfl := (Prod.mk.inj returned).2
      exact ⟨_, _, rfl, fun _ => rfl, id⟩
  | some secret =>
      rcases Secrets.remove_cases world secret with ⟨-, failure, refused⟩ | ⟨free, removed⟩
      · rw [Secrets.removeOptional, refused] at returned
        cases returned
      · rw [Secrets.removeOptional, removed] at returned
        obtain rfl := (Prod.mk.inj returned).2
        refine ⟨_, _, rfl, ?_, fun resolves => resolves.delete free⟩
        intro id
        by_cases same : secret = id
        · subst same
          rw [Table.get?_delete_self, if_pos rfl]
        · rw [Table.get?_delete_of_ne (Ne.symm same),
            if_neg fun equal => same (Option.some.inj equal)]

end Writes

/-! ## The secrets of one repository -/

/-- The secrets of one repository are changed: the password in place, the override to another
secret or in place. A repository that is new has new secrets. -/
structure OwnSecretsChanged (db after : Db) (own : Uuid) (old : Option Uuid)
    (changed : Repository) : Prop where
  repositories : ∀ key, after.repositories.get? key =
    if key = own then some changed else db.repositories.get? key
  targets : after.targets = db.targets
  before : (∃ row, db.repositories.get? own = some row ∧
      row.repoPasswordSecretId = changed.repoPasswordSecretId ∧ row.credentialSecretId = old) ∨
    db.repositories.get? own = none ∧ db.secrets.get? changed.repoPasswordSecretId = none ∧
      old = none
  kept : ∀ id, (db.secrets.get? id).isSome → id ≠ changed.repoPasswordSecretId → old ≠ some id →
    after.secrets.get? id = db.secrets.get? id
  origin : ∀ id secret, after.secrets.get? id = some secret →
    (db.secrets.get? id).map Secret.type = some secret.type ∨
      db.secrets.get? id = none ∧
        (secret.type = .backendCredential ∧ changed.credentialSecretId = some id ∨
          secret.type = .repoPassword ∧ id = changed.repoPasswordSecretId)
  gone : ∀ id, old = some id → changed.credentialSecretId ≠ some id → after.secrets.get? id = none
  fresh : ∀ id, changed.credentialSecretId = some id → old = some id ∨ db.secrets.get? id = none
  apart : changed.credentialSecretId ≠ some changed.repoPasswordSecretId

namespace OwnSecretsChanged

variable {db after : Db} {own : Uuid} {old : Option Uuid} {changed : Repository}

theorem origin_of_present (moved : OwnSecretsChanged db after own old changed) {id : Uuid}
    {secret : Secret} (present : (db.secrets.get? id).isSome)
    (found : after.secrets.get? id = some secret) :
    ∃ before, db.secrets.get? id = some before ∧ before.type = secret.type := by
  rcases moved.origin id secret found with same | ⟨missing, -⟩
  · exact Option.map_eq_some_iff.mp same
  · rw [missing] at present
    cases present

/-- The override of another repository is as it was. -/
theorem other_override (moved : OwnSecretsChanged db after own old changed)
    (resolves : db.Resolves) (separate : db.SeparateSecrets) {key id : Uuid} {row : Repository}
    (other : key ≠ own) (found : db.repositories.get? key = some row)
    (names : row.credentialSecretId = some id) :
    after.secrets.get? id = db.secrets.get? id := by
  have present := resolves.override key row id found names
  obtain ⟨secret, stored⟩ := Option.isSome_iff_exists.mp present
  have type := separate.override key row id secret found names stored
  rcases moved.before with ⟨here, owned, password, credential⟩ | ⟨-, missing, unset⟩
  · refine moved.kept id present ?_ ?_
    · rintro rfl
      rw [← password] at stored
      have clash := separate.password own here secret owned stored
      rw [type] at clash
      cases clash
    · intro same
      exact other (separate.distinct key own row here id found owned names
        (credential.trans same))
  · refine moved.kept id present ?_ ?_
    · rintro rfl
      rw [missing] at present
      cases present
    · rw [unset]
      exact (Option.some_ne_none id).symm

theorem separate (moved : OwnSecretsChanged db after own old changed)
    (resolves : db.Resolves) (separate : db.SeparateSecrets) : after.SeparateSecrets where
  password := by
    intro key row secret found stored
    rw [moved.repositories] at found
    split at found
    case isTrue same =>
      obtain rfl := Option.some.inj found
      rcases moved.before with ⟨here, owned, password, -⟩ | ⟨-, missing, -⟩
      · have present := resolves.password own here owned
        rw [password] at present
        obtain ⟨before, was, type⟩ := moved.origin_of_present present stored
        rw [← type]
        exact separate.password own here before owned (password ▸ was)
      · rcases moved.origin _ secret stored with kept | ⟨-, ⟨-, clash⟩ | ⟨type, -⟩⟩
        · rw [missing] at kept
          cases kept
        · exact absurd clash moved.apart
        · exact type
    case isFalse =>
      obtain ⟨before, was, type⟩ :=
        moved.origin_of_present (resolves.password key row found) stored
      rw [← type]
      exact separate.password key row before found was
  override := by
    intro key row id secret found names stored
    rw [moved.repositories] at found
    split at found
    case isTrue same =>
      obtain rfl := Option.some.inj found
      rcases moved.origin id secret stored with kept | ⟨-, ⟨type, -⟩ | ⟨-, clash⟩⟩
      · obtain ⟨before, was, type⟩ := Option.map_eq_some_iff.mp kept
        rw [← type]
        rcases moved.fresh id names with held | missing
        · rcases moved.before with ⟨here, owned, -, credential⟩ | ⟨-, -, unset⟩
          · exact separate.override own here id before owned (credential.trans held) was
          · rw [unset] at held
            cases held
        · rw [missing] at was
          cases was
      · exact type
      · rw [clash] at names
        exact absurd names moved.apart
    case isFalse =>
      obtain ⟨before, was, type⟩ :=
        moved.origin_of_present (resolves.override key row id found names) stored
      rw [← type]
      exact separate.override key row id before found names was
  distinct := by
    have alone : ∀ key row id, key ≠ own → db.repositories.get? key = some row →
        row.credentialSecretId = some id → changed.credentialSecretId ≠ some id := by
      intro key row id other found names same
      rcases moved.fresh id same with held | missing
      · rcases moved.before with ⟨here, owned, -, credential⟩ | ⟨-, -, unset⟩
        · exact other (separate.distinct key own row here id found owned names
            (credential.trans held))
        · rw [unset] at held
          cases held
      · have present := resolves.override key row id found names
        rw [missing] at present
        cases present
    intro key other row second id found present names same
    rw [moved.repositories] at found present
    by_cases first : key = own <;> by_cases last : other = own
    · exact first.trans last.symm
    · rw [if_pos first] at found
      rw [if_neg last] at present
      obtain rfl := Option.some.inj found
      exact absurd names (alone other second id last present same)
    · rw [if_neg first] at found
      rw [if_pos last] at present
      obtain rfl := Option.some.inj present
      exact absurd same (alone key row id first found names)
    · rw [if_neg first] at found
      rw [if_neg last] at present
      exact separate.distinct key other row second id found present names same

/-- No credential secret is left behind. -/
theorem orphaned (moved : OwnSecretsChanged db after own old changed) {id : Uuid}
    (orphan : after.Orphaned id) : db.Orphaned id := by
  obtain ⟨⟨secret, stored, type⟩, unnamed, free⟩ := orphan
  have own_free := unnamed own changed ((moved.repositories own).trans (if_pos rfl))
  refine ⟨?_, ?_, ?_⟩
  · rcases moved.origin id secret stored with kept | ⟨-, ⟨-, names⟩ | ⟨clash, -⟩⟩
    · obtain ⟨before, was, same⟩ := Option.map_eq_some_iff.mp kept
      exact ⟨before, was, same.trans type⟩
    · exact absurd names own_free
    · rw [type] at clash
      cases clash
  · intro key row found names
    by_cases same : key = own
    · subst same
      rcases moved.before with ⟨here, owned, -, credential⟩ | ⟨unowned, -⟩
      · obtain rfl := Option.some.inj (owned.symm.trans found)
        rw [moved.gone id (credential.symm.trans names) own_free] at stored
        cases stored
      · rw [unowned] at found
        cases found
    · exact unnamed key row ((moved.repositories key).trans ((if_neg same).trans found)) names
  · intro key target found
    rw [← moved.targets] at found
    exact free key target found

end OwnSecretsChanged

end AmberBackup
