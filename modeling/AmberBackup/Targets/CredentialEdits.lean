import AmberBackup.Jobs.StoredCredentials
import AmberBackup.Targets.TargetEdits

/-! # Editing the credentials of a connection

An edit that enters one secret field stores the secret fields it enters and nothing else. It
keeps what it leaves out exactly if it enters no secret field, or every one that has a value
(`credentials_kept_exactly`).
-/

namespace AmberBackup

open Relational

/-- The secret fields of a connection's form. -/
def BackendDefinition.secretFields (definition : BackendDefinition) : List BackendField :=
  definition.fields.filter fun field => field.secret && field.scope = .target

/-- What a form enters for a field, if it is not blank. -/
def enteredText (values : Config) (name : String) : Option String :=
  ((lookupLast name values).filter (· ≠ .text "")).map Value.toText

/-- What an edit enters for a secret field. -/
def UpdateTargetDto.entered (dto : UpdateTargetDto) (name : String) : Option String :=
  dto.config.bind fun values => enteredText values name

/-- A field the edit leaves out or blank has its previous value, any other the new one. -/
def KeepsCredentials (platform : Platform) (definition : BackendDefinition) (dto : UpdateTargetDto)
    (stored : Fields) (db : Db) (id : Uuid) : Prop :=
  ∃ after current, db.targets.get? id = some after ∧
    revealCredentials platform db after.credentialSecretId = .ok current ∧
      ∀ field ∈ definition.secretFields,
        lookupLast field.name current =
          (dto.entered field.name).or (lookupLast field.name stored)

/-- The edit enters no secret field, or every one that has a value. -/
def resendsCredentials (definition : BackendDefinition) (dto : UpdateTargetDto)
    (stored : Fields) : Bool :=
  (definition.secretFields.all fun field => (dto.entered field.name).isNone) ||
    definition.secretFields.all fun field =>
      (dto.entered field.name).isSome || (lookupLast field.name stored).isNone

section Split

variable {type : String} {definition : BackendDefinition} {values config : Config}
  {credentials : Fields}

theorem fields_distinct (found : getBackend type = .ok definition) :
    (definition.fields.map BackendField.name).Nodup := by
  have all : (backends.all fun backend => decide (backend.fields.map BackendField.name).Nodup) =
      true := by
    decide +kernel
  exact of_decide_eq_true (List.all_eq_true.mp all definition (mem_of_getBackend found))

/-- The credentials of a form are the secret fields it enters. -/
theorem splitConfig_credentials (found : getBackend type = .ok definition)
    (splits : splitConfig type values = .ok (config, credentials)) :
    credentials = definition.fields.filterMap fun field =>
      (if field.secret && field.scope = .target then enteredText values field.name else none).map
        (field.name, ·) := by
  unfold splitConfig at splits
  rw [found] at splits
  have same := (Prod.mk.inj (Except.ok.inj splits)).2
  rw [← same, List.filterMap_filterMap, List.filterMap_filter]
  congr 1
  funext field
  cases entered : lookupLast field.name values with
  | none => simp [enteredText, entered]
  | some value =>
      by_cases blank : value = .text "" <;> cases secret : field.secret <;>
        by_cases own : field.scope = .target <;>
          simp [enteredText, entered, blank, secret, own, Option.filter_some]

/-- The credentials of a form hold, for each secret field, what it enters. -/
theorem lookup_credentials (found : getBackend type = .ok definition)
    (splits : splitConfig type values = .ok (config, credentials)) {field : BackendField}
    (listed : field ∈ definition.secretFields) :
    lookupLast field.name credentials = enteredText values field.name := by
  obtain ⟨member, secret⟩ := List.mem_filter.mp listed
  rw [splitConfig_credentials found splits,
    lookupLast_filterMap BackendField.name _ (fields_distinct found) member, if_pos secret]

/-- A form has no credentials exactly if it enters no secret field. -/
theorem credentials_eq_nil (found : getBackend type = .ok definition)
    (splits : splitConfig type values = .ok (config, credentials)) :
    credentials = [] ↔ ∀ field ∈ definition.secretFields, enteredText values field.name = none := by
  constructor
  · rintro rfl field listed
    exact (lookup_credentials found splits listed).symm
  · intro blank
    rw [splitConfig_credentials found splits, List.filterMap_eq_nil_iff]
    intro field member
    by_cases secret : (field.secret && field.scope = .target) = true
    · rw [if_pos secret, blank field (List.mem_filter.mpr ⟨member, secret⟩)]
      rfl
    · rw [if_neg secret]
      rfl

end Split

section Edits

variable {editing : Editing} {user : RequestUser} {world next : World} {id : Uuid}
  {dto : UpdateTargetDto} {target : Target} {definition : BackendDefinition} {stored : Fields}

theorem editedForm_splits {values config : Config} {credentials : Fields}
    (entered : editedForm target values = .ok (config, credentials)) :
    ∃ config, splitConfig target.backendType values = .ok (config, credentials) := by
  obtain ⟨⟨own, found⟩, splits, rest⟩ := of_bind_eq_ok entered
  obtain ⟨_, -, same⟩ := of_bind_eq_ok rest
  obtain rfl := (Prod.mk.inj (Except.ok.inj same)).2
  exact ⟨own, splits⟩

/-- An edit that returns rewrites the row after its credentials. -/
theorem updateTarget_returns (found : world.db.targets.get? id = some target)
    (returned : (updateTarget editing user id dto).run world = (.ok (), next)) :
    ∃ config column middle,
      (editTargetConfig editing target dto.config).run world = (.ok (config, column), middle) ∧
        ((writeTarget id dto.name config column).run middle).2 = next := by
  unfold updateTarget at returned
  rcases assertAcl_cases world user .target id .manage _ with ⟨failure, refused⟩ | ⟨-, ran⟩
  · rw [refused] at returned
    cases returned
  rw [ran] at returned
  obtain ⟨row, here, returned⟩ :=
    Procedure.bind_returns_quiet (Procedure.Within.lift _) returned
  have same : getTargetRow world.db id = .ok row := here
  rw [getTargetRow, found] at same
  obtain rfl := Except.ok.inj same
  obtain ⟨⟨config, column⟩, middle, edited, wrote⟩ := Procedure.bind_returns.mp returned
  exact ⟨config, column, middle, edited, congrArg Prod.snd wrote⟩

/-- The row's secret holds the credentials an edit enters, if it enters any. -/
theorem replaced_credentials (faithful : editing.Faithful)
    (found : world.db.targets.get? id = some target)
    (revealed : revealCredentials editing.platform world.db target.credentialSecretId = .ok stored)
    {credentials : Fields} {name : Option String} {config : Option Config}
    {column : Option (Option Uuid)} {middle : World} (entered : credentials ≠ [])
    (replaced : (replaceCredentials editing target credentials).run world = (.ok column, middle)) :
    ∃ after current, ((writeTarget id name config column).run middle).2.db.targets.get? id =
        some after ∧
      revealCredentials editing.platform ((writeTarget id name config column).run middle).2.db
        after.credentialSecretId = .ok current ∧
      ∀ name, lookupLast name current = lookupLast name credentials := by
  rw [replaceCredentials, if_neg entered] at replaced
  cases held : target.credentialSecretId with
  | some secret =>
      rw [held] at replaced revealed
      obtain ⟨_, _, updated, ended⟩ := Procedure.bind_returns.mp replaced
      obtain ⟨column_eq, rfl⟩ := Prod.mk.inj ended
      obtain rfl := Except.ok.inj column_eq
      obtain ⟨row, present⟩ := stored_of_reveal revealed
      have holds := updated_secret editing present
        (editing.renderCredentials credentials)
      have same := congrArg Prod.snd updated
      subst same
      obtain ⟨current, reveals, equal⟩ := revealCredentials_encrypted faithful holds
      refine ⟨_, current, (Table.get?_update_self _).trans (congrArg _ found), ?_, equal⟩
      rw [← reveals]
      exact congrArg (revealCredentials editing.platform _) held
  | none =>
      rw [held] at replaced
      obtain ⟨secret, _, created, ended⟩ := Procedure.bind_returns.mp replaced
      obtain ⟨column_eq, rfl⟩ := Prod.mk.inj ended
      obtain rfl := Except.ok.inj column_eq
      obtain ⟨same, rfl⟩ := Prod.mk.inj created
      obtain rfl := Except.ok.inj same
      have holds := created_secret editing world .backendCredential
        (editing.renderCredentials credentials)
      obtain ⟨current, reveals, equal⟩ := revealCredentials_encrypted faithful holds
      exact ⟨_, current, (Table.get?_update_self _).trans (congrArg _ found), reveals, equal⟩

/-- After an edit each secret field has its previous value if the edit enters none of them,
and what the edit enters otherwise. -/
theorem updated_credentials (faithful : editing.Faithful)
    (found : world.db.targets.get? id = some target)
    (backend : getBackend target.backendType = .ok definition)
    (revealed : revealCredentials editing.platform world.db target.credentialSecretId = .ok stored)
    (returned : (updateTarget editing user id dto).run world = (.ok (), next)) :
    ∃ after current, next.db.targets.get? id = some after ∧
      revealCredentials editing.platform next.db after.credentialSecretId = .ok current ∧
        ∀ field ∈ definition.secretFields, lookupLast field.name current =
          if ∀ field ∈ definition.secretFields, dto.entered field.name = none then
            lookupLast field.name stored
          else dto.entered field.name := by
  obtain ⟨config, column, middle, edited, rfl⟩ := updateTarget_returns found returned
  cases form : dto.config with
  | none =>
      rw [form] at edited
      obtain ⟨same, rfl⟩ := Prod.mk.inj edited
      obtain ⟨rfl, rfl⟩ := Prod.mk.inj (Except.ok.inj same)
      have blank (name : String) : dto.entered name = none := by
        rw [UpdateTargetDto.entered, form]
        rfl
      refine ⟨_, stored, (Table.get?_update_self _).trans (congrArg _ found), revealed, ?_⟩
      intro field _
      exact (if_pos fun (field : BackendField) _ => blank field.name).symm
  | some values =>
      have shown (name : String) : dto.entered name = enteredText values name := by
        rw [UpdateTargetDto.entered, form]
        rfl
      rw [form] at edited
      obtain ⟨⟨entered, credentials⟩, accepted, edited⟩ :=
        Procedure.bind_returns_quiet (Procedure.Within.lift _) edited
      obtain ⟨replacement, written, replaced, ended⟩ := Procedure.bind_returns.mp edited
      obtain ⟨same, rfl⟩ := Prod.mk.inj ended
      obtain ⟨rfl, rfl⟩ := Prod.mk.inj (Except.ok.inj same)
      obtain ⟨own, splits⟩ := editedForm_splits accepted
      simp only [shown, ← credentials_eq_nil backend splits]
      by_cases blank : credentials = []
      · rw [replaceCredentials, if_pos blank] at replaced
        obtain ⟨same, rfl⟩ := Prod.mk.inj replaced
        obtain rfl := Except.ok.inj same
        refine ⟨_, stored, (Table.get?_update_self _).trans (congrArg _ found), revealed, ?_⟩
        intro field _
        exact (if_pos blank).symm
      · obtain ⟨after, current, present, reveals, equal⟩ :=
          replaced_credentials faithful found revealed blank replaced
        refine ⟨after, current, present, reveals, ?_⟩
        intro field listed
        rw [equal, if_neg blank, lookup_credentials backend splits listed]

/-- **An edit of a connection keeps the credentials it does not enter exactly if it enters
none, or every one that has a value.** -/
theorem credentials_kept_exactly (faithful : editing.Faithful)
    (found : world.db.targets.get? id = some target)
    (backend : getBackend target.backendType = .ok definition)
    (revealed : revealCredentials editing.platform world.db target.credentialSecretId = .ok stored)
    (returned : (updateTarget editing user id dto).run world = (.ok (), next)) :
    KeepsCredentials editing.platform definition dto stored next.db id ↔
      resendsCredentials definition dto stored = true := by
  obtain ⟨after, current, present, reveals, holds⟩ :=
    updated_credentials faithful found backend revealed returned
  have keeps : KeepsCredentials editing.platform definition dto stored next.db id ↔
      ∀ field ∈ definition.secretFields, lookupLast field.name current =
        (dto.entered field.name).or (lookupLast field.name stored) := by
    constructor
    · rintro ⟨row, other, here, shown, equal⟩
      obtain rfl := Option.some.inj (present.symm.trans here)
      obtain rfl := Except.ok.inj (reveals.symm.trans shown)
      exact equal
    · intro equal
      exact ⟨after, current, present, reveals, equal⟩
  rw [keeps, resendsCredentials, Bool.or_eq_true, List.all_eq_true, List.all_eq_true]
  simp only [Option.isNone_iff_eq_none, Bool.or_eq_true]
  by_cases blank : ∀ field ∈ definition.secretFields, dto.entered field.name = none
  · refine iff_of_true ?_ (.inl blank)
    intro field listed
    rw [holds field listed, if_pos blank, blank field listed, Option.none_or]
  · rw [or_iff_right blank]
    refine forall₂_congr fun field listed => ?_
    rw [holds field listed, if_neg blank]
    cases dto.entered field.name with
    | none => simp [eq_comm]
    | some value => simp

end Edits

/-- An S3 connection and its key pair. -/
def bucketKeys : Fields := [("accessKeyId", "AKIA1"), ("secretAccessKey", "wJalr1")]

def oneBucket : World where
  now := 0
  db := {
    secrets := Table.empty.insert 0
      (Secrets.encrypted jsonVault .backendCredential 0 (jsonVault.renderCredentials bucketKeys))
    targets := Table.empty.insert 0 {
      name := "bucket", backendType := "s3", config := [("endpoint", .text "s3.example.org")]
      credentialSecretId := some 0, updatedAt := 0 } }

theorem oneBucket_connection :
    ∃ target, oneBucket.db.targets.get? 0 = some target ∧
      getBackend target.backendType = .ok s3Backend ∧
        revealCredentials jsonVault.platform oneBucket.db target.credentialSecretId =
          .ok bucketKeys := by
  have present : (oneBucket.db.targets.get? 0).any (fun target =>
      target.backendType = "s3" && target.credentialSecretId = some 0) = true := by
    decide +kernel
  obtain ⟨target, found, both⟩ := (Option.any_eq_true _ _).mp present
  simp only [Bool.and_eq_true, decide_eq_true_eq] at both
  refine ⟨target, found, ?_, ?_⟩
  · rw [both.1]
    rfl
  · rw [both.2]
    decide +kernel

/-- A new secret key, without the access key, which the form does not show. -/
def rotatedKey : UpdateTargetDto where
  config := some [("endpoint", .text "s3.example.org"), ("secretAccessKey", .text "wJalr2")]

def rotatedKeys : UpdateTargetDto where
  config := some [("endpoint", .text "s3.example.org"), ("accessKeyId", .text "AKIA2"),
    ("secretAccessKey", .text "wJalr2")]

/-- An edit enters a new secret key and loses the access key. -/
theorem edit_drops_access_key :
    ¬ ∀ (editing : Editing) (user : RequestUser) (world next : World) (id : Uuid)
      (dto : UpdateTargetDto) (target : Target) (definition : BackendDefinition) (stored : Fields),
      editing.Faithful → world.db.targets.get? id = some target →
      getBackend target.backendType = .ok definition →
      revealCredentials editing.platform world.db target.credentialSecretId = .ok stored →
      (updateTarget editing user id dto).run world = (.ok (), next) →
      KeepsCredentials editing.platform definition dto stored next.db id := by
  intro claim
  obtain ⟨target, found, backend, revealed⟩ := oneBucket_connection
  have returned : (updateTarget jsonVault admin 0 rotatedKey).run oneBucket =
      (.ok (), ((updateTarget jsonVault admin 0 rotatedKey).run oneBucket).2) :=
    Prod.ext (by decide +kernel) rfl
  obtain ⟨after, current, here, shown, kept⟩ := claim jsonVault admin oneBucket _ 0 rotatedKey
    target s3Backend bucketKeys jsonVault_faithful found backend revealed returned
  obtain ⟨row, other, there, reveals, holds⟩ :=
    updated_credentials jsonVault_faithful found backend revealed returned
  obtain rfl := Option.some.inj (here.symm.trans there)
  obtain rfl := Except.ok.inj (shown.symm.trans reveals)
  let accessKey : BackendField := { name := "accessKeyId", required := true, secret := true }
  have listed : accessKey ∈ s3Backend.secretFields := by decide +kernel
  have entered : ¬ ∀ field ∈ s3Backend.secretFields, rotatedKey.entered field.name = none := by
    decide +kernel
  have lost := (kept accessKey listed).symm.trans (holds accessKey listed)
  rw [if_neg entered] at lost
  revert lost
  decide +kernel

/-- An edit enters both keys. -/
theorem edit_renews_both_keys :
    KeepsCredentials jsonVault.platform s3Backend rotatedKeys bucketKeys
      ((updateTarget jsonVault admin 0 rotatedKeys).run oneBucket).2.db 0 := by
  obtain ⟨target, found, backend, revealed⟩ := oneBucket_connection
  have returned : (updateTarget jsonVault admin 0 rotatedKeys).run oneBucket =
      (.ok (), ((updateTarget jsonVault admin 0 rotatedKeys).run oneBucket).2) :=
    Prod.ext (by decide +kernel) rfl
  exact (credentials_kept_exactly jsonVault_faithful found backend revealed returned).mpr
    (by decide +kernel)

end AmberBackup
