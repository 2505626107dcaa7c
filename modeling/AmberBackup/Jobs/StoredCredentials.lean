import AmberBackup.Jobs.EditCases
import AmberBackup.Lib.JsonObject

/-! # Credentials at rest

A credential map is stored as an encrypted JSON object. What is read of a secret right after
it was written is what was written, if decryption inverts encryption and the parser the
rendering (`Editing.Faithful`).
-/

namespace AmberBackup

open Relational

/-! ## Secrets -/

section Congruence

variable {platform : Platform} {db other : Db}

theorem reveal_congr {id : Uuid} (same : other.secrets.get? id = db.secrets.get? id) :
    reveal platform other id = reveal platform db id := by
  simp only [reveal, same]

theorem revealCredentials_congr {id : Option Uuid}
    (same : ∀ secret, id = some secret → other.secrets.get? secret = db.secrets.get? secret) :
    revealCredentials platform other id = revealCredentials platform db id := by
  cases id with
  | none => rfl
  | some secret => simp only [revealCredentials, reveal_congr (same secret rfl)]

end Congruence

/-- Decryption gives back what was encrypted for the row, and the parser the map that was
rendered. -/
structure Editing.Faithful (editing : Editing) : Prop where
  decrypts : ∀ text aad, editing.platform.decrypt (editing.encrypt text aad).1
    (editing.encrypt text aad).2 (some aad) = some text
  parses : ∀ fields, ∃ parsed,
    editing.platform.parseCredentials (editing.renderCredentials fields) = some parsed ∧
      ∀ name, lookupLast name parsed = lookupLast name fields

section Secrets

variable {editing : Editing} {world : World} {db : Db} {id : Uuid}

/-- A secret that holds the text reveals it. -/
theorem reveal_encrypted (faithful : editing.Faithful) {type : SecretType} {text : String}
    (stored : db.secrets.get? id = some (Secrets.encrypted editing type id text)) :
    reveal editing.platform db id = .ok text := by
  have opens := faithful.decrypts text (aadFor id)
  simp only [reveal, stored, Secrets.encrypted, opens]

/-- A secret that holds a rendered map reveals the map. -/
theorem revealCredentials_encrypted (faithful : editing.Faithful) {type : SecretType}
    {fields : Fields}
    (stored : db.secrets.get? id =
      some (Secrets.encrypted editing type id (editing.renderCredentials fields))) :
    ∃ parsed, revealCredentials editing.platform db (some id) = .ok parsed ∧
      ∀ name, lookupLast name parsed = lookupLast name fields := by
  obtain ⟨parsed, parses, same⟩ := faithful.parses fields
  refine ⟨parsed, ?_, same⟩
  unfold revealCredentials
  dsimp only
  rw [reveal_encrypted faithful stored]
  dsimp only [bind, Except.bind]
  rw [parses]
  rfl

/-- Only a stored secret is revealed. -/
theorem stored_of_reveal {fields : Fields}
    (revealed : revealCredentials editing.platform db (some id) = .ok fields) :
    ∃ row, db.secrets.get? id = some row := by
  obtain ⟨plaintext, revealed, -⟩ := of_bind_eq_ok revealed
  unfold reveal at revealed
  split at revealed
  case h_1 => cases revealed
  case h_2 row stored => exact ⟨row, stored⟩

variable (editing) in
theorem updated_secret {row : Secret} (stored : world.db.secrets.get? id = some row)
    (text : String) :
    ((Secrets.update editing id text).run world).2.db.secrets.get? id =
      some (Secrets.encrypted editing row.type id text) := by
  change (world.db.secrets.update _ _).get? id = _
  rw [Table.get?_update_self, stored]
  rfl

variable (editing world) in
theorem created_secret (type : SecretType) (text : String) :
    ((Secrets.create editing type text).run world).2.db.secrets.get? (freshId world.db.secrets) =
      some (Secrets.encrypted editing type (freshId world.db.secrets) text) :=
  Table.get?_insert_self (get?_freshId _)

end Secrets

/-- The vault, with credentials rendered as JSON. -/
def jsonVault : Editing where
  platform := { vault.platform with parseCredentials := JsonObject.parse }
  encrypt := vault.encrypt
  renderCredentials := JsonObject.stringify
  validCron := vault.validCron

theorem jsonVault_faithful : jsonVault.Faithful where
  decrypts _ _ := if_pos rfl
  parses fields := ⟨fields, JsonObject.parse_stringify fields, fun _ => rfl⟩

end AmberBackup
