import AmberBackup.Crypto.CryptoService
import AmberBackup.Jobs.StoredCredentials
import Mathlib.Data.Option.Basic
import Mathlib.Logic.Function.Basic

/-! # Secrets at rest

Secrets are created, updated and removed through the service, and someone may write to the table
past it. A row the service wrote last reveals the text that was given for it, whatever became of the
other rows (`reveal_contents`). A ciphertext that was moved to another row reveals nothing there,
unless it is from before ciphertexts were bound to their rows (`reveal_own`).
-/

namespace AmberBackup

open Relational Table
open Utf8 (Bytes)

/-- Decryption by the crypto service. -/
def Platform.keyed (platform : Platform) (crypto : CryptoService) : Platform :=
  { platform with decrypt := fun ciphertext nonce aad => crypto.decrypt ⟨ciphertext, nonce⟩ aad }

/-- What a call works with that draws the nonce `iv`. -/
def Editing.keyed (editing : Editing) (crypto : CryptoService) (iv : Bytes) : Editing :=
  { editing with
    platform := editing.platform.keyed crypto
    encrypt := fun plaintext aad =>
      let payload := crypto.encrypt iv plaintext (some aad)
      (payload.ciphertext, payload.nonce) }

def Secret.payload (secret : Secret) : EncryptedPayload := ⟨secret.ciphertext, secret.nonce⟩

inductive SecretCall where
  | create (type : SecretType) (plaintext : String)
  | update (id : Uuid) (plaintext : String)
  | remove (id : Uuid)
  /-- A write to the row that does not go through the service. -/
  | overwrite (id : Uuid) (payload : EncryptedPayload)
  deriving DecidableEq, Repr

/-- A call and the nonce it draws. -/
structure SecretStep where
  call : SecretCall
  iv : Bytes := []
  deriving DecidableEq, Repr

def overwriteSecret (id : Uuid) (payload : EncryptedPayload) : Service Unit :=
  .write fun world =>
    { world with
      db := { world.db with
        secrets := world.db.secrets.update (fun other _ => other = id) fun row =>
          { row with ciphertext := payload.ciphertext, nonce := payload.nonce } } }

def SecretCall.procedure (editing : Editing) : SecretCall → Service Unit
  | .create type plaintext => do
      let _ ← Secrets.create editing type plaintext
      return ()
  | .update id plaintext => Secrets.update editing id plaintext
  | .remove id => Secrets.remove id
  | .overwrite id payload => overwriteSecret id payload

namespace SecretStep

variable (editing : Editing) (crypto : CryptoService)

def run (world : World) (step : SecretStep) : World :=
  ((step.call.procedure (editing.keyed crypto step.iv)).run world).2

/-- The payload a step writes, and the row it is written to. -/
def payload (world : World) (step : SecretStep) : Option (Uuid × EncryptedPayload) :=
  match step.call with
  | .create _ plaintext =>
      let id := freshId world.db.secrets
      some (id, crypto.encrypt step.iv plaintext (some (aadFor id)))
  | .update id plaintext => some (id, crypto.encrypt step.iv plaintext (some (aadFor id)))
  | .remove _ => none
  | .overwrite id payload => some (id, payload)

end SecretStep

def runSecrets (editing : Editing) (crypto : CryptoService) (world : World)
    (steps : List SecretStep) : World :=
  steps.foldl (SecretStep.run editing crypto) world

/-! ## What rows hold -/

/-- What is known of a row: the text the service wrote last, or a payload from elsewhere. -/
inductive Content where
  | written (plaintext : String)
  | foreign (payload : EncryptedPayload)
  deriving DecidableEq, Repr

abbrev Contents := Uuid → Option Content

/-- The rows a run begins with. -/
def Contents.found (world : World) : Contents := fun id =>
  (world.db.secrets.get? id).map fun row => .foreign row.payload

def SecretStep.contents (world : World) (step : SecretStep) (contents : Contents) : Contents :=
  match step.call with
  | .create _ plaintext =>
      Function.update contents (freshId world.db.secrets) (some (.written plaintext))
  | .update id plaintext =>
      Function.update contents id ((contents id).map fun _ => .written plaintext)
  | .remove id =>
      if Secrets.referenced world.db id then contents else Function.update contents id none
  | .overwrite id payload =>
      Function.update contents id ((contents id).map fun _ => .foreign payload)

/-- What the rows hold after a run. -/
def contentsAfter (editing : Editing) (crypto : CryptoService) :
    World → Contents → List SecretStep → Contents
  | _, contents, [] => contents
  | world, contents, step :: rest =>
      contentsAfter editing crypto (step.run editing crypto world) (step.contents world contents) rest

/-- A payload from elsewhere is tried with the row's associated data and without any. -/
def Content.reveal (crypto : CryptoService) (id : Uuid) : Option Content → Except Failure String
  | none => .error (.notFound ("Secret " ++ toString id ++ " not found"))
  | some (.written plaintext) => .ok plaintext
  | some (.foreign payload) =>
      match crypto.decrypt payload (some (aadFor id)) <|> crypto.decrypt payload none with
      | some plaintext => .ok plaintext
      | none => .error (.error "Unsupported state or unable to authenticate data")

/-- The row is what is known of it. -/
def Content.Describes (crypto : CryptoService) (id : Uuid) (row : Secret) : Content → Prop
  | .written plaintext => ∃ iv, row.payload = crypto.encrypt iv plaintext (some (aadFor id))
  | .foreign payload => row.payload = payload

def Contents.Describe (crypto : CryptoService) (contents : Contents) (world : World) : Prop :=
  ∀ id, Option.Rel (fun row content => content.Describes crypto id row)
    (world.db.secrets.get? id) (contents id)

section Runs

variable {editing : Editing} {crypto : CryptoService} {world : World} {contents : Contents}
  {step : SecretStep} {id : Uuid}

theorem secrets_create {type : SecretType} {plaintext : String} {iv : Bytes} :
    (SecretStep.run editing crypto world ⟨.create type plaintext, iv⟩).db.secrets =
      world.db.secrets.insert (freshId world.db.secrets)
        (Secrets.encrypted (editing.keyed crypto iv) type (freshId world.db.secrets) plaintext) :=
  rfl

theorem secrets_remove {iv : Bytes} {other : Uuid} :
    (SecretStep.run editing crypto world ⟨.remove other, iv⟩).db.secrets =
      if Secrets.referenced world.db other then world.db.secrets
      else world.db.secrets.delete fun id _ => id = other := by
  change (Procedure.run (Secrets.remove other) world).2.db.secrets = _
  unfold Secrets.remove
  dsimp only
  split <;> rfl

/-- What one step does to a row and to what is known of it. -/
theorem describe_map {row : Option Secret} {known : Option Content} {change : Secret → Secret}
    {content : Content} (changed : ∀ secret, content.Describes crypto id (change secret))
    (described : Option.Rel (fun row content => content.Describes crypto id row) row known) :
    Option.Rel (fun row content => content.Describes crypto id row) (row.map change)
      (known.map fun _ => content) := by
  cases described with
  | none => exact .none
  | some _ => exact .some (changed _)

theorem found_describe : (Contents.found world).Describe crypto world := by
  intro id
  unfold Contents.found
  cases world.db.secrets.get? id with
  | none => exact .none
  | some row => exact .some rfl

/-- A step keeps what is known of the rows. -/
theorem describe_step (describe : contents.Describe crypto world) :
    (step.contents world contents).Describe crypto (step.run editing crypto world) := by
  obtain ⟨call, iv⟩ := step
  intro id
  cases call with
  | create type plaintext =>
      rw [secrets_create]
      unfold SecretStep.contents
      dsimp only
      by_cases same : id = freshId world.db.secrets
      · subst same
        rw [get?_insert_self (get?_freshId _), Function.update_self]
        exact .some ⟨iv, rfl⟩
      · rw [get?_insert_of_ne same, Function.update_of_ne same]
        exact describe id
  | update target plaintext =>
      change Option.Rel _ ((world.db.secrets.update _ _).get? id) _
      unfold SecretStep.contents
      dsimp only
      by_cases same : id = target
      · subst same
        rw [get?_update_self, Function.update_self]
        exact describe_map (fun _ => ⟨iv, rfl⟩) (describe id)
      · rw [get?_update_of_ne same, Function.update_of_ne same]
        exact describe id
  | remove target =>
      rw [secrets_remove]
      unfold SecretStep.contents
      dsimp only
      split
      · exact describe id
      · by_cases same : id = target
        · subst same
          rw [get?_delete_self, Function.update_self]
          exact .none
        · rw [get?_delete_of_ne same, Function.update_of_ne same]
          exact describe id
  | overwrite target payload =>
      change Option.Rel _ ((world.db.secrets.update _ _).get? id) _
      unfold SecretStep.contents
      dsimp only
      by_cases same : id = target
      · subst same
        rw [get?_update_self, Function.update_self]
        exact describe_map (fun _ => rfl) (describe id)
      · rw [get?_update_of_ne same, Function.update_of_ne same]
        exact describe id

theorem describe_run (steps : List SecretStep) (describe : contents.Describe crypto world) :
    (contentsAfter editing crypto world contents steps).Describe crypto
      (runSecrets editing crypto world steps) := by
  induction steps generalizing world contents with
  | nil => exact describe
  | cons step rest ih => exact ih (describe_step describe)

/-- What is known of a row tells what it reveals. -/
theorem reveal_described (correct : crypto.gcm.Correct authTagLength)
    (describe : contents.Describe crypto world) (id : Uuid) :
    reveal (editing.platform.keyed crypto) world.db id = Content.reveal crypto id (contents id) := by
  have described := describe id
  unfold reveal
  cases present : world.db.secrets.get? id with
  | none =>
      rw [present] at described
      cases known : contents id with
      | none => rfl
      | some content =>
          rw [known] at described
          cases described
  | some row =>
      rw [present] at described
      cases known : contents id with
      | none =>
          rw [known] at described
          cases described
      | some content =>
          rw [known] at described
          have described : content.Describes crypto id row := by
            cases described
            assumption
          change (match crypto.decrypt row.payload (some (aadFor id)) with
            | some plaintext => Except.ok plaintext
            | none => match crypto.decrypt row.payload none with
              | some plaintext => Except.ok plaintext
              | none => _) = _
          cases content with
          | written plaintext =>
              obtain ⟨iv, stored⟩ := described
              rw [stored, decrypt_encrypt correct]
              rfl
          | foreign payload =>
              obtain rfl : row.payload = payload := described
              unfold Content.reveal
              dsimp only
              cases crypto.decrypt row.payload (some (aadFor id)) <;> rfl

/-- **Reveal contents.** After any run, each row reveals the text the service wrote last, or what a
payload from elsewhere decrypts to; a row that is gone is not found. -/
theorem reveal_contents (correct : crypto.gcm.Correct authTagLength) (world : World)
    (steps : List SecretStep) (id : Uuid) :
    reveal (editing.platform.keyed crypto) (runSecrets editing crypto world steps).db id =
      Content.reveal crypto id
        (contentsAfter editing crypto world (Contents.found world) steps id) :=
  reveal_described correct (describe_run steps found_describe) id

end Runs

/-! ## What was sealed -/

/-- A text that was encrypted for a row, or without associated data. -/
inductive Sealed where
  | bound (id : Uuid) (plaintext : String)
  | unbound (plaintext : String)
  deriving DecidableEq, Repr

def Sealed.entry : Sealed → Bytes × Bytes
  | .bound id plaintext => (utf8 (aadFor id), utf8 plaintext)
  | .unbound plaintext => ([], utf8 plaintext)

/-- The payload decrypts only to what was sealed, under the associated data it was sealed with. -/
def CryptoService.Genuine (crypto : CryptoService) (record : List Sealed)
    (payload : EncryptedPayload) : Prop :=
  crypto.gcm.Genuine (record.map Sealed.entry) (ofBase64 payload.nonce) payload.box

/-- What a step seals. -/
def SecretStep.sealed (world : World) (step : SecretStep) : List Sealed :=
  match step.call with
  | .create _ plaintext => [.bound (freshId world.db.secrets) plaintext]
  | .update id plaintext => [.bound id plaintext]
  | .remove _ | .overwrite _ _ => []

/-- What a run seals, each text for the row it was given for. -/
def sealedBy (editing : Editing) (crypto : CryptoService) : World → List SecretStep → List Sealed
  | _, [] => []
  | world, step :: rest =>
      step.sealed world ++ sealedBy editing crypto (step.run editing crypto world) rest

/-- No payload that is written in the run opens as something that was not sealed by then. -/
def Unforged (editing : Editing) (crypto : CryptoService) :
    World → List Sealed → List SecretStep → Prop
  | _, _, [] => True
  | world, record, step :: rest =>
      (∀ id payload, step.payload crypto world = some (id, payload) →
        crypto.Genuine (record ++ step.sealed world) payload) ∧
      Unforged editing crypto (step.run editing crypto world) (record ++ step.sealed world) rest

theorem aadFor_injective {id other : Uuid} (same : aadFor id = aadFor other) : id = other := by
  have lists := congrArg String.toList same
  unfold aadFor at lists
  rw [String.toList_append, String.toList_append] at lists
  have digits := List.append_cancel_left lists
  rw [Nat.toString_eq_repr, Nat.toString_eq_repr, Nat.toList_repr, Nat.toList_repr] at digits
  have read := congrArg (fun digits => Nat.ofDigitChars 10 digits 0) digits
  simpa only [Nat.ofDigitChars_ten_toDigits] using read

theorem aadFor_ne_empty (id : Uuid) : utf8 (aadFor id) ≠ [] := by
  intro empty
  have same : aadFor id = "" := utf8_injective empty
  have lists := congrArg String.toList same
  unfold aadFor at lists
  rw [String.toList_append] at lists
  cases lists

section Sealings

variable {editing : Editing} {crypto : CryptoService} {world : World} {record : List Sealed}
  {step : SecretStep} {id : Uuid} {payload : EncryptedPayload} {text : String}

/-- What a genuine payload decrypts to for a row was sealed for the row. -/
theorem bound_of_decrypt (genuine : crypto.Genuine record payload)
    (decrypted : crypto.decrypt payload (some (aadFor id)) = some text) :
    .bound id text ∈ record := by
  obtain ⟨plain, opened, rfl⟩ := Option.map_eq_some_iff.mp decrypted
  obtain ⟨sealed, member, entry⟩ := List.mem_map.mp (genuine _ plain opened)
  cases sealed with
  | bound other plaintext =>
      obtain ⟨named, rfl⟩ := Prod.mk.inj entry
      obtain rfl := aadFor_injective (utf8_injective named)
      rw [decode_utf8]
      exact member
  | unbound plaintext => exact absurd (Prod.mk.inj entry).1.symm (aadFor_ne_empty id)

theorem unbound_of_decrypt (genuine : crypto.Genuine record payload)
    (decrypted : crypto.decrypt payload none = some text) : .unbound text ∈ record := by
  obtain ⟨plain, opened, rfl⟩ := Option.map_eq_some_iff.mp decrypted
  obtain ⟨sealed, member, entry⟩ := List.mem_map.mp (genuine _ plain opened)
  cases sealed with
  | bound other plaintext => exact absurd (Prod.mk.inj entry).1 (aadFor_ne_empty other)
  | unbound plaintext =>
      obtain ⟨-, rfl⟩ := Prod.mk.inj entry
      rw [decode_utf8]
      exact member

/-- A row holds what it held, or what the step wrote to it. -/
theorem stored_cases {row : Secret}
    (stored : (step.run editing crypto world).db.secrets.get? id = some row) :
    (∃ before, world.db.secrets.get? id = some before ∧ before.payload = row.payload) ∨
      step.payload crypto world = some (id, row.payload) := by
  obtain ⟨call, iv⟩ := step
  cases call with
  | create type plaintext =>
      rw [secrets_create] at stored
      rcases insert_cases (get?_freshId _) stored with ⟨rfl, rfl⟩ | ⟨-, before⟩
      · exact .inr rfl
      · exact .inl ⟨row, before, rfl⟩
  | update target plaintext =>
      change (world.db.secrets.update _ _).get? id = some row at stored
      by_cases same : id = target
      · subst same
        rw [get?_update_self] at stored
        obtain ⟨before, -, rfl⟩ := Option.map_eq_some_iff.mp stored
        exact .inr rfl
      · rw [get?_update_of_ne same] at stored
        exact .inl ⟨row, stored, rfl⟩
  | remove target =>
      rw [secrets_remove] at stored
      split at stored
      · exact .inl ⟨row, stored, rfl⟩
      · rw [get?_delete] at stored
        exact .inl ⟨row, (Option.filter_eq_some_iff.mp stored).1, rfl⟩
  | overwrite target payload =>
      change (world.db.secrets.update _ _).get? id = some row at stored
      by_cases same : id = target
      · subst same
        rw [get?_update_self] at stored
        obtain ⟨before, -, rfl⟩ := Option.map_eq_some_iff.mp stored
        exact .inr rfl
      · rw [get?_update_of_ne same] at stored
        exact .inl ⟨row, stored, rfl⟩

/-- Every stored payload is genuine. -/
def AllGenuine (crypto : CryptoService) (record : List Sealed) (world : World) : Prop :=
  ∀ id row, world.db.secrets.get? id = some row → crypto.Genuine record row.payload

theorem CryptoService.Genuine.append (genuine : crypto.Genuine record payload)
    (more : List Sealed) : crypto.Genuine (record ++ more) payload := by
  unfold CryptoService.Genuine
  rw [List.map_append]
  exact Aead.Genuine.append genuine _

theorem allGenuine_run {steps : List SecretStep} (genuine : AllGenuine crypto record world)
    (unforged : Unforged editing crypto world record steps) :
    AllGenuine crypto (record ++ sealedBy editing crypto world steps)
      (runSecrets editing crypto world steps) := by
  induction steps generalizing world record with
  | nil =>
      unfold sealedBy
      rw [List.append_nil]
      exact genuine
  | cons step rest ih =>
      unfold sealedBy
      rw [← List.append_assoc]
      refine ih ?_ unforged.2
      intro id row stored
      rcases stored_cases stored with ⟨before, present, same⟩ | written
      · rw [← same]
        exact (genuine id before present).append _
      · exact unforged.1 id row.payload written

/-- A run seals texts for rows only. -/
theorem bound_of_sealedBy {steps : List SecretStep} {sealed : Sealed}
    (member : sealed ∈ sealedBy editing crypto world steps) (plaintext : String) :
    sealed ≠ .unbound plaintext := by
  induction steps generalizing world with
  | nil => cases member
  | cons step rest ih =>
      rcases List.mem_append.mp member with first | later
      · unfold SecretStep.sealed at first
        split at first
        · rw [List.mem_singleton.mp first]
          exact nofun
        · rw [List.mem_singleton.mp first]
          exact nofun
        · cases first
        · cases first
      · exact ih later

/-- **Reveal own.** Whoever writes to the table, what a row reveals was encrypted for this row, or
before ciphertexts were bound to their rows. -/
theorem reveal_own {steps : List SecretStep} (genuine : AllGenuine crypto record world)
    (unforged : Unforged editing crypto world record steps)
    (revealed : reveal (editing.platform.keyed crypto)
      (runSecrets editing crypto world steps).db id = .ok text) :
    .bound id text ∈ record ++ sealedBy editing crypto world steps ∨ .unbound text ∈ record := by
  have final := allGenuine_run genuine unforged
  unfold reveal at revealed
  split at revealed
  · cases revealed
  case h_2 row stored =>
    have own := final id row stored
    split at revealed
    case h_1 plaintext decrypted =>
      cases revealed
      exact .inl (bound_of_decrypt own decrypted)
    case h_2 =>
      split at revealed
      case h_1 plaintext decrypted =>
        cases revealed
        rcases List.mem_append.mp (unbound_of_decrypt own decrypted) with before | later
        · exact .inr before
        · exact absurd rfl (bound_of_sealedBy later text)
      case h_2 => cases revealed

end Sealings

/-! ## A ciphertext on another row -/

/-- A tag of 16 bytes that tells short associated data apart. -/
def shortTag (associated : Bytes) : Bytes :=
  if associated.length ≤ 15 then
    UInt8.ofNat associated.length ::
      (associated ++ List.replicate (15 - associated.length) 0)
  else List.replicate 16 255

/-- Encryption that tags the associated data. -/
def taggingAead : Aead where
  encrypt _ associated plain := (plain, shortTag associated)
  decrypt _ associated box := if box.2 = shortTag associated then some box.1 else none

theorem taggingAead_correct : taggingAead.Correct authTagLength where
  opens nonce associated plain := if_pos rfl
  tag nonce associated plain := by
    change (shortTag associated).length = 16
    unfold shortTag
    split
    · rw [List.length_cons, List.length_append, List.length_replicate]
      omega
    · exact List.length_replicate

theorem shortTag_injective {associated other : Bytes} (short : associated.length ≤ 15)
    (same : shortTag associated = shortTag other) : associated = other := by
  unfold shortTag at same
  rw [if_pos short] at same
  split at same
  case isTrue short' =>
    obtain ⟨lengths, texts⟩ := List.cons.inj same
    have numbers := congrArg UInt8.toNat lengths
    rw [UInt8.toNat_ofNat', UInt8.toNat_ofNat', Nat.mod_eq_of_lt (by omega),
      Nat.mod_eq_of_lt (by omega)] at numbers
    exact (List.append_inj texts numbers).1
  case isFalse long =>
    have numbers := congrArg UInt8.toNat (List.cons.inj same).1
    rw [UInt8.toNat_ofNat', Nat.mod_eq_of_lt (by omega)] at numbers
    change associated.length = 255 at numbers
    omega

section Tagged

variable {crypto : CryptoService} {record : List Sealed} {id : Uuid} {iv : Bytes} {text : String}

/-- What the service encrypts for a row with a short number is genuine. -/
theorem genuine_tagged (short : (utf8 (aadFor id)).length ≤ 15)
    (sealed : .bound id text ∈ record) :
    CryptoService.Genuine ⟨taggingAead⟩ record
      (CryptoService.encrypt ⟨taggingAead⟩ iv text (some (aadFor id))) := by
  intro associated plain opened
  have box := @box_encrypt ⟨taggingAead⟩ iv text (some (aadFor id)) taggingAead_correct
  rw [box] at opened
  change (if shortTag (utf8 (aadFor id)) = shortTag associated then some (utf8 text) else none) =
    some plain at opened
  split at opened
  case isTrue same =>
    obtain rfl := shortTag_injective short same
    obtain rfl := Option.some.inj opened
    exact List.mem_map.mpr ⟨_, sealed, rfl⟩
  case isFalse => cases opened

end Tagged

def someEditing : Editing where
  platform :=
    { decrypt := fun _ _ _ => none
      parseCredentials := fun _ => none
      readFigures := fun _ => .error ""
      publicBaseUrl := "" }
  encrypt text _ := (text, "")
  renderCredentials _ := ""
  validCron _ := true

def noSecrets : World where
  db := {}
  now := 0

/-- Two secrets, and the first one's ciphertext written to the second one's row. -/
def relocation : List SecretStep :=
  [⟨.create .repoPassword "hunter2", []⟩, ⟨.create .repoPassword "other", []⟩,
    ⟨.overwrite 1 (CryptoService.encrypt ⟨taggingAead⟩ [] "hunter2" (some (aadFor 0))), []⟩]

theorem relocation_unforged : Unforged someEditing ⟨taggingAead⟩ noSecrets [] relocation := by
  refine ⟨?_, ?_, ?_, trivial⟩
  · intro id payload written
    obtain ⟨rfl, rfl⟩ := Prod.mk.inj (Option.some.inj written)
    exact genuine_tagged (by decide) (by decide)
  · intro id payload written
    obtain ⟨rfl, rfl⟩ := Prod.mk.inj (Option.some.inj written)
    exact genuine_tagged (by decide) (by decide)
  · intro id payload written
    obtain ⟨rfl, rfl⟩ := Prod.mk.inj (Option.some.inj written)
    exact genuine_tagged (by decide) (by decide)

theorem reveal_own_relocation :
    .bound 0 "hunter2" ∈ [] ++ sealedBy someEditing ⟨taggingAead⟩ noSecrets relocation ∨
      Sealed.unbound "hunter2" ∈ [] :=
  reveal_own (fun _ _ absent => nomatch absent) relocation_unforged
    (reveal_described taggingAead_correct (describe_run relocation found_describe) 0)

theorem reveal_contents_relocation :
    reveal (someEditing.platform.keyed ⟨taggingAead⟩)
      (runSecrets someEditing ⟨taggingAead⟩ noSecrets relocation).db 0 = .ok "hunter2" :=
  reveal_contents taggingAead_correct noSecrets relocation 0

end AmberBackup
