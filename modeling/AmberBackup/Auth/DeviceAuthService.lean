import AmberBackup.Auth.TotpService
import AmberBackup.Common.AuthGuard
import AmberBackup.Lib.Pool
import AmberBackup.Lib.Transition

/-! # Device pairing

A device requests a secret device code and a short user code, a signed-in user approves or
denies the user code, and the device polls with its device code until a poll claims the
approved request and creates an API key. Each statement and each transaction is one step;
the polls of a device may overlap, and expired requests are purged a day later. A displayed
user code is read back as the code it was made of (`normalizeUserCode_format`).
-/

namespace AmberBackup.Auth

open Relational Transition

/-! ## User codes -/

/-- Consonants without look-alikes. -/
def userCodeAlphabet : List Char := "BCDFGHJKLMNPQRSTVWXZ".toList

/-- `USER_CODE_RE`. -/
def isUserCode (code : String) : Bool :=
  code.toList.length = 8 && code.toList.all userCodeAlphabet.contains

def formatUserCode (code : String) : String :=
  String.ofList (code.toList.take 4 ++ '-' :: code.toList.drop 4)

/-- `String.prototype.toUpperCase`, as far as it yields nothing but letters of the alphabet;
a character for which it does not is left as it is. -/
def upperCase (char : Char) : List Char :=
  if char = 'ſ' then ['S']
  else if char = 'ß' then ['S', 'S']
  else if char = 'ﬀ' then ['F', 'F']
  else if char = 'ﬂ' then ['F', 'L']
  else if char = 'ﬄ' then ['F', 'F', 'L']
  else if char = 'ﬅ' || char = 'ﬆ' then ['S', 'T']
  else [char.toUpper]

/-- The code without case, dashes and spaces, if it is one. -/
def normalizeUserCode (input : String) : Option String :=
  let code := String.ofList ((input.toList.flatMap upperCase).filter fun char =>
    !(isTrimmed char || char = '-'))
  if isUserCode code then some code else none

theorem upperCase_of_alphabet {char : Char} (member : char ∈ userCodeAlphabet) :
    upperCase char = [char] ∧ (!(isTrimmed char || char = '-')) = true := by
  have checked : userCodeAlphabet.all (fun char =>
      upperCase char = [char] && !(isTrimmed char || char = '-')) = true := by decide
  have holds := List.all_eq_true.mp checked char member
  rw [Bool.and_eq_true, decide_eq_true_eq] at holds
  exact holds

theorem filter_upperCase {code : List Char} (letters : ∀ char ∈ code, char ∈ userCodeAlphabet) :
    ((code.flatMap upperCase).filter fun char => !(isTrimmed char || char = '-')) = code := by
  induction code with
  | nil => rfl
  | cons char rest ih =>
      obtain ⟨upper, kept⟩ := upperCase_of_alphabet (letters char List.mem_cons_self)
      rw [List.flatMap_cons, upper, List.singleton_append, List.filter_cons, if_pos kept,
        ih fun other member => letters other (List.mem_cons_of_mem char member)]

/-- A generated code is read back from the form it is displayed in. -/
theorem normalizeUserCode_format {code : String} (generated : isUserCode code = true) :
    normalizeUserCode (formatUserCode code) = some code := by
  have letters : ∀ char ∈ code.toList, char ∈ userCodeAlphabet := by
    simp only [isUserCode, Bool.and_eq_true, List.all_eq_true, List.contains_iff_mem] at generated
    exact generated.2
  have dash : (['-'].flatMap upperCase).filter
      (fun char => !(isTrimmed char || char = '-')) = [] := by decide
  have kept : (((formatUserCode code).toList.flatMap upperCase).filter fun char =>
      !(isTrimmed char || char = '-')) = code.toList := by
    rw [formatUserCode, String.toList_ofList, List.flatMap_append, List.filter_append,
      ← List.singleton_append, List.flatMap_append, List.filter_append, dash, List.nil_append,
      filter_upperCase fun char member => letters char (List.mem_of_mem_take member),
      filter_upperCase fun char member => letters char (List.mem_of_mem_drop member),
      List.take_append_drop]
  simp only [normalizeUserCode, kept, String.ofList_toList, generated, if_true]

/-! ## Requests -/

/-- A device code is 256 random bits: no two calls draw the same one. -/
structure DeviceCode where
  /-- The call that has drawn it. -/
  call : Nat
  deriving DecidableEq, Repr

inductive PairingStatus where
  | pending | approved | denied | consumed
  deriving DecidableEq, Repr

inductive DeviceAccess where
  | full | read
  deriving DecidableEq, Repr

/-- A row of `device_authorizations`. -/
structure DeviceAuthorization where
  deviceCodeHash : TokenHash DeviceCode
  userCodeHash : TokenHash String
  clientName : String
  status : PairingStatus := .pending
  userId : Option Uuid := none
  access : Option DeviceAccess := none
  keyExpiresInDays : Option Nat := none
  apiKeyId : Option Uuid := none
  expiresAt : Nat
  lastPolledAt : Option Nat := none
  decidedAt : Option Nat := none
  deriving DecidableEq, Repr

/-- A row of `api_keys` that a pairing has created. -/
structure IssuedKey where
  userId : Uuid
  name : String
  scopes : ApiKeyScopes
  expiresAt : Option Nat
  deriving DecidableEq, Repr

structure DeviceApproveDto where
  userCode : String
  access : DeviceAccess
  expiresInDays : Option Nat := none
  deriving DecidableEq, Repr

/-- What the decorators of `DeviceUserCodeDto` ask of a user code. -/
def userCodeFits (userCode : String) : Bool :=
  8 ≤ userCode.toList.length && userCode.toList.length ≤ 12

def DeviceApproveDto.valid (dto : DeviceApproveDto) : Bool :=
  userCodeFits dto.userCode && dto.expiresInDays.all fun days => 1 ≤ days && days ≤ 3650

inductive DeviceTokenResponse where
  | pending | slowDown | denied | expired
  | approved (apiKey : Uuid) (email : String) (access : DeviceAccess) (expiresAt : Option Nat)
  deriving DecidableEq, Repr

/-- `DeviceAuthService.exchange`, before each of its statements. -/
inductive ExchangePhase where
  | select
  | touch (request : Uuid) (tooFast : Bool)
  | claim (request : Uuid)
  deriving DecidableEq, Repr

inductive PairingCall where
  /-- `requestCode`, before an insert; the attempts before it hit a stored user code. -/
  | requestCode (clientName : String) (deviceCode : DeviceCode) (expiresAt attempt : Nat)
  /-- A poll, with the instant it was called at. -/
  | exchange (deviceCode : DeviceCode) (now : Nat) (phase : ExchangePhase)
  | requested (deviceCode : DeviceCode) (userCode : String)
  | answered (response : DeviceTokenResponse)
  | failed
  deriving DecidableEq, Repr

/-- What has become of the request with a device code. -/
inductive PairingEvent where
  | approved (code : DeviceCode) (principal : Principal) (access : DeviceAccess)
      (days : Option Nat) (decidedAt expiresAt : Nat)
  | denied (code : DeviceCode)
  /-- A poll that was called at `polledAt` has created the key. -/
  | issued (code : DeviceCode) (key : IssuedKey) (createdAt polledAt expiresAt : Nat)
  deriving DecidableEq, Repr

/-- The tables the pairings work on, the calls so far, and what has become of them. -/
structure Pairings where
  now : Nat := 0
  users : Table Uuid User := .empty
  requests : Table Uuid DeviceAuthorization := .empty
  apiKeys : Table Uuid IssuedKey := .empty
  calls : List PairingCall := []
  journal : List PairingEvent := []

/-- What a step draws: the ids of rows it inserts, and a generated user code. -/
structure Draw where
  request : Uuid := 0
  key : Uuid := 0
  userCode : String := ""
  deriving DecidableEq, Repr

inductive PairingAction where
  | requestCode (clientName : String)
  | exchange (deviceCode : DeviceCode)
  | proceed (call : Nat) (draw : Draw)
  | approve (principal : Principal) (addressAllowed : Bool) (dto : DeviceApproveDto)
  | deny (principal : Principal) (addressAllowed : Bool) (userCode : String)
  | purgeExpired
  | createUser (id : Uuid) (user : User)
  | updateUser (id : Uuid) (disabled isAdmin : Bool)
  | removeUser (id : Uuid)
  | removeApiKey (id : Uuid)
  | tick (time : Nat)
  deriving DecidableEq, Repr

/-- How long a request stays valid, in milliseconds. -/
def deviceCodeTtl : Nat := 600 * 1000

/-- A second less than the shortest time between two polls. -/
def pollTolerance : Nat := (5 - 1) * 1000

/-- How long a request is kept after it has expired. -/
def retention : Nat := 24 * 3600 * 1000

/-- The route that decides a pairing. -/
def decisionRoute : Route where
  method := .post
  noApiKey := true

def DeviceAccess.scopes : DeviceAccess → ApiKeyScopes
  | .read => { actions := ["read"] }
  | .full => { actions := ["*"] }

/-- `ApiKeysService.create` for a claimed request. -/
def createdKey (user : Uuid) (clientName : String) (access : DeviceAccess) (days : Option Nat)
    (now : Nat) : IssuedKey where
  userId := user
  name := "CLI: " ++ clientName
  scopes := access.scopes
  expiresAt := (days.filter (· ≠ 0)).map fun days => now + days * 86400000

/-- The pending request a decision hits. -/
def decides (code : String) (now : Nat) (_ : Uuid) (row : DeviceAuthorization) : Bool :=
  row.userCodeHash = hashToken code && row.status = .pending && now < row.expiresAt

namespace Pairings

/-- `requestCode`'s insert of a request under a drawn user code. -/
def insertRequest (state : Pairings) (clientName : String) (deviceCode : DeviceCode)
    (expiresAt attempt : Nat) (draw : Draw) : Option (Pairings × PairingCall) :=
  if !isUserCode draw.userCode || (state.requests.get? draw.request).isSome then none
  else if state.requests.anyWhere fun _ row => row.deviceCodeHash = hashToken deviceCode ||
      row.userCodeHash = hashToken draw.userCode then
    if attempt < 3 then some (state, .requestCode clientName deviceCode expiresAt (attempt + 1))
    else some (state, .failed)
  else
    some ({ state with
      requests := state.requests.insert draw.request {
        deviceCodeHash := hashToken deviceCode
        userCodeHash := hashToken draw.userCode
        clientName := trim clientName
        expiresAt := expiresAt } }, .requested deviceCode (formatUserCode draw.userCode))

/-- The first read of a poll. -/
def selectRequest (state : Pairings) (deviceCode : DeviceCode) (now : Nat) : PairingCall :=
  match state.requests.rows.find? fun entry =>
      entry.2.deviceCodeHash = hashToken deviceCode with
  | none => .answered .expired
  | some (id, row) =>
      if row.status = .consumed || row.expiresAt ≤ now then .answered .expired
      else
        match row.status with
        | .denied => .answered .denied
        | .pending =>
            let tooFast : Bool := row.lastPolledAt.any fun polled => now < polled + pollTolerance
            .exchange deviceCode now (.touch id tooFast)
        | .approved | .consumed => .exchange deviceCode now (.claim id)

/-- The transaction of `claim`. -/
def claim (state : Pairings) (request : Uuid) (now : Nat) (draw : Draw) :
    Option (Pairings × PairingCall) :=
  match (state.requests.get? request).filter fun row =>
      row.status = .approved && now < row.expiresAt with
  | none => some (state, .answered .expired)
  | some row =>
      let consumed := { state with
        requests := state.requests.update (fun id _ => id = request) fun row =>
          { row with status := .consumed, lastPolledAt := some now } }
      match row.userId, row.access with
      | some userId, some access =>
          match (state.users.get? userId).filter fun user => !user.disabled with
          | none => some (consumed, .answered .expired)
          | some user =>
              if (state.apiKeys.get? draw.key).isSome then none
              else
                let key := createdKey userId row.clientName access row.keyExpiresInDays state.now
                some ({ consumed with
                  apiKeys := state.apiKeys.insert draw.key key
                  requests := consumed.requests.update (fun id _ => id = request) fun row =>
                    { row with apiKeyId := some draw.key }
                  journal := state.journal ++
                    [.issued row.deviceCodeHash.token key state.now now row.expiresAt] },
                  .answered (.approved draw.key user.email access key.expiresAt))
      | _, _ => some (consumed, .answered .expired)

/-- One statement of a call, with what the call does up to its next one. -/
def statement (state : Pairings) (draw : Draw) : PairingCall → Option (Pairings × PairingCall)
  | .requestCode clientName deviceCode expiresAt attempt =>
      state.insertRequest clientName deviceCode expiresAt attempt draw
  | .exchange deviceCode now .select => some (state, state.selectRequest deviceCode now)
  | .exchange _ now (.touch request tooFast) =>
      some ({ state with
        requests := state.requests.update (fun id _ => id = request) fun row =>
          { row with lastPolledAt := some now } },
        .answered (if tooFast then .slowDown else .pending))
  | .exchange _ now (.claim request) => state.claim request now draw
  | .requested .. | .answered _ | .failed => none

/-- The update of a decision, if the guard admits the principal and a request is hit. -/
def decide (state : Pairings) (principal : Principal) (addressAllowed : Bool) (userCode : String)
    (change : DeviceAuthorization → DeviceAuthorization)
    (event : DeviceAuthorization → PairingEvent) : Option Pairings :=
  if !(canActivate decisionRoute principal addressAllowed).isOk then none
  else
    (normalizeUserCode userCode).bind fun code =>
      let hits := decides code state.now
      if !state.requests.anyWhere hits || (state.users.get? principal.user.id).isNone then none
      else
        some { state with
          requests := state.requests.update hits change
          journal := state.journal ++
            (state.requests.rows.filter fun entry => hits entry.1 entry.2).map fun entry =>
              event entry.2 }

def step (state : Pairings) : PairingAction → Option Pairings
  | .requestCode clientName =>
      some { state with
        calls := state.calls ++
          [.requestCode clientName ⟨state.calls.length⟩ (state.now + deviceCodeTtl) 0] }
  | .exchange deviceCode =>
      some { state with calls := state.calls ++ [.exchange deviceCode state.now .select] }
  | .proceed index draw =>
      (state.calls[index]?).bind fun call =>
        (state.statement draw call).map fun (next, after) =>
          { next with calls := state.calls.set index after }
  | .approve principal addressAllowed dto =>
      if dto.valid then
        state.decide principal addressAllowed dto.userCode
          (fun row =>
            { row with
              status := .approved, userId := some principal.user.id, access := some dto.access
              keyExpiresInDays := dto.expiresInDays, decidedAt := some state.now })
          fun row => .approved row.deviceCodeHash.token principal dto.access dto.expiresInDays
            state.now row.expiresAt
      else none
  | .deny principal addressAllowed userCode =>
      if userCodeFits userCode then
        state.decide principal addressAllowed userCode
          (fun row =>
            { row with
              status := .denied, userId := some principal.user.id, decidedAt := some state.now })
          fun row => .denied row.deviceCodeHash.token
      else none
  | .purgeExpired =>
      some { state with
        requests := state.requests.delete fun _ row => row.expiresAt + retention < state.now }
  | .createUser id user =>
      if (state.users.get? id).isSome then none
      else some { state with users := state.users.insert id user }
  | .updateUser id disabled isAdmin =>
      some { state with
        users := state.users.update (fun other _ => other = id) fun user =>
          { user with disabled := disabled, isAdmin := isAdmin } }
  | .removeUser id =>
      some { state with
        users := state.users.delete fun other _ => other = id
        requests := state.requests.delete fun _ row => row.userId = some id
        apiKeys := state.apiKeys.delete fun _ key => key.userId = id }
  | .removeApiKey id =>
      some { state with
        apiKeys := state.apiKeys.delete fun other _ => other = id
        requests := state.requests.update (fun _ row => row.apiKeyId = some id) fun row =>
          { row with apiKeyId := none } }
  | .tick time => if state.now ≤ time then some { state with now := time } else none

end Pairings

/-- The server, from a database without requests, keys and users on. -/
def pairings : System Pairings PairingAction where
  initial := fun state => state = {}
  step := Pairings.step

end AmberBackup.Auth
