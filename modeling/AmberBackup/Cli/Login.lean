import AmberBackup.Auth.DeviceAuthService

/-! # Logging in from the command line

`ambb login` asks a server for a pairing, shows its user code and polls with the device code until
the server issues a key, which it stores under the URL of the server. `ambb logout` has the server
revoke the stored key and then forgets it. Any number of these commands run on any number of
machines against any number of servers, between the requests of everybody else, and every request
and every response can get lost. The commands of one machine share a credential store: each loads
it when it starts and writes it as a whole.
-/

namespace AmberBackup.Cli.Login

open Auth (Pairings PairingAction PairingCall DeviceCode DeviceAccess Draw userCodeAlphabet)

/-! ## The credential store -/

/-- One server's credentials. -/
structure StoredLogin where
  /-- The id of the key's row stands for its text. -/
  apiKey : Uuid
  email : String
  access : DeviceAccess
  expiresAt : Option Nat
  deriving DecidableEq, Repr

structure CredentialStore where
  /-- The server that is used when none is given. -/
  current : String := ""
  servers : List (String × StoredLogin) := []
  deriving DecidableEq, Repr

namespace CredentialStore

def put (store : CredentialStore) (base : String) (login : StoredLogin) : CredentialStore where
  current := base
  servers := (base, login) :: store.servers.filter fun entry => entry.1 ≠ base

def remove (store : CredentialStore) (base : String) : CredentialStore where
  current := if store.current = base then "" else store.current
  servers := store.servers.filter fun entry => entry.1 ≠ base

end CredentialStore

/-! ## Revoking a key -/

/-- The response to a request that revokes the key it is made with. -/
inductive Answer where
  | revoked
  /-- No such key. -/
  | invalid
  | expired
  /-- The account of the key is disabled. -/
  | disabled
  | forbidden
  /-- The key was removed since it authenticated the request. -/
  | missing
  deriving DecidableEq, Repr

/-- HTTP 401. -/
def Answer.unauthorized : Answer → Bool
  | .invalid | .expired | .disabled => true
  | .revoked | .forbidden | .missing => false

inductive RevocationPhase where
  | authenticate
  | remove (user : Uuid)
  | answered (answer : Answer)
  deriving DecidableEq, Repr

/-- A call of `DELETE auth/device/key`. -/
structure Revocation where
  base : String
  key : Uuid
  phase : RevocationPhase := .authenticate
  deriving DecidableEq, Repr

def revokeRoute : Route where
  method := .delete
  anyApiKeyScope := true

/-- Who a key authenticates. -/
def fromApiKey (server : Pairings) (key : Uuid) : Except Answer Principal :=
  match server.apiKeys.get? key with
  | none => .error .invalid
  | some row =>
      match server.users.get? row.userId with
      | none => .error .invalid
      | some user =>
          if row.expiresAt.any fun expiresAt => expiresAt < server.now then .error .expired
          else if user.disabled then .error .disabled
          else .ok ⟨{ id := row.userId, isAdmin := user.isAdmin, apiKeyScopes := some row.scopes },
            .apiKey⟩

/-- The next statement of `revokeCurrentKey`, behind the guard of the routes. -/
def Revocation.step (server : Pairings) (addressAllowed : Bool) (revocation : Revocation) :
    Option (Pairings × RevocationPhase) :=
  match revocation.phase with
  | .authenticate =>
      match fromApiKey server revocation.key with
      | .error answer => some (server, .answered answer)
      | .ok principal =>
          if (canActivate revokeRoute principal addressAllowed).isOk then
            some (server, .remove principal.user.id)
          else some (server, .answered .forbidden)
  | .remove user =>
      if (server.apiKeys.get? revocation.key).any fun row => row.userId = user then
        (server.step (.removeApiKey revocation.key)).map fun next => (next, .answered .revoked)
      else some (server, .answered .missing)
  | .answered _ => none

/-! ## The commands -/

/-- `userCodeRE`. -/
def isDisplayedCode (text : String) : Bool :=
  let chars := text.toList
  chars.length = 9 && (chars.take 4).all userCodeAlphabet.contains && chars[4]? = some '-' &&
    (chars.drop 5).all userCodeAlphabet.contains

inductive Phase where
  /-- Waits for the response to the request of a pairing. -/
  | starting (call : Nat)
  /-- Sleeps until the next poll. -/
  | waiting (deviceCode : DeviceCode) (userCode : String) (interval deadline wakes : Nat)
  | polling (deviceCode : DeviceCode) (userCode : String) (interval deadline call : Nat)
  | loggedIn (login : StoredLogin)
  /-- Waits for the response to the request that revokes the key. -/
  | revoking (login : StoredLogin) (call : Nat)
  | loggedOut (login : StoredLogin) (call : Nat)
  | failed
  deriving DecidableEq, Repr

def Phase.running : Phase → Bool
  | .starting _ | .waiting .. | .polling .. | .revoking .. => true
  | .loggedIn _ | .loggedOut .. | .failed => false

/-- A run of `ambb login` or `ambb logout`. -/
structure Process where
  machine : Nat
  base : String
  /-- The store as it was loaded. -/
  store : CredentialStore
  /-- The call that has requested the pairing. -/
  requested : Option Nat := none
  phase : Phase
  deriving DecidableEq, Repr

/-- A key, and the device code it was issued for. -/
structure Issue where
  base : String
  deviceCode : DeviceCode
  key : Uuid
  deriving DecidableEq, Repr

/-- All servers, and the machines that the command line is used on. -/
structure Devices where
  now : Nat := 0
  servers : String → Pairings := fun _ => {}
  revocations : List Revocation := []
  stores : Nat → CredentialStore := fun _ => {}
  processes : List Process := []
  /-- What was drawn so far: the ids, and the keys they stand for, are random, so no two are equal. -/
  drawn : List Draw := []
  issues : List Issue := []

/-- The interval between polls, in milliseconds: what the server asks for, at least a second. -/
def pollInterval : Nat := max 5 1 * 1000

/-- How long a login waits: as long as the server says, at least a minute. -/
def loginTimeout : Nat := max 600 60 * 1000

/-- What is added to the interval when the server asks to slow down. -/
def slowDown : Nat := 5 * 1000

inductive DeviceAction where
  /-- What somebody else asks of a server, or the next statement of one of its calls. -/
  | serve (base : String) (action : PairingAction)
  | serveRevocation (call : Nat) (addressAllowed : Bool)
  | login (machine : Nat) (base clientName : String)
  | receiveCode (process : Nat)
  | poll (process : Nat)
  /-- A poll that the rate limit of the server rejects. -/
  | throttled (process : Nat)
  | receive (process : Nat) (saves : Bool)
  | logout (machine : Nat) (server : Option String)
  | receiveRevoked (process : Nat) (saves : Bool)
  /-- A request or a response gets lost, or the user stops the command. -/
  | breakOff (process : Nat)
  | tick (time : Nat)
  deriving DecidableEq, Repr

namespace Devices

def setServer (state : Devices) (base : String) (server : Pairings) : Devices :=
  { state with servers := Function.update state.servers base server }

def setPhase (state : Devices) (process : Nat) (phase : Phase) : Devices :=
  { state with processes := state.processes.modify process fun process => { process with phase } }

def save (state : Devices) (machine : Nat) (store : CredentialStore) : Devices :=
  { state with stores := Function.update state.stores machine store }

/-- Whether a command holds the device code. -/
def holds (state : Devices) (base : String) (code : DeviceCode) : Bool :=
  state.processes.any fun process => process.base = base && process.requested = some code.call

/-- What others can ask of a server: nobody polls with a code that is not drawn yet or that a
command holds, and nothing is drawn twice. -/
def admits (state : Devices) (base : String) : PairingAction → Bool
  | .exchange code => code.call < (state.servers base).calls.length && !state.holds base code
  | .proceed _ draw =>
      !state.drawn.any fun other => other.request = draw.request || other.key = draw.key
  | .tick _ => false
  | _ => true

/-- The key that a step of a server has issued. -/
def issued (base : String) (before after : Pairings) : PairingAction → List Issue
  | .proceed call _ =>
      match before.calls[call]?, after.calls[call]? with
      | some (.exchange deviceCode _ _), some (.answered (.approved key _ _ _)) =>
          [⟨base, deviceCode, key⟩]
      | _, _ => []
  | _ => []

def draws : PairingAction → List Draw
  | .proceed _ draw => [draw]
  | _ => []

def serve (state : Devices) (base : String) (action : PairingAction) : Option Devices :=
  ((state.servers base).step action).map fun next =>
    { state.setServer base next with
      drawn := state.drawn ++ draws action
      issues := state.issues ++ issued base (state.servers base) next action }

/-- What a login does with the response to its poll. -/
def receive (state : Devices) (index : Nat) (process : Process) (saves : Bool) :
    Auth.DeviceTokenResponse → Phase → Devices
  | .pending, .polling code shown interval deadline _ =>
      state.setPhase index (.waiting code shown interval deadline (state.now + interval))
  | .slowDown, .polling code shown interval deadline _ =>
      state.setPhase index (.waiting code shown (interval + slowDown) deadline
        (state.now + (interval + slowDown)))
  | .approved apiKey email access expiresAt, _ =>
      let login : StoredLogin := { apiKey, email, access, expiresAt }
      if saves then
        (state.save process.machine (process.store.put process.base login)).setPhase index
          (.loggedIn login)
      else state.setPhase index .failed
  | _, _ => state.setPhase index .failed

def step (state : Devices) : DeviceAction → Option Devices
  | .serve base action => if state.admits base action then state.serve base action else none
  | .serveRevocation call addressAllowed =>
      (state.revocations[call]?).bind fun revocation =>
        (revocation.step (state.servers revocation.base) addressAllowed).map fun (next, phase) =>
          { state.setServer revocation.base next with
            revocations := state.revocations.set call { revocation with phase } }
  | .login machine base clientName =>
      (state.serve base (.requestCode clientName)).map fun next =>
        { next with
          processes := state.processes ++
            [{ machine, base
               store := state.stores machine
               requested := some (state.servers base).calls.length
               phase := .starting (state.servers base).calls.length }] }
  | .receiveCode index =>
      (state.processes[index]?).bind fun process =>
        match process.phase with
        | .starting call =>
            match (state.servers process.base).calls[call]? with
            | some (.requested deviceCode userCode) =>
                if isDisplayedCode userCode then
                  some (state.setPhase index (.waiting deviceCode userCode pollInterval
                    (state.now + loginTimeout) (state.now + pollInterval)))
                else some (state.setPhase index .failed)
            | some .failed => some (state.setPhase index .failed)
            | _ => none
        | _ => none
  | .poll index =>
      (state.processes[index]?).bind fun process =>
        match process.phase with
        | .waiting code shown interval deadline wakes =>
            if state.now < wakes then none
            else if deadline < state.now then some (state.setPhase index .failed)
            else
              (state.serve process.base (.exchange code)).map fun next =>
                next.setPhase index (.polling code shown interval deadline
                  (state.servers process.base).calls.length)
        | _ => none
  | .throttled index =>
      (state.processes[index]?).bind fun process =>
        match process.phase with
        | .waiting code shown interval deadline wakes =>
            if state.now < wakes then none
            else if deadline < state.now then some (state.setPhase index .failed)
            else
              some (state.setPhase index (.waiting code shown (interval + slowDown) deadline
                (state.now + (interval + slowDown))))
        | _ => none
  | .receive index saves =>
      (state.processes[index]?).bind fun process =>
        match process.phase with
        | .polling _ _ _ _ call =>
            match (state.servers process.base).calls[call]? with
            | some (.answered response) =>
                some (state.receive index process saves response process.phase)
            | _ => none
        | _ => none
  | .logout machine server =>
      let store := state.stores machine
      let base := server.getD store.current
      if base = "" then none
      else
        (store.servers.lookup base).map fun login =>
          { state with
            revocations := state.revocations ++ [{ base, key := login.apiKey }]
            processes := state.processes ++
              [{ machine, base, store, phase := .revoking login state.revocations.length }] }
  | .receiveRevoked index saves =>
      (state.processes[index]?).bind fun process =>
        match process.phase with
        | .revoking login call =>
            match (state.revocations[call]?).map Revocation.phase with
            | some (.answered answer) =>
                if answer = .revoked || answer.unauthorized then
                  if saves then
                    some ((state.save process.machine (process.store.remove process.base)).setPhase
                      index (.loggedOut login call))
                  else some (state.setPhase index .failed)
                else some (state.setPhase index .failed)
            | _ => none
        | _ => none
  | .breakOff index =>
      (state.processes[index]?).bind fun process =>
        if process.phase.running then some (state.setPhase index .failed) else none
  | .tick time =>
      if state.now ≤ time then
        some { state with
          now := time, servers := fun base => { state.servers base with now := time } }
      else none

end Devices

/-- From servers without requests, keys and users and machines without credentials on. -/
def devices : Transition.System Devices DeviceAction where
  initial := fun state => state = {}
  step := Devices.step

end AmberBackup.Cli.Login
