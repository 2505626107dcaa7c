import AmberBackup.Auth.PairingSteps
import AmberBackup.Cli.Login

/-! # The calls of the command line

What a server knows is bound to what was drawn (`ServerSound`), and what a command knows to its
own call (`PhaseSound`). Neither is disturbed by what else happens on the server, as long as nobody
else polls with the device code of the command (`ServerSound.step`, `PhaseSound.served`).
-/

namespace AmberBackup.Cli.Login

open Relational
open Auth (Pairings PairingAction PairingCall PairingEvent DeviceCode DeviceAuthorization Draw
  isUserCode formatUserCode hashToken userCodeAlphabet PairingProgress PairingStep)

/-! ## A server -/

/-- Every id of the server was drawn, and what its calls are about is theirs. -/
structure ServerSound (drawn : List Draw) (server : Pairings) : Prop where
  sound : server.Sound
  requests : ∀ id row, server.requests.get? id = some row → ∃ draw ∈ drawn, draw.request = id
  keys : ∀ id key, server.apiKeys.get? id = some key → ∃ draw ∈ drawn, draw.key = id
  owners : ∀ id key, server.apiKeys.get? id = some key →
    (server.users.get? key.userId).isSome = true
  asked : ∀ (index : Nat) (code : DeviceCode) (polledAt : Nat) (phase : Auth.ExchangePhase),
    server.calls[index]? = some (.exchange code polledAt phase) → code.call < server.calls.length
  /-- A poll is about the request with its device code. -/
  polls : ∀ (index : Nat) (code : DeviceCode) (polledAt : Nat) (phase : Auth.ExchangePhase)
    (request : Uuid), server.calls[index]? = some (.exchange code polledAt phase) →
      (phase = .claim request ∨ ∃ tooFast, phase = .touch request tooFast) →
        (∃ draw ∈ drawn, draw.request = request) ∧
          ∀ row, server.requests.get? request = some row → row.code = code
  /-- A code that is shown is the one the request is found by. -/
  shown : ∀ (index : Nat) (code : DeviceCode) (text : String),
    server.calls[index]? = some (.requested code text) → code = ⟨index⟩ ∧
      ∃ userCode, isUserCode userCode = true ∧ text = formatUserCode userCode ∧
        ∀ id row, server.requests.get? id = some row → row.code = code →
          row.userCodeHash = hashToken userCode

section Servers

variable {drawn : List Draw} {server after : Pairings} {action : PairingAction}

/-- Nothing that the action draws was drawn before. -/
def Fresh (drawn : List Draw) (action : PairingAction) : Prop :=
  ∀ draw ∈ Devices.draws action, ∀ other ∈ drawn,
    other.request ≠ draw.request ∧ other.key ≠ draw.key

theorem fresh_of_nothing (nothing : Devices.draws action = []) : Fresh drawn action := by
  intro draw member
  rw [nothing] at member
  cases member

/-- Where a call comes from: it was there, it has just begun, or a statement led to it. -/
theorem call_after (step : PairingStep server action after) {index : Nat} {call : PairingCall}
    (found : after.calls[index]? = some call) :
    server.calls[index]? = some call ∨
      (index = server.calls.length ∧
        ((∃ clientName, action = .requestCode clientName ∧
            call = .requestCode clientName ⟨index⟩ (server.now + Auth.deviceCodeTtl) 0) ∨
          ∃ code, action = .exchange code ∧ call = .exchange code server.now .select)) ∨
      ∃ draw old next, action = .proceed index draw ∧ server.calls[index]? = some old ∧
        PairingProgress server draw old next call := by
  have appended : ∀ {new : PairingCall}, (server.calls ++ [new])[index]? = some call →
      server.calls[index]? = some call ∨ index = server.calls.length ∧ call = new := by
    intro new found
    rw [List.getElem?_append] at found
    split at found
    · exact .inl found
    · next past =>
        rw [List.getElem?_singleton] at found
        split at found
        · next zero => exact .inr ⟨by omega, (Option.some.inj found).symm⟩
        · cases found
  cases step with
  | requestCode clientName =>
      rcases appended found with old | ⟨here, rfl⟩
      · exact .inl old
      · exact .inr (.inl ⟨here, .inl ⟨clientName, rfl, by rw [here]⟩⟩)
  | exchange deviceCode =>
      rcases appended found with old | ⟨here, rfl⟩
      · exact .inl old
      · exact .inr (.inl ⟨here, .inr ⟨deviceCode, rfl, rfl⟩⟩)
  | @proceed own draw old next after' present progress =>
      change (server.calls.set own next)[index]? = some call at found
      rw [List.getElem?_set] at found
      split at found
      · next same =>
          subst same
          split at found
          · obtain rfl := Option.some.inj found
            exact .inr (.inr ⟨draw, old, after', rfl, present, progress⟩)
          · cases found
      · exact .inl found
  | aside _ _ aside => exact .inl (aside.calls ▸ found)

theorem length_after (step : PairingStep server action after) :
    server.calls.length ≤ after.calls.length := by
  cases step with
  | requestCode clientName => simp
  | exchange deviceCode => simp
  | aside _ _ aside => exact Nat.le_of_eq (congrArg List.length aside.calls).symm
  | proceed present progress => exact Nat.le_of_eq (List.length_set ..).symm

/-- A request that was there, polled since or not. -/
def KeptRequest (server : Pairings) (action : PairingAction) (id : Uuid)
    (row : DeviceAuthorization) : Prop :=
  ∃ old, server.requests.get? id = some old ∧ row.code = old.code ∧
    row.userCodeHash = old.userCodeHash ∧ (row.lastPolledAt = old.lastPolledAt ∨
      ∃ index draw code polledAt phase, action = .proceed index draw ∧
        server.calls[index]? = some (.exchange code polledAt phase) ∧
        (phase = .claim id ∨ ∃ tooFast, phase = .touch id tooFast) ∧
        row.lastPolledAt = some polledAt)

/-- A request that a call has just stored. -/
def NewRequest (server after : Pairings) (action : PairingAction) (id : Uuid)
    (row : DeviceAuthorization) : Prop :=
  ∃ index draw call, action = .proceed index draw ∧ server.calls[index]? = some call ∧
    call.drawing = some row.code ∧ id = draw.request ∧ isUserCode draw.userCode = true ∧
    row.userCodeHash = hashToken draw.userCode ∧ row.lastPolledAt = none ∧
    after.calls[index]? = some (.requested row.code (formatUserCode draw.userCode))

theorem set_self {calls : List PairingCall} {index : Nat} {old : PairingCall}
    (present : calls[index]? = some old) (new : PairingCall) :
    (calls.set index new)[index]? = some new := by
  have below := (List.getElem?_eq_some_iff.mp present).1
  rw [List.getElem?_set_self below]

theorem request_after (step : PairingStep server action after) {id : Uuid}
    {row : DeviceAuthorization} (found : after.requests.get? id = some row) :
    KeptRequest server action id row ∨ NewRequest server after action id row := by
  have kept : server.requests.get? id = some row → KeptRequest server action id row :=
    fun present => ⟨row, present, rfl, rfl, .inl rfl⟩
  have polled : ∀ {index : Nat} {draw : Draw} {code : DeviceCode} {polledAt : Nat}
      {phase : Auth.ExchangePhase} {request : Uuid} {requests : Table Uuid DeviceAuthorization},
      action = .proceed index draw → server.calls[index]? = some (.exchange code polledAt phase) →
      (phase = .claim request ∨ ∃ tooFast, phase = .touch request tooFast) →
      Auth.Polled server.requests requests request polledAt → requests.get? id = some row →
        KeptRequest server action id row := by
    intro index draw code polledAt phase request requests proceeds present about polled listed
    obtain ⟨old, before, same, hash, written⟩ := polled id row listed
    refine ⟨old, before, same, hash, ?_⟩
    split at written
    · next here =>
        subst here
        exact .inr ⟨index, draw, code, polledAt, phase, proceeds, present, about, written⟩
    · exact .inl written
  cases step with
  | requestCode clientName => exact .inl (kept found)
  | exchange deviceCode => exact .inl (kept found)
  | aside _ _ aside =>
      obtain ⟨old, before, same⟩ := aside.requests id row found
      exact .inl ⟨old, before, same.code, same.userCodeHash, .inl same.lastPolledAt⟩
  | @proceed index draw call next written present progress =>
      cases progress with
      | retried | refused | closed | pending | approved | lapsed => exact .inl (kept found)
      | touched touches => exact .inl (polled rfl present (.inr ⟨_, rfl⟩) touches found)
      | consumed touches => exact .inl (polled rfl present (.inl rfl) touches found)
      | issued _ touches => exact .inl (polled rfl present (.inl rfl) touches found)
      | @stored clientName code expiresAt attempt new generated fresh mine shown unpolled =>
          change (server.requests.insert draw.request new).get? id = some row at found
          rw [Table.get?_insert fresh] at found
          split at found
          · next here =>
              obtain rfl := Option.some.inj found
              refine .inr ⟨index, draw, _, rfl, present, ?_, here, generated, shown, unpolled, ?_⟩
              · exact congrArg some mine.symm
              · rw [mine]
                exact set_self present _
          · exact .inl (kept found)

theorem key_after (step : PairingStep server action after) {id : Uuid} {key : Auth.IssuedKey}
    (found : after.apiKeys.get? id = some key) :
    server.apiKeys.get? id = some key ∨ ∃ draw ∈ Devices.draws action, draw.key = id := by
  cases step with
  | requestCode clientName => exact .inl found
  | exchange deviceCode => exact .inl found
  | aside _ _ aside => exact .inl (aside.keys id key found)
  | @proceed index draw call next written present progress =>
      cases progress with
      | retried | refused | closed | pending | approved | lapsed | stored | touched | consumed =>
          exact .inl found
      | @issued code polledAt request owner row account access requests _ _ _ unused =>
          change (server.apiKeys.insert draw.key _).get? id = some key at found
          rw [Table.get?_insert unused] at found
          split at found
          · next here => exact .inr ⟨draw, List.mem_singleton_self draw, here.symm⟩
          · exact .inl found

theorem owner_after (step : PairingStep server action after)
    (owners : ∀ id key, server.apiKeys.get? id = some key →
      (server.users.get? key.userId).isSome = true)
    {id : Uuid} {key : Auth.IssuedKey} (found : after.apiKeys.get? id = some key) :
    (after.users.get? key.userId).isSome = true := by
  cases step with
  | requestCode clientName => exact owners id key found
  | exchange deviceCode => exact owners id key found
  | aside _ _ aside => exact aside.owners id key found (owners id key (aside.keys id key found))
  | @proceed index draw call next written present progress =>
      cases progress with
      | retried | refused | closed | pending | approved | lapsed | stored | touched | consumed =>
          exact owners id key found
      | @issued code polledAt request owner row account access requests _ _ enabled unused =>
          change (server.apiKeys.insert draw.key _).get? id = some key at found
          change (server.users.get? key.userId).isSome = true
          rw [Table.get?_insert unused] at found
          split at found
          · obtain rfl := Option.some.inj found
            change (server.users.get? owner).isSome = true
            rw [enabled]
            rfl
          · exact owners id key found

theorem ServerSound.mono {later : List Draw} (known : ServerSound drawn server)
    (grows : drawn ⊆ later) : ServerSound later server where
  sound := known.sound
  requests := by
    intro id row found
    obtain ⟨draw, member, same⟩ := known.requests id row found
    exact ⟨draw, grows member, same⟩
  keys := by
    intro id key found
    obtain ⟨draw, member, same⟩ := known.keys id key found
    exact ⟨draw, grows member, same⟩
  owners := known.owners
  asked := known.asked
  polls := by
    intro index code polledAt phase request found about
    obtain ⟨⟨draw, member, same⟩, rows⟩ := known.polls index code polledAt phase request found about
    exact ⟨⟨draw, grows member, same⟩, rows⟩
  shown := known.shown

/-- An id that was drawn is not the one of a request that is stored now. -/
theorem not_new_of_drawn (fresh : Fresh drawn action) {id : Uuid} {row : DeviceAuthorization}
    (listed : ∃ draw ∈ drawn, draw.request = id) : ¬ NewRequest server after action id row := by
  rintro ⟨index, draw, call, rfl, -, -, same, -⟩
  obtain ⟨other, member, rfl⟩ := listed
  exact (fresh draw (List.mem_singleton_self draw) other member).1 same

theorem ServerSound.step (known : ServerSound drawn server) (fresh : Fresh drawn action)
    (asks : ∀ code, action = .exchange code → code.call < server.calls.length)
    (moved : server.step action = some after) :
    ServerSound (drawn ++ Devices.draws action) after := by
  have step := Auth.Pairings.step_spec moved
  have rowCode : ∀ {request : Uuid} {code : DeviceCode}, (∃ draw ∈ drawn, draw.request = request) →
      (∀ row, server.requests.get? request = some row → row.code = code) →
      ∀ row, after.requests.get? request = some row → row.code = code := by
    intro request code listed before row found
    rcases request_after step found with ⟨old, present, same, -⟩ | new
    · exact same.trans (before old present)
    · exact absurd new (not_new_of_drawn fresh listed)
  refine ⟨known.sound.step moved, ?_, ?_, ?_, ?_, ?_, ?_⟩
  · intro id row found
    rcases request_after step found with ⟨old, before, -⟩ | ⟨index, draw, call, rfl, -, -, same, -⟩
    · obtain ⟨draw, member, same⟩ := known.requests id old before
      exact ⟨draw, List.mem_append_left _ member, same⟩
    · exact ⟨draw, List.mem_append_right _ (List.mem_singleton_self draw), same.symm⟩
  · intro id key found
    rcases key_after step found with before | ⟨draw, member, same⟩
    · obtain ⟨draw, member, same⟩ := known.keys id key before
      exact ⟨draw, List.mem_append_left _ member, same⟩
    · exact ⟨draw, List.mem_append_right _ member, same⟩
  · intro id key found
    exact owner_after step known.owners found
  · intro index code polledAt phase found
    refine Nat.lt_of_lt_of_le ?_ (length_after step)
    rcases call_after step found with old | ⟨-, ⟨_, -, began⟩ | ⟨_, moved, began⟩⟩ |
        ⟨draw, old, next, -, present, progress⟩
    · exact known.asked index code polledAt phase old
    · cases began
    · cases began
      exact asks code moved
    · cases progress with
      | pending | approved => exact known.asked index code polledAt _ present
  · intro index code polledAt phase request found about
    have extend : (∃ draw ∈ drawn, draw.request = request) →
        ∃ draw ∈ drawn ++ Devices.draws action, draw.request = request := by
      rintro ⟨draw, member, same⟩
      exact ⟨draw, List.mem_append_left _ member, same⟩
    rcases call_after step found with old | ⟨-, ⟨_, -, began⟩ | ⟨_, -, began⟩⟩ |
        ⟨draw, old, next, -, present, progress⟩
    · obtain ⟨listed, rows⟩ := known.polls index code polledAt phase request old about
      exact ⟨extend listed, rowCode listed rows⟩
    · cases began
    · cases began
      rcases about with none | ⟨_, none⟩ <;> cases none
    · cases progress with
      | pending here mine =>
          obtain rfl : _ = request := by
            rcases about with none | ⟨_, same⟩
            · cases none
            · exact (Auth.ExchangePhase.touch.inj same).1
          refine ⟨extend (known.requests _ _ here), rowCode (known.requests _ _ here) ?_⟩
          intro row found
          exact (Option.some.inj (here.symm.trans found)) ▸ mine
      | approved here mine =>
          obtain rfl : _ = request := by
            rcases about with same | ⟨_, none⟩
            · exact Auth.ExchangePhase.claim.inj same
            · cases none
          refine ⟨extend (known.requests _ _ here), rowCode (known.requests _ _ here) ?_⟩
          intro row found
          exact (Option.some.inj (here.symm.trans found)) ▸ mine
  · intro index code text found
    have rows : ∀ {userCode : String},
        (∀ id row, server.requests.get? id = some row → row.code = code →
          row.userCodeHash = hashToken userCode) →
        (∀ id row, NewRequest server after action id row → row.code = code →
          row.userCodeHash = hashToken userCode) →
        ∀ id row, after.requests.get? id = some row → row.code = code →
          row.userCodeHash = hashToken userCode := by
      intro userCode before new id row present same
      rcases request_after step present with ⟨old, stored, code', hash, -⟩ | stored
      · exact hash.trans (before id old stored (code'.symm.trans same))
      · exact new id row stored same
    rcases call_after step found with old | ⟨-, ⟨_, -, began⟩ | ⟨_, -, began⟩⟩ |
        ⟨draw, old, next, rfl, present, progress⟩
    · obtain ⟨rfl, userCode, generated, displayed, hashes⟩ := known.shown index code text old
      refine ⟨rfl, userCode, generated, displayed, rows hashes ?_⟩
      rintro id row ⟨other, draw, call, rfl, stored, drew, -⟩ same
      obtain ⟨mine, -⟩ := known.sound.drawing other call row.code stored drew
      rw [same] at mine
      obtain rfl : index = other := congrArg DeviceCode.call mine
      rw [old] at stored
      obtain rfl := Option.some.inj stored
      cases drew
    · cases began
    · cases began
    · cases progress with
      | @stored clientName code' expiresAt attempt row generated unused mine shown unpolled =>
          obtain ⟨own, none, -⟩ := known.sound.drawing index _ code present rfl
          refine ⟨own, draw.userCode, generated, rfl, rows ?_ ?_⟩
          · intro id row stored same
            exact absurd same (none id row stored)
          · rintro id row ⟨other, draw', call, same', -, -, -, -, hash, -⟩ -
            cases same'
            exact hash

end Servers

/-! ## A command -/

/-- No poll of the request with the code is less than the pause before the instant. -/
def PolledBy (server : Pairings) (code : DeviceCode) (pause time : Nat) : Prop :=
  ∀ id row, server.requests.get? id = some row → row.code = code →
    ∀ polled, row.lastPolledAt = some polled → polled + pause ≤ time

/-- The only call that polls with the code is the given one, if any. -/
def OnlyPoll (server : Pairings) (code : DeviceCode) (call : Option Nat) : Prop :=
  ∀ index polledAt phase, server.calls[index]? = some (.exchange code polledAt phase) →
    some index = call

/-- The text is the one that the server has returned with the device code. -/
def Displayed (server : Pairings) (code : DeviceCode) (text : String) : Prop :=
  server.calls[code.call]? = some (.requested code text)

/-- The key of the login was issued for the device code, as the login says. -/
def IssuedTo (server : Pairings) (issues : List Issue) (base : String) (code : DeviceCode)
    (login : StoredLogin) : Prop :=
  ⟨base, code, login.apiKey⟩ ∈ issues ∧ ∃ key createdAt polledAt expiresAt,
    PairingEvent.issued code key createdAt polledAt expiresAt ∈ server.journal ∧
      key.scopes = login.access.scopes ∧ key.expiresAt = login.expiresAt

/-- The call of a command that polls. -/
inductive PollSound (server : Pairings) (issues : List Issue) (now : Nat) (base : String)
    (code : DeviceCode) : PairingCall → Prop where
  | selecting {polledAt : Nat} (past : polledAt ≤ now)
      (paced : PolledBy server code pollInterval polledAt) :
      PollSound server issues now base code (.exchange code polledAt .select)
  | touching {polledAt : Nat} {request : Uuid} (past : polledAt ≤ now)
      (polled : PolledBy server code 0 polledAt) :
      PollSound server issues now base code (.exchange code polledAt (.touch request false))
  | claiming {polledAt : Nat} {request : Uuid} (past : polledAt ≤ now)
      (polled : PolledBy server code 0 polledAt) :
      PollSound server issues now base code (.exchange code polledAt (.claim request))
  | answered {response : Auth.DeviceTokenResponse} (polled : PolledBy server code 0 now)
      (unhurried : response ≠ .slowDown)
      (paid : ∀ apiKey email access expiresAt, response = .approved apiKey email access expiresAt →
        IssuedTo server issues base code { apiKey, email, access, expiresAt }) :
      PollSound server issues now base code (.answered response)

/-- What a command in a phase knows of its server, after the call that requested its pairing. -/
inductive PhaseSound (server : Pairings) (issues : List Issue) (now : Nat)
    (revocations : List Revocation) (base : String) (requested : Option Nat) : Phase → Prop where
  | starting {call : Nat} {current : PairingCall} (mine : requested = some call)
      (present : server.calls[call]? = some current)
      (unread : current.drawing = some ⟨call⟩ ∨ (∃ text, current = .requested ⟨call⟩ text) ∨
        current = .failed)
      (silent : OnlyPoll server ⟨call⟩ none)
      (unpolled : ∀ time, PolledBy server ⟨call⟩ pollInterval time) :
      PhaseSound server issues now revocations base requested (.starting call)
  | waiting {code : DeviceCode} {shown : String} {interval deadline wakes : Nat}
      (mine : requested = some code.call) (wide : pollInterval ≤ interval)
      (displayed : Displayed server code shown) (silent : OnlyPoll server code none)
      (paced : PolledBy server code pollInterval wakes) :
      PhaseSound server issues now revocations base requested (.waiting code shown interval deadline wakes)
  | polling {code : DeviceCode} {shown : String} {interval deadline call : Nat}
      {current : PairingCall} (mine : requested = some code.call)
      (wide : pollInterval ≤ interval) (displayed : Displayed server code shown)
      (present : server.calls[call]? = some current)
      (poll : PollSound server issues now base code current)
      (only : OnlyPoll server code (some call)) :
      PhaseSound server issues now revocations base requested (.polling code shown interval deadline call)
  | loggedIn {code : DeviceCode} {login : StoredLogin} (mine : requested = some code.call)
      (silent : OnlyPoll server code none)
      (issued : IssuedTo server issues base code login) :
      PhaseSound server issues now revocations base requested (.loggedIn login)
  | revoking {login : StoredLogin} {call : Nat} {phase : RevocationPhase}
      (mine : requested = none)
      (listed : revocations[call]? = some ⟨base, login.apiKey, phase⟩) :
      PhaseSound server issues now revocations base requested (.revoking login call)
  | loggedOut {login : StoredLogin} {call : Nat} {answer : Answer}
      (mine : requested = none)
      (listed : revocations[call]? = some ⟨base, login.apiKey, .answered answer⟩)
      (refused : answer = .revoked ∨ answer.unauthorized = true) :
      PhaseSound server issues now revocations base requested (.loggedOut login call)
  | failed : PhaseSound server issues now revocations base requested .failed

section Processes

variable {drawn : List Draw} {server after : Pairings} {action : PairingAction}
  {issues later : List Issue} {now time : Nat} {base : String} {code : DeviceCode}

theorem PolledBy.mono {pause shorter sooner : Nat} (polled : PolledBy server code pause sooner)
    (short : shorter + sooner ≤ pause + time) : PolledBy server code shorter time := by
  intro id row found same instant written
  have before := polled id row found same instant written
  omega

theorem IssuedTo.mono {login : StoredLogin} (issued : IssuedTo server issues base code login)
    (journal : server.journal ⊆ after.journal) (grows : issues ⊆ later) :
    IssuedTo after later base code login := by
  obtain ⟨listed, key, createdAt, polledAt, expiresAt, event, told⟩ := issued
  exact ⟨grows listed, key, createdAt, polledAt, expiresAt, journal event, told⟩

/-- Later on, other things being the same. -/
theorem PollSound.mono {call : PairingCall}
    (poll : PollSound server issues now base code call) (past : now ≤ time) (grows : issues ⊆ later) :
    PollSound server later time base code call := by
  cases poll with
  | selecting before paced => exact .selecting (Nat.le_trans before past) paced
  | touching before polled => exact .touching (Nat.le_trans before past) polled
  | claiming before polled => exact .claiming (Nat.le_trans before past) polled
  | answered polled unhurried paid =>
      refine .answered (polled.mono (by omega)) unhurried ?_
      intro apiKey email access expiresAt same
      exact (paid apiKey email access expiresAt same).mono (fun _ member => member) grows

theorem journal_after (step : PairingStep server action after) :
    server.journal ⊆ after.journal := by
  cases step with
  | requestCode clientName => exact fun _ member => member
  | exchange deviceCode => exact fun _ member => member
  | aside _ _ aside => exact aside.journal
  | proceed present progress =>
      cases progress with
      | retried | refused | closed | pending | approved | lapsed | stored | touched | consumed =>
          exact fun _ member => member
      | issued => exact List.subset_append_left _ _

/-- A call stays as it is, or its next statement is executed. -/
theorem call_kept (step : PairingStep server action after) {index : Nat} {call : PairingCall}
    (present : server.calls[index]? = some call) :
    after.calls[index]? = some call ∧ (∀ draw, action ≠ .proceed index draw) ∨
      ∃ draw next current, action = .proceed index draw ∧
        PairingProgress server draw call next current ∧
        after = { next with calls := server.calls.set index current } := by
  have appended : ∀ new : PairingCall, (server.calls ++ [new])[index]? = some call := by
    intro new
    rw [List.getElem?_append_left (List.getElem?_eq_some_iff.mp present).1]
    exact present
  cases step with
  | requestCode clientName => exact .inl ⟨appended _, nofun⟩
  | exchange deviceCode => exact .inl ⟨appended _, nofun⟩
  | @proceed own draw current next written here progress =>
      by_cases same : own = index
      · subst same
        rw [present] at here
        obtain rfl := Option.some.inj here
        exact .inr ⟨draw, written, next, rfl, progress, rfl⟩
      · refine .inl ⟨?_, ?_⟩
        · change (server.calls.set own next)[index]? = some call
          rw [List.getElem?_set_ne same]
          exact present
        · rintro other equal
          exact same (PairingAction.proceed.inj equal).1
  | aside other _ aside => exact .inl ⟨aside.calls ▸ present, other index⟩

theorem onlyPoll_after (step : PairingStep server action after) {own : Option Nat}
    (only : OnlyPoll server code own) (apart : action ≠ .exchange code) :
    OnlyPoll after code own := by
  intro index polledAt phase found
  rcases call_after step found with old | ⟨-, ⟨_, -, began⟩ | ⟨other, same, began⟩⟩ |
      ⟨draw, old, next, -, present, progress⟩
  · exact only index polledAt phase old
  · cases began
  · cases began
    exact absurd same apart
  · cases progress with
    | pending | approved => exact only index polledAt _ present

/-- Only the call that polls with the code leaves its time at the request. -/
theorem polledBy_after (known : ServerSound drawn server) (step : PairingStep server action after)
    {own : Option Nat} (only : OnlyPoll server code own)
    (idle : ∀ call draw, own = some call → action ≠ .proceed call draw) {pause : Nat}
    (polled : PolledBy server code pause time) : PolledBy after code pause time := by
  intro id row found same instant written
  rcases request_after step found with
    ⟨old, before, code', -, kept | ⟨index, draw, other, polledAt, phase, moved, present, about, -⟩⟩ |
      ⟨index, draw, call, -, -, -, -, -, -, unpolled, -⟩
  · exact polled id old before (code'.symm.trans same) instant (kept ▸ written)
  · have mine := (known.polls index other polledAt phase id present about).2 old before
    have asked : other = code := mine.symm.trans (code'.symm.trans same)
    have own := only index polledAt phase (asked ▸ present)
    exact absurd moved (idle index draw own.symm)
  · rw [unpolled] at written
    cases written

theorem displayed_after {text : String} (step : PairingStep server action after)
    (displayed : Displayed server code text) : Displayed after code text := by
  rcases call_kept step displayed with ⟨kept, -⟩ | ⟨draw, next, current, -, progress, -⟩
  · exact kept
  · cases progress

/-- The key that a step has issued. -/
theorem mem_issued {issue : Issue} (member : issue ∈ Devices.issued base server after action) :
    ∃ call draw polledAt phase email access expiresAt, action = .proceed call draw ∧
      server.calls[call]? = some (.exchange issue.deviceCode polledAt phase) ∧
      after.calls[call]? = some (.answered (.approved issue.key email access expiresAt)) ∧
      issue.base = base := by
  unfold Devices.issued at member
  split at member
  · next call draw =>
      split at member
      · next before reached =>
          obtain rfl := List.mem_singleton.mp member
          exact ⟨call, draw, _, _, _, _, _, rfl, before, reached, rfl⟩
      · cases member
  · cases member

theorem issued_of_calls {call : Nat} {draw : Draw} {polledAt : Nat} {phase : Auth.ExchangePhase}
    {key : Uuid} {email : String} {access : Auth.DeviceAccess} {expiresAt : Option Nat}
    (before : server.calls[call]? = some (.exchange code polledAt phase))
    (reached : after.calls[call]? = some (.answered (.approved key email access expiresAt))) :
    Devices.issued base server after (.proceed call draw) = [⟨base, code, key⟩] := by
  unfold Devices.issued
  dsimp only
  rw [before, reached]

/-- The next statement of the call that a command polls with. -/
theorem PollSound.progress (known : ServerSound drawn server) {call : Nat}
    {current reached : PairingCall} {draw : Draw} {next : Pairings}
    (present : server.calls[call]? = some current)
    (poll : PollSound server issues now base code current)
    (progress : PairingProgress server draw current next reached)
    (moved : after = { next with calls := server.calls.set call reached })
    (grown : later = issues ++ Devices.issued base server after (.proceed call draw)) :
    PollSound after later now base code reached := by
  have polledNow : ∀ {requests : Table Uuid DeviceAuthorization} {request : Uuid} {polledAt : Nat},
      polledAt ≤ now → PolledBy server code 0 polledAt →
      Auth.Polled server.requests requests request polledAt → after.requests = requests →
        PolledBy after code 0 now := by
    intro requests request polledAt past before polled same id row found mine instant written
    obtain ⟨old, stored, code', -, left⟩ := polled id row (same ▸ found)
    rw [left] at written
    split at written
    · obtain rfl := Option.some.inj written
      exact past
    · exact Nat.le_trans (before id old stored (code'.symm.trans mine) instant written) past
  have unpaid : ∀ {response : Auth.DeviceTokenResponse},
      (∀ apiKey email access expiresAt, response ≠ .approved apiKey email access expiresAt) →
      ∀ apiKey email access expiresAt, response = .approved apiKey email access expiresAt →
        IssuedTo after later base code { apiKey, email, access, expiresAt } :=
    fun other apiKey email access expiresAt same =>
      absurd same (other apiKey email access expiresAt)
  cases poll with
  | answered => cases progress
  | @selecting polledAt past paced =>
      have polled : PolledBy server code 0 now := paced.mono (by omega)
      cases progress with
      | closed final =>
          subst moved
          refine .answered polled ?_ (unpaid ?_)
          · rcases final with rfl | rfl <;> nofun
          · rcases final with rfl | rfl <;> nofun
      | @pending _ _ request row here mine =>
          have unhurried : (row.lastPolledAt.any fun polled =>
              decide (polledAt < polled + Auth.pollTolerance)) = false := by
            cases last : row.lastPolledAt with
            | none => rfl
            | some polled =>
                have before := paced request row here mine polled last
                change decide (polledAt < polled + 4000) = false
                change polled + 5000 ≤ polledAt at before
                rw [decide_eq_false_iff_not]
                omega
          rw [unhurried]
          subst moved
          exact .touching past (paced.mono (by omega))
      | approved here mine =>
          subst moved
          exact .claiming past (paced.mono (by omega))
  | touching past before =>
      cases progress with
      | touched polled =>
          refine .answered (polledNow past before polled ?_) ?_ (unpaid ?_)
          · rw [moved]
          · rw [if_neg Bool.false_ne_true]
            nofun
          · rw [if_neg Bool.false_ne_true]
            nofun
  | @claiming polledAt request past before =>
      cases progress with
      | lapsed =>
          subst moved
          exact .answered (before.mono (by omega)) nofun (unpaid nofun)
      | consumed polled =>
          refine .answered (polledNow past before polled ?_) nofun (unpaid nofun)
          rw [moved]
      | @issued _ _ _ owner row account access requests here polled enabled unused =>
          refine .answered (polledNow past before polled ?_) nofun ?_
          · rw [moved]
          · intro apiKey email access' expiresAt same
            cases same
            have mine := (known.polls call code polledAt _ request present (.inl rfl)).2 row here
            refine ⟨?_, _, server.now, polledAt, row.expiresAt, ?_, rfl, rfl⟩
            · rw [grown, issued_of_calls present (by rw [moved]; exact set_self present _)]
              exact List.mem_append_right _ (List.mem_singleton_self _)
            · rw [moved, ← mine]
              exact List.mem_append_right _ (List.mem_singleton_self _)

/-- A step that does not execute the call that a command polls with. -/
theorem PollSound.kept (known : ServerSound drawn server) (step : PairingStep server action after)
    {call : Nat} {current : PairingCall} (only : OnlyPoll server code (some call))
    (idle : ∀ draw, action ≠ .proceed call draw) (grows : issues ⊆ later)
    (poll : PollSound server issues now base code current) :
    PollSound after later now base code current := by
  have quiet : ∀ other draw, some call = some other → action ≠ .proceed other draw := by
    rintro other draw same
    cases same
    exact idle draw
  cases poll with
  | selecting past paced => exact .selecting past (polledBy_after known step only quiet paced)
  | touching past polled => exact .touching past (polledBy_after known step only quiet polled)
  | claiming past polled => exact .claiming past (polledBy_after known step only quiet polled)
  | answered polled unhurried paid =>
      refine .answered (polledBy_after known step only quiet polled) unhurried ?_
      intro apiKey email access expiresAt same
      exact (paid apiKey email access expiresAt same).mono (journal_after step) grows

/-- A step of the server, unless somebody else polls with the code of the command. -/
theorem PhaseSound.served {revocations : List Revocation} {requested : Option Nat} {phase : Phase}
    (known : ServerSound drawn server) (step : PairingStep server action after)
    (grown : later = issues ++ Devices.issued base server after action)
    (apart : ∀ code, action = .exchange code → requested = some code.call → phase = .failed)
    (sound : PhaseSound server issues now revocations base requested phase) :
    PhaseSound after later now revocations base requested phase := by
  have grows : issues ⊆ later := grown ▸ List.subset_append_left _ _
  have silently : ∀ {code : DeviceCode} {pause time : Nat}, OnlyPoll server code none →
      PolledBy server code pause time → PolledBy after code pause time :=
    fun silent polled => polledBy_after known step silent nofun polled
  cases sound with
  | @starting call current mine present unread silent unpolled =>
      have other : action ≠ .exchange ⟨call⟩ := fun same => nomatch apart ⟨call⟩ same mine
      have silent' := onlyPoll_after step silent other
      have unpolled' := fun time => silently silent (unpolled time)
      rcases call_kept step present with ⟨kept, -⟩ | ⟨draw, next, reached, -, progress, rfl⟩
      · exact .starting mine kept unread silent' unpolled'
      · refine .starting mine (set_self present reached) ?_ silent' unpolled'
        rcases unread with drawing | ⟨text, rfl⟩ | rfl
        · cases progress with
          | retried => exact .inl drawing
          | refused => exact .inr (.inr rfl)
          | @stored _ code =>
              obtain rfl : code = ⟨call⟩ := Option.some.inj drawing
              exact .inr (.inl ⟨_, rfl⟩)
          | closed | pending | approved | touched | lapsed | consumed | issued => cases drawing
        · cases progress
        · cases progress
  | waiting mine wide displayed silent paced =>
      have other : action ≠ .exchange _ := fun same => nomatch apart _ same mine
      exact .waiting mine wide (displayed_after step displayed) (onlyPoll_after step silent other)
        (silently silent paced)
  | @polling code shown interval deadline call current mine wide displayed present poll only =>
      have other : action ≠ .exchange code := fun same => nomatch apart code same mine
      have displayed' := displayed_after step displayed
      have only' := onlyPoll_after step only other
      rcases call_kept step present with ⟨kept, idle⟩ | ⟨draw, next, reached, rfl, progress, moved⟩
      · exact .polling mine wide displayed' kept (poll.kept known step only idle grows) only'
      · have reaches : after.calls[call]? = some reached := by
          rw [moved]
          exact set_self present reached
        exact .polling mine wide displayed' reaches
          (poll.progress known present progress moved grown) only'
  | loggedIn mine silent issued =>
      have other : action ≠ .exchange _ := fun same => nomatch apart _ same mine
      exact .loggedIn mine (onlyPoll_after step silent other)
        (issued.mono (journal_after step) grows)
  | revoking mine listed => exact .revoking mine listed
  | loggedOut mine listed refused => exact .loggedOut mine listed refused
  | failed => exact .failed

/-- A step of another server. -/
theorem PhaseSound.elsewhere {revocations : List Revocation} {requested : Option Nat}
    {phase : Phase} (past : now ≤ time) (grows : issues ⊆ later)
    (sound : PhaseSound server issues now revocations base requested phase) :
    PhaseSound server later time revocations base requested phase := by
  cases sound with
  | starting mine present unread silent unpolled =>
      exact .starting mine present unread silent unpolled
  | waiting mine wide displayed silent paced => exact .waiting mine wide displayed silent paced
  | polling mine wide displayed present poll only =>
      exact .polling mine wide displayed present (poll.mono past grows) only
  | loggedIn mine silent issued =>
      exact .loggedIn mine silent (issued.mono (fun _ member => member) grows)
  | revoking mine listed => exact .revoking mine listed
  | loggedOut mine listed refused => exact .loggedOut mine listed refused
  | failed => exact .failed

end Processes

end AmberBackup.Cli.Login
