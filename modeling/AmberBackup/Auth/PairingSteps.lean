import AmberBackup.Auth.DevicePairings

/-! # One step of the pairings

What a step can do to the calls, the requests and the keys. A statement of a call ends in one of a
few ways (`PairingProgress`); every other step starts a call or leaves the calls as they are
(`PairingStep`).
-/

namespace AmberBackup.Auth

open Relational

/-- The request under its codes, polled as before. -/
structure SameRequest (before after : DeviceAuthorization) : Prop where
  code : after.code = before.code
  userCodeHash : after.userCodeHash = before.userCodeHash
  lastPolledAt : after.lastPolledAt = before.lastPolledAt

/-- The requests after a poll has left its time at one of them. -/
def Polled (before after : Table Uuid DeviceAuthorization) (request : Uuid) (polledAt : Nat) :
    Prop :=
  ∀ id row, after.get? id = some row → ∃ old, before.get? id = some old ∧ row.code = old.code ∧
    row.userCodeHash = old.userCodeHash ∧
    row.lastPolledAt = if id = request then some polledAt else old.lastPolledAt

variable {state next : Pairings} {draw : Draw} {call after : PairingCall}

/-- What a statement of a call does, and what the call does next. -/
inductive PairingProgress (state : Pairings) (draw : Draw) :
    PairingCall → Pairings → PairingCall → Prop where
  | retried {clientName : String} {code : DeviceCode} {expiresAt attempt : Nat} :
      PairingProgress state draw (.requestCode clientName code expiresAt attempt) state
        (.requestCode clientName code expiresAt (attempt + 1))
  | refused {clientName : String} {code : DeviceCode} {expiresAt attempt : Nat} :
      PairingProgress state draw (.requestCode clientName code expiresAt attempt) state .failed
  | stored {clientName : String} {code : DeviceCode} {expiresAt attempt : Nat}
      {row : DeviceAuthorization} (generated : isUserCode draw.userCode = true)
      (fresh : state.requests.get? draw.request = none) (mine : row.code = code)
      (shown : row.userCodeHash = hashToken draw.userCode) (unpolled : row.lastPolledAt = none) :
      PairingProgress state draw (.requestCode clientName code expiresAt attempt)
        { state with requests := state.requests.insert draw.request row }
        (.requested code (formatUserCode draw.userCode))
  | closed {code : DeviceCode} {polledAt : Nat} {response : DeviceTokenResponse}
      (final : response = .expired ∨ response = .denied) :
      PairingProgress state draw (.exchange code polledAt .select) state (.answered response)
  | pending {code : DeviceCode} {polledAt : Nat} {request : Uuid} {row : DeviceAuthorization}
      (present : state.requests.get? request = some row) (mine : row.code = code) :
      PairingProgress state draw (.exchange code polledAt .select) state
        (.exchange code polledAt (.touch request
          (row.lastPolledAt.any fun polled => polledAt < polled + pollTolerance)))
  | approved {code : DeviceCode} {polledAt : Nat} {request : Uuid} {row : DeviceAuthorization}
      (present : state.requests.get? request = some row) (mine : row.code = code) :
      PairingProgress state draw (.exchange code polledAt .select) state
        (.exchange code polledAt (.claim request))
  | touched {code : DeviceCode} {polledAt : Nat} {request : Uuid} {tooFast : Bool}
      {requests : Table Uuid DeviceAuthorization}
      (polled : Polled state.requests requests request polledAt) :
      PairingProgress state draw (.exchange code polledAt (.touch request tooFast))
        { state with requests } (.answered (if tooFast then .slowDown else .pending))
  | lapsed {code : DeviceCode} {polledAt : Nat} {request : Uuid} :
      PairingProgress state draw (.exchange code polledAt (.claim request)) state (.answered .expired)
  | consumed {code : DeviceCode} {polledAt : Nat} {request : Uuid}
      {requests : Table Uuid DeviceAuthorization}
      (polled : Polled state.requests requests request polledAt) :
      PairingProgress state draw (.exchange code polledAt (.claim request)) { state with requests }
        (.answered .expired)
  | issued {code : DeviceCode} {polledAt : Nat} {request owner : Uuid} {row : DeviceAuthorization}
      {account : User} {access : DeviceAccess} {requests : Table Uuid DeviceAuthorization}
      (present : state.requests.get? request = some row)
      (polled : Polled state.requests requests request polledAt)
      (enabled : state.users.get? owner = some account)
      (unused : state.apiKeys.get? draw.key = none) :
      PairingProgress state draw (.exchange code polledAt (.claim request))
        { state with
          requests
          apiKeys := state.apiKeys.insert draw.key
            (createdKey owner row.clientName access row.keyExpiresInDays state.now)
          journal := state.journal ++ [.issued row.code
            (createdKey owner row.clientName access row.keyExpiresInDays state.now) state.now
              polledAt row.expiresAt] }
        (.answered (.approved draw.key account.email access
          (createdKey owner row.clientName access row.keyExpiresInDays state.now).expiresAt))

/-- Noting the key at a request changes nothing else. -/
theorem Polled.linked {before requests : Table Uuid DeviceAuthorization} {request : Uuid}
    {polledAt : Nat} (polled : Polled before requests request polledAt) (key : Uuid) :
    Polled before (requests.update (fun id _ => id = request) fun row =>
      { row with apiKeyId := some key }) request polledAt := by
  intro id row found
  rw [Table.get?_update] at found
  obtain ⟨middle, listed, same⟩ := Option.map_eq_some_iff.mp found
  obtain ⟨old, stored, code, shown, written⟩ := polled id middle listed
  refine ⟨old, stored, ?_⟩
  split at same <;> subst same <;> exact ⟨code, shown, written⟩

namespace Pairings

theorem polled_update (state : Pairings) (request : Uuid) (polledAt : Nat)
    (status : DeviceAuthorization → PairingStatus) :
    Polled state.requests (state.requests.update (fun id _ => id = request) fun row =>
      { row with status := status row, lastPolledAt := some polledAt }) request polledAt := by
  intro id row found
  rw [Table.get?_update] at found
  obtain ⟨old, before, same⟩ := Option.map_eq_some_iff.mp found
  refine ⟨old, before, ?_⟩
  by_cases here : id = request
  · rw [if_pos (decide_eq_true here)] at same
    subst same
    exact ⟨rfl, rfl, (if_pos here).symm⟩
  · rw [if_neg (by simpa using here)] at same
    subst same
    exact ⟨rfl, rfl, (if_neg here).symm⟩

theorem progress_of_insertRequest {clientName : String} {deviceCode : DeviceCode}
    {expiresAt attempt : Nat}
    (moved : state.insertRequest clientName deviceCode expiresAt attempt draw =
      some (next, after)) :
    PairingProgress state draw (.requestCode clientName deviceCode expiresAt attempt) next after := by
  unfold insertRequest at moved
  split at moved
  case isTrue => cases moved
  case isFalse drawn =>
    simp only [Bool.or_eq_true, Bool.not_eq_true', not_or, Bool.not_eq_false,
      Option.not_isSome_iff_eq_none] at drawn
    split at moved
    · split at moved <;> cases moved
      · exact .retried
      · exact .refused
    · cases moved
      exact .stored drawn.1 drawn.2 rfl rfl rfl

theorem progress_of_selectRequest (state : Pairings) (draw : Draw) (deviceCode : DeviceCode)
    (polledAt : Nat) :
    PairingProgress state draw (.exchange deviceCode polledAt .select) state
      (state.selectRequest deviceCode polledAt) := by
  unfold selectRequest
  split
  · exact .closed (.inl rfl)
  · next id row found =>
      have present : state.requests.get? id = some row :=
        Table.mem_rows.mp (List.mem_of_find?_eq_some found)
      have mine : row.code = deviceCode := by
        have hit := List.find?_some found
        rw [decide_eq_true_eq] at hit
        exact congrArg TokenHash.token hit
      split
      · exact .closed (.inl rfl)
      · split
        · exact .closed (.inr rfl)
        · exact .pending present mine
        · exact .approved present mine
        · exact .approved present mine

theorem progress_of_claim {deviceCode : DeviceCode} {request : Uuid} {polledAt : Nat}
    (moved : state.claim request polledAt draw = some (next, after)) :
    PairingProgress state draw (.exchange deviceCode polledAt (.claim request)) next after := by
  unfold claim at moved
  split at moved
  case h_1 =>
    cases moved
    exact .lapsed
  case h_2 row claimed =>
    have present := (Option.filter_eq_some_iff.mp claimed).1
    have polled := polled_update state request polledAt fun _ => .consumed
    dsimp only at moved
    split at moved
    case h_2 =>
      cases moved
      exact .consumed polled
    case h_1 owner access mine given =>
      split at moved
      case h_1 =>
        cases moved
        exact .consumed polled
      case h_2 account found =>
        split at moved
        case isTrue => cases moved
        case isFalse unused =>
          cases moved
          exact .issued present (polled.linked draw.key) (Option.filter_eq_some_iff.mp found).1
            (Option.not_isSome_iff_eq_none.mp unused)

theorem progress_of_statement (moved : state.statement draw call = some (next, after)) :
    PairingProgress state draw call next after := by
  unfold statement at moved
  split at moved
  case h_1 => exact progress_of_insertRequest moved
  case h_2 =>
    cases moved
    exact progress_of_selectRequest state draw _ _
  case h_3 =>
    cases moved
    exact .touched (polled_update state _ _ DeviceAuthorization.status)
  case h_4 => exact progress_of_claim moved
  all_goals cases moved

end Pairings

/-- A step that leaves the calls alone. -/
structure LeavesCalls (before after : Pairings) : Prop where
  calls : after.calls = before.calls
  journal : before.journal ⊆ after.journal
  requests : ∀ id row, after.requests.get? id = some row →
    ∃ old, before.requests.get? id = some old ∧ SameRequest old row
  keys : ∀ id key, after.apiKeys.get? id = some key → before.apiKeys.get? id = some key
  owners : ∀ id key, after.apiKeys.get? id = some key →
    (before.users.get? key.userId).isSome = true → (after.users.get? key.userId).isSome = true

/-- What an action does. -/
inductive PairingStep (before : Pairings) : PairingAction → Pairings → Prop where
  | requestCode (clientName : String) :
      PairingStep before (.requestCode clientName) { before with
        calls := before.calls ++ [.requestCode clientName ⟨before.calls.length⟩
          (before.now + deviceCodeTtl) 0] }
  | exchange (deviceCode : DeviceCode) :
      PairingStep before (.exchange deviceCode) { before with
        calls := before.calls ++ [.exchange deviceCode before.now .select] }
  | proceed {index : Nat} {draw : Draw} {call after : PairingCall} {next : Pairings}
      (present : before.calls[index]? = some call)
      (progress : PairingProgress before draw call next after) :
      PairingStep before (.proceed index draw) { next with calls := before.calls.set index after }
  | aside {action : PairingAction} {after : Pairings}
      (other : ∀ index draw, action ≠ .proceed index draw)
      (clock : (∀ time, action ≠ .tick time) → after.now = before.now)
      (aside : LeavesCalls before after) : PairingStep before action after

namespace Pairings

theorem sameRequest_of_update {requests : Table Uuid DeviceAuthorization}
    {hit : Uuid → DeviceAuthorization → Bool} {change : DeviceAuthorization → DeviceAuthorization}
    (same : ∀ row, SameRequest row (change row)) {id : Uuid} {row : DeviceAuthorization}
    (found : (requests.update hit change).get? id = some row) :
    ∃ old, requests.get? id = some old ∧ SameRequest old row := by
  rw [Table.get?_update] at found
  obtain ⟨old, before, changed⟩ := Option.map_eq_some_iff.mp found
  refine ⟨old, before, ?_⟩
  split at changed
  · exact changed ▸ same old
  · exact changed ▸ ⟨rfl, rfl, rfl⟩

theorem sameRequest_of_delete {requests : Table Uuid DeviceAuthorization}
    {hit : Uuid → DeviceAuthorization → Bool} {id : Uuid} {row : DeviceAuthorization}
    (found : (requests.delete hit).get? id = some row) :
    ∃ old, requests.get? id = some old ∧ SameRequest old row := by
  rw [Table.get?_delete] at found
  exact ⟨row, (Option.filter_eq_some_iff.mp found).1, rfl, rfl, rfl⟩

theorem aside_of_decide {principal : Principal} {addressAllowed : Bool} {userCode : String}
    {change : DeviceAuthorization → DeviceAuthorization}
    {event : DeviceAuthorization → PairingEvent} (same : ∀ row, SameRequest row (change row))
    (decided : state.decide principal addressAllowed userCode change event = some next) :
    next.now = state.now ∧ LeavesCalls state next := by
  unfold decide at decided
  split at decided
  case isTrue => cases decided
  case isFalse =>
    obtain ⟨code, -, hits⟩ := Option.bind_eq_some_iff.mp decided
    dsimp only at hits
    split at hits
    case isTrue => cases hits
    case isFalse =>
      obtain rfl := Option.some.inj hits
      exact ⟨rfl, rfl, List.subset_append_left _ _,
        fun _ _ found => sameRequest_of_update same found, fun _ _ found => found,
        fun _ _ _ known => known⟩

theorem step_spec {action : PairingAction} (moved : state.step action = some next) :
    PairingStep state action next := by
  have kept : ∀ id row, state.requests.get? id = some row →
      ∃ old, state.requests.get? id = some old ∧ SameRequest old row :=
    fun _ row found => ⟨row, found, rfl, rfl, rfl⟩
  cases action with
  | requestCode clientName =>
      cases moved
      exact .requestCode clientName
  | exchange deviceCode =>
      cases moved
      exact .exchange deviceCode
  | proceed index draw =>
      obtain ⟨call, present, moved⟩ := Option.bind_eq_some_iff.mp moved
      obtain ⟨⟨written, after⟩, stated, rfl⟩ := Option.map_eq_some_iff.mp moved
      exact .proceed present (progress_of_statement stated)
  | approve principal addressAllowed dto =>
      simp only [Pairings.step] at moved
      split at moved
      case isFalse => cases moved
      case isTrue =>
        obtain ⟨clock, aside⟩ : next.now = state.now ∧ LeavesCalls state next := by
          apply aside_of_decide _ moved
          exact fun row => ⟨rfl, rfl, rfl⟩
        exact .aside (fun _ _ => PairingAction.noConfusion) (fun _ => clock) aside
  | deny principal addressAllowed userCode =>
      simp only [Pairings.step] at moved
      split at moved
      case isFalse => cases moved
      case isTrue =>
        obtain ⟨clock, aside⟩ : next.now = state.now ∧ LeavesCalls state next := by
          apply aside_of_decide _ moved
          exact fun row => ⟨rfl, rfl, rfl⟩
        exact .aside (fun _ _ => PairingAction.noConfusion) (fun _ => clock) aside
  | purgeExpired =>
      cases moved
      refine .aside (fun _ _ => PairingAction.noConfusion) (fun _ => rfl)
        ⟨rfl, fun _ member => member, ?_, fun _ _ found => found, fun _ _ _ known => known⟩
      intro id row found
      change (state.requests.delete _).get? id = some row at found
      exact sameRequest_of_delete found
  | createUser id user =>
      simp only [Pairings.step] at moved
      split at moved <;> cases moved
      refine .aside (fun _ _ => PairingAction.noConfusion) (fun _ => rfl)
        ⟨rfl, fun _ member => member, kept, fun _ _ found => found, ?_⟩
      intro _ key _ known
      obtain ⟨owner, present⟩ := Option.isSome_iff_exists.mp known
      change ((state.users.insert id user).get? key.userId).isSome = true
      rw [Table.get?_insert_of_some present]
      rfl
  | updateUser id disabled isAdmin =>
      cases moved
      refine .aside (fun _ _ => PairingAction.noConfusion) (fun _ => rfl)
        ⟨rfl, fun _ member => member, kept, fun _ _ found => found, ?_⟩
      intro _ key _ known
      change ((state.users.update _ _).get? key.userId).isSome = true
      rw [Table.get?_update, Option.isSome_map]
      exact known
  | removeUser id =>
      cases moved
      refine .aside (fun _ _ => PairingAction.noConfusion) (fun _ => rfl)
        ⟨rfl, fun _ member => member, ?_, ?_, ?_⟩
      · intro other row found
        change (state.requests.delete _).get? other = some row at found
        exact sameRequest_of_delete found
      · intro other key found
        change (state.apiKeys.delete _).get? other = some key at found
        rw [Table.get?_delete] at found
        exact (Option.filter_eq_some_iff.mp found).1
      · intro other key found known
        change (state.apiKeys.delete _).get? other = some key at found
        rw [Table.get?_delete] at found
        have others := (Option.filter_eq_some_iff.mp found).2
        simp only [Bool.not_eq_true', decide_eq_false_iff_not] at others
        obtain ⟨owner, present⟩ := Option.isSome_iff_exists.mp known
        change ((state.users.delete _).get? key.userId).isSome = true
        rw [Table.get?_delete, present]
        simp [others]
  | removeApiKey id =>
      cases moved
      refine .aside (fun _ _ => PairingAction.noConfusion) (fun _ => rfl)
        ⟨rfl, fun _ member => member, ?_, ?_, ?_⟩
      · intro other row found
        change (state.requests.update _ _).get? other = some row at found
        apply sameRequest_of_update _ found
        exact fun row => ⟨rfl, rfl, rfl⟩
      · intro other key found
        change (state.apiKeys.delete _).get? other = some key at found
        rw [Table.get?_delete] at found
        exact (Option.filter_eq_some_iff.mp found).1
      · exact fun _ _ _ known => known
  | tick time =>
      simp only [Pairings.step] at moved
      split at moved <;> cases moved
      next later =>
        exact .aside (fun _ _ => PairingAction.noConfusion)
          (fun other => absurd rfl (other time))
          ⟨rfl, fun _ member => member, kept, fun _ _ found => found, fun _ _ _ known => known⟩

end Pairings

end AmberBackup.Auth
