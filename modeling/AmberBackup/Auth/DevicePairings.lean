import AmberBackup.Auth.DeviceAuthService

/-! # What a pairing yields

Every request goes one way: from its call to a pending row, by a decision to an approved or
a denied one, and by a claim to a consumed one. What the journal tells about a request is
tied to the status of its row (`Pairings.Sound`). So a device code yields at most one key,
that of an approval before the expiry, and a user code reaches one request
(`pairing_yields_one_key`).
-/

namespace AmberBackup.Auth

open Relational Transition

namespace PairingEvent

/-- The request an event is about. -/
def code : PairingEvent → DeviceCode
  | .approved code .. | .denied code | .issued code .. => code

def isIssued : PairingEvent → Bool
  | .issued .. => true
  | .approved .. | .denied _ => false

def issues (code : DeviceCode) (event : PairingEvent) : Bool := event.isIssued && event.code = code

end PairingEvent

/-- The device code a row was stored for. -/
def DeviceAuthorization.code (row : DeviceAuthorization) : DeviceCode := row.deviceCodeHash.token

/-- The device code a call has drawn and not stored yet. -/
def PairingCall.drawing : PairingCall → Option DeviceCode
  | .requestCode _ deviceCode _ _ => some deviceCode
  | _ => none

namespace Pairings

/-- The journal has an approval of the request as its row tells it. -/
def Approved (journal : List PairingEvent) (row : DeviceAuthorization) : Prop :=
  ∃ principal access decidedAt, row.userId = some principal.user.id ∧ row.access = some access ∧
    principal.authVia = .session ∧ decidedAt < row.expiresAt ∧
    .approved row.code principal access row.keyExpiresInDays decidedAt row.expiresAt ∈ journal

/-- The key was created for an approval, by a poll that was called before the expiry. -/
def Justified (journal : List PairingEvent) (code : DeviceCode) (key : IssuedKey)
    (createdAt polledAt expiresAt : Nat) : Prop :=
  polledAt < expiresAt ∧ ∃ principal access days decidedAt,
    .approved code principal access days decidedAt expiresAt ∈ journal ∧
    principal.authVia = .session ∧ decidedAt < expiresAt ∧ key.userId = principal.user.id ∧
    key.scopes = access.scopes ∧
    key.expiresAt = (days.filter (· ≠ 0)).map fun days => createdAt + days * 86400000

structure Sound (state : Pairings) : Prop where
  drawing : ∀ (index : Nat) (call : PairingCall) (code : DeviceCode),
    state.calls[index]? = some call → call.drawing = some code →
      code = ⟨index⟩ ∧ (∀ id row, state.requests.get? id = some row → row.code ≠ code) ∧
        ∀ event ∈ state.journal, event.code ≠ code
  stored : ∀ id row, state.requests.get? id = some row → row.code.call < state.calls.length
  told : ∀ event ∈ state.journal, event.code.call < state.calls.length
  deviceCodes : ∀ id other row second, state.requests.get? id = some row →
    state.requests.get? other = some second → row.code = second.code → id = other
  userCodes : ∀ id other row second, state.requests.get? id = some row →
    state.requests.get? other = some second → row.userCodeHash = second.userCodeHash → id = other
  unissued : ∀ id row, state.requests.get? id = some row → row.status ≠ .consumed →
    ∀ event ∈ state.journal, event.issues row.code = false
  once : ∀ code, (state.journal.filter (PairingEvent.issues code)).length ≤ 1
  approved : ∀ id row, state.requests.get? id = some row → row.status = .approved →
    Approved state.journal row
  issued : ∀ code key createdAt polledAt expiresAt,
    .issued code key createdAt polledAt expiresAt ∈ state.journal →
      Justified state.journal code key createdAt polledAt expiresAt
  denied : ∀ code, .denied code ∈ state.journal →
    (∀ id row, state.requests.get? id = some row → row.code = code → row.status = .denied) ∧
      ∀ event ∈ state.journal, event.issues code = false

/-- What a statement that decides nothing leaves of a row: its codes and its expiry, and the
decision unless it consumes the request. -/
structure RowKept (before after : DeviceAuthorization) : Prop where
  code : after.code = before.code
  userCodeHash : after.userCodeHash = before.userCodeHash
  expiresAt : after.expiresAt = before.expiresAt
  decision : (after.status = before.status ∧ after.userId = before.userId ∧
      after.access = before.access ∧ after.keyExpiresInDays = before.keyExpiresInDays) ∨
    before.status = .approved ∧ after.status = .consumed

theorem RowKept.refl (row : DeviceAuthorization) : RowKept row row :=
  ⟨rfl, rfl, rfl, .inl ⟨rfl, rfl, rfl, rfl⟩⟩

variable {state next : Pairings}

/-- A step that stores no request and decides none. -/
structure Kept (state next : Pairings) : Prop where
  rows : ∀ id row, next.requests.get? id = some row →
    ∃ old, state.requests.get? id = some old ∧ RowKept old row
  journal : next.journal = state.journal
  length : state.calls.length ≤ next.calls.length
  drawing : ∀ (index : Nat) (call : PairingCall) (code : DeviceCode),
    next.calls[index]? = some call → call.drawing = some code →
      (∃ old, state.calls[index]? = some old ∧ old.drawing = some code) ∨
        code = ⟨index⟩ ∧ index = state.calls.length

theorem Sound.kept (sound : state.Sound) (kept : Kept state next) : next.Sound where
  drawing := by
    intro index call code present draws
    rcases kept.drawing index call code present draws with ⟨old, before, drew⟩ | ⟨rfl, rfl⟩
    · obtain ⟨same, rows, events⟩ := sound.drawing index old code before drew
      refine ⟨same, ?_, kept.journal ▸ events⟩
      intro id row found
      obtain ⟨prior, stored, keeps⟩ := kept.rows id row found
      exact keeps.code ▸ rows id prior stored
    · refine ⟨rfl, ?_, ?_⟩
      · rintro id row found same
        obtain ⟨prior, stored, keeps⟩ := kept.rows id row found
        have below := sound.stored id prior stored
        rw [← keeps.code, same] at below
        exact Nat.lt_irrefl _ below
      · rintro event member same
        have below := sound.told event (kept.journal ▸ member)
        rw [same] at below
        exact Nat.lt_irrefl _ below
  stored := by
    intro id row found
    obtain ⟨prior, stored, keeps⟩ := kept.rows id row found
    exact keeps.code ▸ Nat.lt_of_lt_of_le (sound.stored id prior stored) kept.length
  told := by
    intro event member
    exact Nat.lt_of_lt_of_le (sound.told event (kept.journal ▸ member)) kept.length
  deviceCodes := by
    intro id other row second found other_found same
    obtain ⟨prior, stored, keeps⟩ := kept.rows id row found
    obtain ⟨former, other_stored, other_keeps⟩ := kept.rows other second other_found
    exact sound.deviceCodes id other prior former stored other_stored
      (keeps.code.symm.trans (same.trans other_keeps.code))
  userCodes := by
    intro id other row second found other_found same
    obtain ⟨prior, stored, keeps⟩ := kept.rows id row found
    obtain ⟨former, other_stored, other_keeps⟩ := kept.rows other second other_found
    exact sound.userCodes id other prior former stored other_stored
      (keeps.userCodeHash.symm.trans (same.trans other_keeps.userCodeHash))
  unissued := by
    intro id row found unconsumed
    obtain ⟨prior, stored, keeps⟩ := kept.rows id row found
    rw [kept.journal, keeps.code]
    refine sound.unissued id prior stored fun consumed => ?_
    rcases keeps.decision with ⟨same, -⟩ | ⟨-, consumes⟩
    · exact unconsumed (same.trans consumed)
    · exact unconsumed consumes
  once := kept.journal ▸ sound.once
  approved := by
    intro id row found approved
    obtain ⟨prior, stored, keeps⟩ := kept.rows id row found
    rcases keeps.decision with ⟨same, user, access, days⟩ | ⟨-, consumes⟩
    · have before := sound.approved id prior stored (same ▸ approved)
      unfold Approved at before ⊢
      rw [kept.journal, user, access, days, keeps.expiresAt, keeps.code]
      exact before
    · rw [approved] at consumes
      cases consumes
  issued := kept.journal ▸ sound.issued
  denied := by
    intro code member
    rw [kept.journal] at member ⊢
    obtain ⟨rows, events⟩ := sound.denied code member
    refine ⟨?_, events⟩
    intro id row found same
    obtain ⟨prior, stored, keeps⟩ := kept.rows id row found
    have denied := rows id prior stored (keeps.code.symm.trans same)
    rcases keeps.decision with ⟨kept, -⟩ | ⟨approved, -⟩
    · exact kept.trans denied
    · rw [denied] at approved
      cases approved

theorem Approved.mono {journal later : List PairingEvent} {row : DeviceAuthorization}
    (grows : journal ⊆ later) (approved : Approved journal row) : Approved later row := by
  obtain ⟨principal, access, decidedAt, user, given, session, before, told⟩ := approved
  exact ⟨principal, access, decidedAt, user, given, session, before, grows told⟩

theorem Justified.mono {journal later : List PairingEvent} {code : DeviceCode} {key : IssuedKey}
    {createdAt polledAt expiresAt : Nat} (grows : journal ⊆ later)
    (justified : Justified journal code key createdAt polledAt expiresAt) :
    Justified later code key createdAt polledAt expiresAt := by
  obtain ⟨polled, principal, access, days, decidedAt, told, rest⟩ := justified
  exact ⟨polled, principal, access, days, decidedAt, grows told, rest⟩

theorem issues_of_code_ne {event : PairingEvent} {code : DeviceCode}
    (different : event.code ≠ code) : event.issues code = false := by
  simp [PairingEvent.issues, different]

/-! ## A request is stored -/

theorem Sound.insert (sound : state.Sound) {index : Nat} {call : PairingCall} {code : DeviceCode}
    {id : Uuid} {row : DeviceAuthorization} (present : state.calls[index]? = some call)
    (drew : call.drawing = some code) (fresh : state.requests.get? id = none)
    (mine : row.code = code) (pending : row.status = .pending)
    (unique : ∀ other stored, state.requests.get? other = some stored →
      stored.userCodeHash ≠ row.userCodeHash) {after : PairingCall} (told : after.drawing = none) :
    Sound { state with
      requests := state.requests.insert id row, calls := state.calls.set index after } := by
  obtain ⟨own, absent, silent⟩ := sound.drawing index call code present drew
  have below : index < state.calls.length := (List.getElem?_eq_some_iff.mp present).1
  have rows : ∀ {other found}, (state.requests.insert id row).get? other = some found →
      (other = id ∧ found = row) ∨ state.requests.get? other = some found := by
    intro other found stored
    rw [Table.get?_insert fresh] at stored
    split at stored
    case isTrue same => exact .inl ⟨same, (Option.some.inj stored).symm⟩
    case isFalse => exact .inr stored
  refine ⟨?_, ?_, ?_, ?_, ?_, ?_, sound.once, ?_, sound.issued, ?_⟩
  · intro other current drawn found draws
    rw [List.getElem?_set] at found
    split at found
    case isTrue =>
      obtain rfl := Option.some.inj found
      rw [told] at draws
      cases draws
    case isFalse different =>
      obtain ⟨same, others, events⟩ := sound.drawing other current drawn found draws
      refine ⟨same, ?_, events⟩
      intro key stored inserted
      rcases rows inserted with ⟨-, rfl⟩ | kept
      · rw [mine, own, same]
        exact fun equal => different (DeviceCode.mk.inj equal)
      · exact others key stored kept
  · intro key stored inserted
    rw [List.length_set]
    rcases rows inserted with ⟨-, rfl⟩ | kept
    · rw [mine, own]
      exact below
    · exact sound.stored key stored kept
  · intro event member
    rw [List.length_set]
    exact sound.told event member
  · intro key other stored second inserted second_inserted same
    rcases rows inserted with ⟨rfl, rfl⟩ | kept <;>
      rcases rows second_inserted with ⟨rfl, rfl⟩ | second_kept
    · rfl
    · exact absurd (same.symm.trans mine) (absent other second second_kept)
    · exact absurd (same.trans mine) (absent key stored kept)
    · exact sound.deviceCodes key other stored second kept second_kept same
  · intro key other stored second inserted second_inserted same
    rcases rows inserted with ⟨rfl, rfl⟩ | kept <;>
      rcases rows second_inserted with ⟨rfl, rfl⟩ | second_kept
    · rfl
    · exact absurd same.symm (unique other second second_kept)
    · exact absurd same (unique key stored kept)
    · exact sound.userCodes key other stored second kept second_kept same
  · intro key stored inserted unconsumed event member
    rcases rows inserted with ⟨-, rfl⟩ | kept
    · exact issues_of_code_ne fun same => silent event member (same.trans mine)
    · exact sound.unissued key stored kept unconsumed event member
  · intro key stored inserted approved
    rcases rows inserted with ⟨-, rfl⟩ | kept
    · rw [pending] at approved
      cases approved
    · exact sound.approved key stored kept approved
  · intro denied member
    obtain ⟨others, events⟩ := sound.denied denied member
    refine ⟨?_, events⟩
    intro key stored inserted same
    rcases rows inserted with ⟨-, rfl⟩ | kept
    · exact absurd (same.symm.trans mine) (silent _ member)
    · exact others key stored kept same

/-! ## A request is decided -/

/-- A decision of one pending request, and what the journal then tells about it. -/
structure Decision (state next : Pairings) (id : Uuid) (row after : DeviceAuthorization)
    (event : PairingEvent) : Prop where
  present : state.requests.get? id = some row
  pending : row.status = .pending
  changed : next.requests.get? id = some after
  others : ∀ other, other ≠ id → next.requests.get? other = state.requests.get? other
  code : after.code = row.code
  userCodeHash : after.userCodeHash = row.userCodeHash
  calls : next.calls = state.calls
  journal : next.journal = state.journal ++ [event]
  about : event.code = row.code
  unissued : event.isIssued = false
  outcome : (after.status = .approved ∧ Approved next.journal after ∧
      event ≠ .denied row.code) ∨ after.status = .denied

theorem Sound.decided (sound : state.Sound) {id : Uuid} {row after : DeviceAuthorization}
    {event : PairingEvent} (decision : Decision state next id row after event) : next.Sound := by
  have rows : ∀ {other found}, next.requests.get? other = some found →
      (other = id ∧ found = after) ∨ state.requests.get? other = some found := by
    intro other found stored
    by_cases same : other = id
    · subst same
      exact .inl ⟨rfl, Option.some.inj (stored.symm.trans decision.changed)⟩
    · exact .inr ((decision.others other same).symm.trans stored)
  have origin : ∀ {other found}, next.requests.get? other = some found →
      ∃ old, state.requests.get? other = some old ∧ found.code = old.code ∧
        found.userCodeHash = old.userCodeHash := by
    intro other found stored
    rcases rows stored with ⟨rfl, rfl⟩ | kept
    · exact ⟨row, decision.present, decision.code, decision.userCodeHash⟩
    · exact ⟨found, kept, rfl, rfl⟩
  have events : ∀ {other}, other ∈ next.journal → other ∈ state.journal ∨ other = event := by
    intro other member
    rw [decision.journal] at member
    exact (List.mem_append.mp member).imp_right List.mem_singleton.mp
  have grows : state.journal ⊆ next.journal := decision.journal ▸ List.subset_append_left _ _
  have silent : ∀ code, event.issues code = false := by
    simp [PairingEvent.issues, decision.unissued]
  refine ⟨?_, ?_, ?_, ?_, ?_, ?_, ?_, ?_, ?_, ?_⟩
  · intro index call code found draws
    rw [decision.calls] at found
    obtain ⟨same, absent, told⟩ := sound.drawing index call code found draws
    refine ⟨same, ?_, ?_⟩
    · intro other stored inNext
      obtain ⟨old, before, equal, -⟩ := origin inNext
      exact equal ▸ absent other old before
    · intro other member
      rcases events member with old | rfl
      · exact told other old
      · exact decision.about ▸ absent id row decision.present
  · intro other stored inNext
    obtain ⟨old, before, equal, -⟩ := origin inNext
    rw [decision.calls, equal]
    exact sound.stored other old before
  · intro other member
    rw [decision.calls]
    rcases events member with old | rfl
    · exact sound.told other old
    · exact decision.about ▸ sound.stored id row decision.present
  · intro first second stored other inNext second_inNext same
    obtain ⟨old, before, equal, -⟩ := origin inNext
    obtain ⟨prior, second_before, second_equal, -⟩ := origin second_inNext
    exact sound.deviceCodes first second old prior before second_before
      (equal.symm.trans (same.trans second_equal))
  · intro first second stored other inNext second_inNext same
    obtain ⟨old, before, -, equal⟩ := origin inNext
    obtain ⟨prior, second_before, -, second_equal⟩ := origin second_inNext
    exact sound.userCodes first second old prior before second_before
      (equal.symm.trans (same.trans second_equal))
  · intro other stored inNext unconsumed told member
    rcases events member with old | rfl
    · rcases rows inNext with ⟨rfl, rfl⟩ | kept
      · rw [decision.code]
        exact sound.unissued other row decision.present (by rw [decision.pending]; nofun) told old
      · exact sound.unissued other stored kept unconsumed told old
    · exact silent _
  · intro code
    rw [decision.journal, List.filter_append, List.filter_singleton, silent code]
    simpa using sound.once code
  · intro other stored inNext approved
    rcases rows inNext with ⟨rfl, rfl⟩ | kept
    · rcases decision.outcome with ⟨-, told, -⟩ | denied
      · exact told
      · rw [denied] at approved
        cases approved
    · exact (sound.approved other stored kept approved).mono grows
  · intro code key createdAt polledAt expiresAt member
    rcases events member with old | rfl
    · exact (sound.issued code key createdAt polledAt expiresAt old).mono grows
    · cases decision.unissued
  · intro code member
    have issued : ∀ other ∈ state.journal, other.issues code = false := by
      rcases events member with old | rfl
      · exact (sound.denied code old).2
      · have same : code = row.code := decision.about
        rw [same]
        exact sound.unissued id row decision.present (by rw [decision.pending]; nofun)
    refine ⟨?_, ?_⟩
    · intro other stored inNext same
      rcases events member with old | rfl
      · have denied := (sound.denied code old).1
        rcases rows inNext with ⟨rfl, rfl⟩ | kept
        · have status := denied other row decision.present (decision.code.symm.trans same)
          rw [decision.pending] at status
          cases status
        · exact denied other stored kept same
      · rcases rows inNext with ⟨rfl, rfl⟩ | kept
        · rcases decision.outcome with ⟨-, -, approval⟩ | denied
          · exact absurd (congrArg PairingEvent.denied decision.about) approval
          · exact denied
        · have equal := sound.deviceCodes other id stored row kept decision.present
            (same.trans decision.about)
          subst equal
          rw [decision.changed] at inNext
          obtain rfl := Option.some.inj inNext
          rcases decision.outcome with ⟨-, -, approval⟩ | denied
          · exact absurd (congrArg PairingEvent.denied decision.about) approval
          · exact denied
    · intro other listed
      rcases events listed with old | rfl
      · exact issued other old
      · exact silent _

/-! ## A key is issued -/

/-- A consumed request yields the key it was approved for, once. -/
theorem Sound.issue (sound : state.Sound) {id : Uuid} {row : DeviceAuthorization}
    (present : state.requests.get? id = some row) (consumed : row.status = .consumed)
    (unissued : ∀ event ∈ state.journal, event.issues row.code = false)
    {key : IssuedKey} {createdAt polledAt expiresAt : Nat}
    (justified : Justified state.journal row.code key createdAt polledAt expiresAt) :
    Sound { state with
      journal := state.journal ++ [.issued row.code key createdAt polledAt expiresAt] } := by
  have events : ∀ {other},
      other ∈ state.journal ++ [.issued row.code key createdAt polledAt expiresAt] →
      other ∈ state.journal ∨ other = .issued row.code key createdAt polledAt expiresAt := by
    intro other member
    exact (List.mem_append.mp member).imp_right List.mem_singleton.mp
  have grows : state.journal ⊆
      state.journal ++ [.issued row.code key createdAt polledAt expiresAt] :=
    List.subset_append_left _ _
  refine ⟨?_, sound.stored, ?_, sound.deviceCodes, sound.userCodes, ?_, ?_, ?_, ?_, ?_⟩
  · intro index call code found draws
    obtain ⟨same, absent, told⟩ := sound.drawing index call code found draws
    refine ⟨same, absent, ?_⟩
    intro other member
    rcases events member with old | rfl
    · exact told other old
    · exact absent id row present
  · intro other member
    rcases events member with old | rfl
    · exact sound.told other old
    · exact sound.stored id row present
  · intro other stored found unconsumed told member
    rcases events member with old | rfl
    · exact sound.unissued other stored found unconsumed told old
    · refine issues_of_code_ne fun same => ?_
      obtain rfl := sound.deviceCodes id other row stored present found same
      rw [present] at found
      exact unconsumed (Option.some.inj found ▸ consumed)
  · intro code
    rw [List.filter_append, List.length_append]
    by_cases same : code = row.code
    · subst same
      have none : state.journal.filter (PairingEvent.issues row.code) = [] :=
        List.filter_eq_nil_iff.mpr fun event member => by
          rw [unissued event member]
          exact Bool.false_ne_true
      rw [none, List.length_nil, Nat.zero_add]
      exact List.length_filter_le _ _
    · have other : (PairingEvent.issued row.code key createdAt polledAt expiresAt).issues code =
          false := issues_of_code_ne fun equal => same equal.symm
      rw [List.filter_singleton, other]
      simpa using sound.once code
  · exact fun other stored found approved => (sound.approved other stored found approved).mono grows
  · intro code other created polled expires member
    rcases events member with old | same
    · exact (sound.issued code other created polled expires old).mono grows
    · obtain ⟨rfl, rfl, rfl, rfl, rfl⟩ := PairingEvent.issued.inj same
      exact justified.mono grows
  · intro code member
    have old : .denied code ∈ state.journal := by
      rcases events member with old | same
      · exact old
      · cases same
    obtain ⟨rows, none⟩ := sound.denied code old
    refine ⟨rows, ?_⟩
    intro other listed
    rcases events listed with before | rfl
    · exact none other before
    · refine issues_of_code_ne fun same => ?_
      have denied := rows id row present same
      rw [consumed] at denied
      cases denied

/-! ## The steps -/

variable {draw : Draw} {call after : PairingCall}

/-- What a statement of a call does: it keeps the requests, stores one, or consumes one and
issues its key. -/
inductive Stated (state : Pairings) (call : PairingCall) : Pairings → PairingCall → Prop where
  | kept {next : Pairings} {after : PairingCall}
      (rows : ∀ id row, next.requests.get? id = some row →
        ∃ old, state.requests.get? id = some old ∧ RowKept old row)
      (journal : next.journal = state.journal) (calls : next.calls = state.calls)
      (drawing : after.drawing = none ∨ after.drawing = call.drawing) : Stated state call next after
  | stored {id : Uuid} {row : DeviceAuthorization} {after : PairingCall}
      (drew : call.drawing = some row.code) (fresh : state.requests.get? id = none)
      (pending : row.status = .pending)
      (unique : ∀ other stored, state.requests.get? other = some stored →
        stored.userCodeHash ≠ row.userCodeHash) (told : after.drawing = none) :
      Stated state call { state with requests := state.requests.insert id row } after
  | issued {next : Pairings} {id : Uuid} {row used : DeviceAuthorization} {user : Uuid}
      {access : DeviceAccess} {polledAt : Nat} {after : PairingCall}
      (present : state.requests.get? id = some row) (approved : row.status = .approved)
      (inTime : polledAt < row.expiresAt) (mine : row.userId = some user)
      (given : row.access = some access)
      (rows : ∀ other stored, next.requests.get? other = some stored →
        ∃ old, state.requests.get? other = some old ∧ RowKept old stored)
      (consumes : next.requests.get? id = some used) (same : used.code = row.code)
      (consumed : used.status = .consumed)
      (journal : next.journal = state.journal ++ [.issued row.code
        (createdKey user row.clientName access row.keyExpiresInDays state.now) state.now polledAt
          row.expiresAt])
      (calls : next.calls = state.calls) (told : after.drawing = none) :
      Stated state call next after

theorem RowKept.trans {before middle after : DeviceAuthorization} (first : RowKept before middle)
    (second : RowKept middle after) : RowKept before after := by
  refine ⟨second.code.trans first.code, second.userCodeHash.trans first.userCodeHash,
    second.expiresAt.trans first.expiresAt, ?_⟩
  rcases first.decision with ⟨status, user, access, days⟩ | ⟨approved, consumed⟩
  · rcases second.decision with ⟨status', user', access', days'⟩ | ⟨approved, consumed⟩
    · exact .inl ⟨status'.trans status, user'.trans user, access'.trans access, days'.trans days⟩
    · exact .inr ⟨status.symm.trans approved, consumed⟩
  · rcases second.decision with ⟨status', -⟩ | ⟨approved', -⟩
    · exact .inr ⟨approved, status'.trans consumed⟩
    · rw [consumed] at approved'
      cases approved'

/-- A change of one request that is no decision. -/
theorem rowKept_update {requests : Table Uuid DeviceAuthorization}
    {hit : Uuid → DeviceAuthorization → Bool} {change : DeviceAuthorization → DeviceAuthorization}
    {id : Uuid} {row : DeviceAuthorization}
    (found : (requests.update hit change).get? id = some row)
    (keeps : ∀ id row, requests.get? id = some row → hit id row = true → RowKept row (change row)) :
    ∃ old, requests.get? id = some old ∧ RowKept old row := by
  rw [Table.get?_update] at found
  obtain ⟨old, before, same⟩ := Option.map_eq_some_iff.mp found
  refine ⟨old, before, ?_⟩
  split at same
  case isTrue hits => exact same ▸ keeps id old before hits
  case isFalse => exact same ▸ RowKept.refl old

theorem rowKept_delete {requests : Table Uuid DeviceAuthorization}
    {hit : Uuid → DeviceAuthorization → Bool} {id : Uuid} {row : DeviceAuthorization}
    (found : (requests.delete hit).get? id = some row) :
    ∃ old, requests.get? id = some old ∧ RowKept old row := by
  rw [Table.get?_delete] at found
  exact ⟨row, (Option.filter_eq_some_iff.mp found).1, RowKept.refl row⟩

theorem drawing_selectRequest {deviceCode : DeviceCode} {now : Nat} :
    (state.selectRequest deviceCode now).drawing = none := by
  unfold selectRequest
  repeat' split
  all_goals rfl

theorem stated_of_insertRequest {clientName : String} {deviceCode : DeviceCode}
    {expiresAt attempt : Nat}
    (moved : state.insertRequest clientName deviceCode expiresAt attempt draw =
      some (next, after)) :
    Stated state (.requestCode clientName deviceCode expiresAt attempt) next after := by
  have same : ∀ id row, state.requests.get? id = some row →
      ∃ old, state.requests.get? id = some old ∧ RowKept old row :=
    fun id row found => ⟨row, found, RowKept.refl row⟩
  unfold insertRequest at moved
  split at moved
  case isTrue => cases moved
  case isFalse drawn =>
    simp only [Bool.or_eq_true, not_or, Option.not_isSome_iff_eq_none] at drawn
    split at moved
    case isTrue =>
      split at moved <;> cases moved
      · exact .kept same rfl rfl (.inr rfl)
      · exact .kept same rfl rfl (.inl rfl)
    case isFalse free =>
      cases moved
      refine .stored rfl drawn.2 rfl ?_ rfl
      intro other stored found equal
      refine free (Table.anyWhere_iff.mpr ⟨other, stored, found, ?_⟩)
      simp [equal]

theorem stated_of_claim {deviceCode : DeviceCode} {request : Uuid} {polledAt : Nat}
    (moved : state.claim request polledAt draw = some (next, after)) :
    Stated state (.exchange deviceCode polledAt (.claim request)) next after := by
  have same : ∀ id row, state.requests.get? id = some row →
      ∃ old, state.requests.get? id = some old ∧ RowKept old row :=
    fun id row found => ⟨row, found, RowKept.refl row⟩
  unfold claim at moved
  split at moved
  case h_1 =>
    cases moved
    exact .kept same rfl rfl (.inl rfl)
  case h_2 row claimed =>
    obtain ⟨present, test⟩ := Option.filter_eq_some_iff.mp claimed
    simp only [Bool.and_eq_true, decide_eq_true_eq] at test
    obtain ⟨approved, inTime⟩ := test
    have consume : ∀ id stored,
        (state.requests.update (fun id _ => id = request) fun row =>
          { row with status := .consumed, lastPolledAt := some polledAt }).get? id = some stored →
        ∃ old, state.requests.get? id = some old ∧ RowKept old stored := by
      intro id stored found
      refine rowKept_update found fun other old before hit => ?_
      obtain rfl := of_decide_eq_true hit
      rw [present] at before
      obtain rfl := Option.some.inj before
      exact ⟨rfl, rfl, rfl, .inr ⟨approved, rfl⟩⟩
    dsimp only at moved
    split at moved
    case h_1 user access mine given =>
      split at moved
      case h_1 =>
        cases moved
        exact .kept consume rfl rfl (.inl rfl)
      case h_2 account found =>
        split at moved
        case isTrue => cases moved
        case isFalse =>
          cases moved
          have linked : ∀ other stored,
              ((state.requests.update (fun id _ => id = request) fun row =>
                { row with status := .consumed, lastPolledAt := some polledAt }).update
                  (fun id _ => id = request) fun row =>
                    { row with apiKeyId := some draw.key }).get? other = some stored →
              ∃ old, state.requests.get? other = some old ∧ RowKept old stored := by
            intro other stored found
            obtain ⟨middle, stepped, kept⟩ := rowKept_update found
              fun _ row _ _ => ⟨rfl, rfl, rfl, .inl ⟨rfl, rfl, rfl, rfl⟩⟩
            obtain ⟨old, before, keeps⟩ := consume other middle stepped
            exact ⟨old, before, keeps.trans kept⟩
          have consumes : ((state.requests.update (fun id _ => id = request) fun row =>
                { row with status := .consumed, lastPolledAt := some polledAt }).update
                  (fun id _ => id = request) fun row =>
                    { row with apiKeyId := some draw.key }).get? request =
              some { row with
                status := .consumed, lastPolledAt := some polledAt
                apiKeyId := some draw.key } := by
            rw [Table.get?_update_self, Table.get?_update_self, present]
            rfl
          exact .issued present approved inTime mine given linked consumes rfl rfl rfl rfl rfl
    case h_2 =>
      cases moved
      exact .kept consume rfl rfl (.inl rfl)

theorem stated_of_statement (moved : state.statement draw call = some (next, after)) :
    Stated state call next after := by
  unfold statement at moved
  split at moved
  case h_1 => exact stated_of_insertRequest moved
  case h_2 =>
    cases moved
    exact .kept (fun id row found => ⟨row, found, RowKept.refl row⟩) rfl rfl
      (.inl drawing_selectRequest)
  case h_3 =>
    cases moved
    refine .kept (fun id row found => ?_) rfl rfl (.inl rfl)
    exact rowKept_update found fun _ row _ _ => ⟨rfl, rfl, rfl, .inl ⟨rfl, rfl, rfl, rfl⟩⟩
  case h_4 => exact stated_of_claim moved
  all_goals cases moved

/-- The calls after a statement of one of them. -/
theorem drawing_set {index : Nat} (present : state.calls[index]? = some call)
    (drawing : after.drawing = none ∨ after.drawing = call.drawing) {other : Nat}
    {current : PairingCall} {code : DeviceCode}
    (found : (state.calls.set index after)[other]? = some current)
    (draws : current.drawing = some code) :
    ∃ old, state.calls[other]? = some old ∧ old.drawing = some code := by
  rw [List.getElem?_set] at found
  split at found
  case isFalse => exact ⟨current, found, draws⟩
  case isTrue same =>
    subst same
    split at found
    case isFalse => cases found
    case isTrue =>
      obtain rfl := Option.some.inj found
      rcases drawing with none | kept
      · rw [none] at draws
        cases draws
      · exact ⟨call, present, kept.symm.trans draws⟩

theorem Sound.stated (sound : state.Sound) {index : Nat}
    (present : state.calls[index]? = some call) (stated : Stated state call next after) :
    Sound { next with calls := state.calls.set index after } := by
  cases stated with
  | kept rows journal calls drawing =>
      refine sound.kept ⟨rows, journal, Nat.le_of_eq (List.length_set ..).symm, ?_⟩
      exact fun other current code found draws => .inl (drawing_set present drawing found draws)
  | stored drew fresh pending unique told =>
      exact sound.insert present drew fresh rfl pending unique told
  | @issued _ id row used user access polledAt _ found approved inTime mine given rows consumes same
      consumed journal calls told =>
      have middle : Sound { next with
          journal := state.journal, calls := state.calls.set index after } := by
        refine sound.kept ⟨rows, rfl, Nat.le_of_eq (List.length_set ..).symm, ?_⟩
        exact fun other current code found draws =>
          .inl (drawing_set present (.inl told) found draws)
      have unissued := sound.unissued id row found (by rw [approved]; nofun)
      obtain ⟨principal, given', decidedAt, mine', access', session, before, listed⟩ :=
        sound.approved id row found approved
      have justified : Justified state.journal row.code
          (createdKey user row.clientName access row.keyExpiresInDays state.now) state.now polledAt
            row.expiresAt := by
        refine ⟨inTime, principal, given', row.keyExpiresInDays, decidedAt, listed, session, before,
          ?_, ?_, rfl⟩
        · exact Option.some.inj (mine.symm.trans mine')
        · rw [given] at access'
          obtain rfl := Option.some.inj access'
          rfl
      have issued := middle.issue consumes consumed (same ▸ unissued) (same ▸ justified)
      rw [journal, ← same]
      exact issued

/-- A decision that is accepted hits the one pending request of the user code. -/
theorem decide_cases (sound : state.Sound) {principal : Principal} {addressAllowed : Bool}
    {userCode : String} {change : DeviceAuthorization → DeviceAuthorization}
    {event : DeviceAuthorization → PairingEvent}
    (decided : state.decide principal addressAllowed userCode change event = some next) :
    principal.authVia = .session ∧ ∃ code id row, normalizeUserCode userCode = some code ∧
      state.requests.get? id = some row ∧ row.userCodeHash = hashToken code ∧
      row.status = .pending ∧ state.now < row.expiresAt ∧
      next.requests.get? id = some (change row) ∧
      (∀ other, other ≠ id → next.requests.get? other = state.requests.get? other) ∧
      next.calls = state.calls ∧ next.journal = state.journal ++ [event row] := by
  unfold decide at decided
  split at decided
  case isTrue => cases decided
  case isFalse admitted =>
    obtain ⟨code, normal, hits⟩ := Option.bind_eq_some_iff.mp decided
    dsimp only at hits
    split at hits
    case isTrue => cases hits
    case isFalse hit =>
      obtain rfl := Option.some.inj hits
      simp only [Bool.or_eq_true, Bool.not_eq_true', not_or, Bool.not_eq_false] at hit
      obtain ⟨id, row, present, test⟩ := Table.anyWhere_iff.mp hit.1
      have matches' : ∀ other stored, decides code state.now other stored = true →
          stored.userCodeHash = hashToken code ∧ stored.status = .pending ∧
            state.now < stored.expiresAt := by
        intro other stored hits
        simpa [decides, and_assoc] using hits
      obtain ⟨mine, pending, unexpired⟩ := matches' id row test
      have only : ∀ other stored, state.requests.get? other = some stored →
          decides code state.now other stored = true → other = id := by
        intro other stored found hits
        exact sound.userCodes other id stored row found present
          ((matches' other stored hits).1.trans mine.symm)
      refine ⟨?_, code, id, row, normal, present, mine, pending, unexpired, ?_, ?_, rfl, ?_⟩
      · cases via : principal.authVia with
        | session => rfl
        | apiKey =>
            obtain ⟨user, via'⟩ := principal
            obtain rfl : via' = .apiKey := via
            have closed : (canActivate decisionRoute ⟨user, .apiKey⟩ addressAllowed).isOk = false :=
              canActivate_of_noApiKey addressAllowed rfl rfl
            simp [closed] at admitted
      · change (state.requests.update _ change).get? id = _
        rw [Table.get?_update, present]
        exact congrArg some (if_pos test)
      · intro other different
        change (state.requests.update _ change).get? other = _
        rw [Table.get?_update]
        cases found : state.requests.get? other with
        | none => rfl
        | some stored =>
            refine congrArg some (if_neg fun hits => ?_)
            exact different (only other stored found hits)
      · change state.journal ++ _ = _
        rw [Table.filter_rows_of_unique present test only]
        rfl

theorem Sound.step (sound : state.Sound) {action : PairingAction}
    (moved : state.step action = some next) : next.Sound := by
  have same : ∀ id row, state.requests.get? id = some row →
      ∃ old, state.requests.get? id = some old ∧ RowKept old row :=
    fun id row found => ⟨row, found, RowKept.refl row⟩
  have calls : ∀ {index : Nat} {call : PairingCall} {code : DeviceCode},
      state.calls[index]? = some call → call.drawing = some code →
        (∃ old, state.calls[index]? = some old ∧ old.drawing = some code) ∨
          code = ⟨index⟩ ∧ index = state.calls.length :=
    fun found draws => .inl ⟨_, found, draws⟩
  have began : ∀ {call : PairingCall},
      (∀ code, call.drawing = some code → code = ⟨state.calls.length⟩) →
      Sound { state with calls := state.calls ++ [call] } := by
    intro call mine
    refine sound.kept ⟨same, rfl, by simp, ?_⟩
    intro index current code found draws
    rw [List.getElem?_append] at found
    split at found
    case isTrue => exact .inl ⟨current, found, draws⟩
    case isFalse past =>
      obtain ⟨at', rfl⟩ : index - state.calls.length = 0 ∧ call = current := by
        rw [List.getElem?_singleton] at found
        split at found
        case isTrue zero => exact ⟨zero, Option.some.inj found⟩
        case isFalse => cases found
      have here : index = state.calls.length := by omega
      exact .inr ⟨here ▸ mine code draws, here⟩
  cases action with
  | requestCode clientName =>
      cases moved
      exact began fun code drawn => (Option.some.inj drawn).symm
  | exchange deviceCode =>
      cases moved
      exact began nofun
  | proceed index draw =>
      obtain ⟨call, present, moved⟩ := Option.bind_eq_some_iff.mp moved
      obtain ⟨⟨written, after⟩, stated, rfl⟩ := Option.map_eq_some_iff.mp moved
      exact sound.stated present (stated_of_statement stated)
  | approve principal addressAllowed dto =>
      simp only [Pairings.step] at moved
      split at moved
      case isFalse => cases moved
      case isTrue =>
        obtain ⟨session, code, id, row, -, present, -, pending, unexpired, changed, others, kept,
          journal⟩ := decide_cases sound moved
        refine sound.decided ⟨present, pending, changed, others, rfl, rfl, kept, journal, rfl, rfl,
          .inl ⟨rfl, ?_, nofun⟩⟩
        exact ⟨principal, dto.access, state.now, rfl, rfl, session, unexpired,
          journal ▸ List.mem_append_right _ List.mem_cons_self⟩
  | deny principal addressAllowed userCode =>
      simp only [Pairings.step] at moved
      split at moved
      case isFalse => cases moved
      case isTrue =>
        obtain ⟨session, code, id, row, -, present, -, pending, unexpired, changed, others, kept,
          journal⟩ := decide_cases sound moved
        exact sound.decided ⟨present, pending, changed, others, rfl, rfl, kept, journal, rfl, rfl,
          .inr rfl⟩
  | purgeExpired =>
      cases moved
      exact sound.kept
        ⟨fun _ _ found => rowKept_delete found, rfl, Nat.le_refl _, fun _ _ _ => calls⟩
  | createUser id user =>
      simp only [Pairings.step] at moved
      split at moved <;> cases moved
      exact sound.kept ⟨same, rfl, Nat.le_refl _, fun _ _ _ => calls⟩
  | updateUser id disabled isAdmin =>
      cases moved
      exact sound.kept ⟨same, rfl, Nat.le_refl _, fun _ _ _ => calls⟩
  | removeUser id =>
      cases moved
      exact sound.kept
        ⟨fun _ _ found => rowKept_delete found, rfl, Nat.le_refl _, fun _ _ _ => calls⟩
  | removeApiKey id =>
      cases moved
      refine sound.kept ⟨fun _ _ found => ?_, rfl, Nat.le_refl _, fun _ _ _ => calls⟩
      exact rowKept_update found fun _ row _ _ => ⟨rfl, rfl, rfl, .inl ⟨rfl, rfl, rfl, rfl⟩⟩
  | tick time =>
      simp only [Pairings.step] at moved
      split at moved <;> cases moved
      exact sound.kept ⟨same, rfl, Nat.le_refl _, fun _ _ _ => calls⟩

theorem sound_initial : Sound {} := by
  have noRow : ∀ {id row}, ({} : Pairings).requests.get? id = some row → False := by
    intro id row found
    rw [Table.get?_empty] at found
    cases found
  refine ⟨?_, fun _ _ found => (noRow found).elim, by simp, fun _ _ _ _ found => (noRow found).elim,
    fun _ _ _ _ found => (noRow found).elim, fun _ _ found => (noRow found).elim, fun _ => by simp,
    fun _ _ found => (noRow found).elim, by simp, by simp⟩
  intro index call code found
  simp at found

theorem sound_of_reachable {allowed : Pairings → PairingAction → Prop}
    (reached : pairings.Reachable allowed state) : state.Sound := by
  refine System.Invariant.holds ⟨?_, ?_⟩ reached
  · rintro state rfl
    exact sound_initial
  · intro state action next sound _ moved
    exact sound.step moved

end Pairings

/-- A signed-in user. -/
def signedIn : Principal := ⟨{ id := 1, isAdmin := false }, .session⟩

/-- A request is approved, and a poll is called before its expiry. -/
def polledBeforeExpiry : List PairingAction :=
  [.createUser 1 { email := "user@example.com" }, .requestCode "laptop",
    .proceed 0 { request := 5, userCode := "BCDFGHJK" },
    .approve signedIn true { userCode := "bcdf-ghjk", access := .read, expiresInDays := some 30 },
    .tick 599999, .exchange ⟨0⟩, .proceed 1 {}]

/-- The poll claims the request after its expiry. -/
def claimedAfterExpiry : List PairingAction :=
  polledBeforeExpiry ++ [.tick 600001, .proceed 1 { key := 9 }]

/-- A key was created for a request that had expired. -/
def issuedExpired (state : Pairings) : Bool :=
  state.journal.any fun event =>
    match event with
    | .issued _ _ createdAt _ expiresAt => expiresAt < createdAt
    | _ => false

end AmberBackup.Auth
