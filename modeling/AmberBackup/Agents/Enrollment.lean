import AmberBackup.Auth.TotpService
import AmberBackup.Common.Slug
import AmberBackup.Lib.Pool
import AmberBackup.Lib.Transition

/-! # Enrollment of agents

An agent enrolls with the global token or with a one-time token, which the call marks as
used before it picks the agent's slug and inserts its row. Each statement of a call is one
step, and the steps of calls interleave. Every token is used by exactly one call
(`Enrollment.redeemed_eq_used`), so no two agents come from one token. That call may fail
after it has used the token; in runs where none is disturbed there, a token is used if and
only if an agent was created from it (`token_used_iff_enrolled`).
-/

namespace AmberBackup

open Relational Transition

open Auth (TokenHash hashToken)

structure EnrollmentToken where
  tokenHash : TokenHash String
  intendedAgentName : Option String
  expiresAt : Nat
  usedAt : Option Nat := none
  deriving DecidableEq, Repr

/-- The setting `global_enrollment`. -/
structure GlobalEnrollment where
  enabled : Bool := false
  token : Option String := none
  deriving DecidableEq, Repr

structure EnrollDto where
  token : String
  agentName : Option String
  hostname : Option String := none
  os : Option String := none
  pubkey : Option String := none
  agentVersion : Option String := none
  deriving DecidableEq, Repr

/-- What an enrollment writes to an agent's row, without the keys. -/
structure EnrolledAgent where
  name : String
  slug : String
  hostname : Option String
  os : Option String
  pubkey : Option String
  agentVersion : Option String
  deriving DecidableEq, Repr

/-- `AgentsService.enroll`, before each of its statements and at its end. -/
inductive EnrollPhase where
  | matchesGlobalToken
  | readToken
  | consume (token : Uuid) (name : String)
  | uniqueSlug (token : Option Uuid) (name : String)
  | insert (token : Option Uuid) (name slug : String)
  | enrolled (token : Option Uuid) (agent : Uuid) (createdAt : Nat)
  /-- The call has thrown; it may have used a token. -/
  | failed (token : Option Uuid) (failure : Failure)
  deriving DecidableEq, Repr

structure EnrollCall where
  dto : EnrollDto
  phase : EnrollPhase := .matchesGlobalToken
  deriving DecidableEq, Repr

/-- The tables `enroll` works on and the calls so far. -/
structure Enrollment where
  now : Nat := 0
  globalEnrollment : GlobalEnrollment := {}
  tokens : Table Uuid EnrollmentToken := .empty
  agents : Table Uuid EnrolledAgent := .empty
  calls : List EnrollCall := []

inductive EnrollAction where
  | enroll (dto : EnrollDto)
  /-- The call's next statement; `agent` is the id of a row it inserts. -/
  | proceed (call : Nat) (agent : Uuid)
  /-- The database fails the call's next statement. -/
  | refuse (call : Nat)
  | createEnrollmentToken (id : Uuid) (token : String) (intendedAgentName : Option String)
      (expiresAt : Nat)
  | setGlobalEnrollment (setting : GlobalEnrollment)
  /-- `AgentsService.update` writes a name and the slug it has picked. -/
  | updateAgent (id : Uuid) (name slug : String)
  | removeAgent (id : Uuid)
  | tick (time : Nat)
  deriving DecidableEq, Repr

def matchesGlobalToken (setting : GlobalEnrollment) (presented : String) : Bool :=
  setting.enabled && setting.token.any fun token =>
    token ≠ "" && hashToken presented = hashToken token

/-- A name is required, whichever statement comes next. -/
def requireName (name : Option String) (next : String → EnrollPhase) : EnrollPhase :=
  match name with
  | none | some "" => .failed none (.badRequest "Agent name is required for enrollment")
  | some name => next name

namespace Enrollment

def slugs (state : Enrollment) : List String := state.agents.rows.map fun entry => entry.2.slug

/-- The checks of a one-time token, and the agent's name. -/
def readToken (state : Enrollment) (dto : EnrollDto) : EnrollPhase :=
  match state.tokens.rows.find? fun entry => entry.2.tokenHash = hashToken dto.token with
  | none => .failed none (.forbidden "Invalid enrollment token")
  | some (id, token) =>
      if token.usedAt.isSome then .failed none (.forbidden "Token already used")
      else if token.expiresAt < state.now then
        .failed none (.forbidden "Enrollment token expired")
      else
        let pinned := (token.intendedAgentName.map Auth.trim).filter (· ≠ "")
        requireName (pinned.or (dto.agentName.map Auth.trim)) (.consume id)

/-- One statement of a call, with what the call does up to its next one. -/
def statement (state : Enrollment) (dto : EnrollDto) (agent : Uuid) :
    EnrollPhase → Option (Enrollment × EnrollPhase)
  | .matchesGlobalToken =>
      if matchesGlobalToken state.globalEnrollment dto.token then
        some (state, requireName (dto.agentName.map Auth.trim) (.uniqueSlug none))
      else some (state, .readToken)
  | .readToken => some (state, state.readToken dto)
  | .consume id name =>
      if state.tokens.anyWhere fun other token => other = id && token.usedAt.isNone then
        some ({ state with
          tokens := state.tokens.update (fun other token => other = id && token.usedAt.isNone)
            fun token => { token with usedAt := some state.now } }, .uniqueSlug (some id) name)
      else some (state, .failed none (.forbidden "Token already used"))
  | .uniqueSlug token name =>
      some (state, .insert token name (AmberBackup.uniqueSlug state.slugs name))
  | .insert token name slug =>
      if slug ∈ state.slugs then
        some (state, .failed token (.error
          "duplicate key value violates unique constraint \"agents_slug_unique\""))
      else if (state.agents.get? agent).isSome then none
      else
        some ({ state with
          agents := state.agents.insert agent {
            name := name
            slug := slug
            hostname := dto.hostname
            os := dto.os
            pubkey := dto.pubkey
            agentVersion := dto.agentVersion } }, .enrolled token agent state.now)
  | .enrolled .. | .failed .. => none

end Enrollment

/-- The one-time token a call has used. -/
def EnrollPhase.redeemed : EnrollPhase → Option Uuid
  | .uniqueSlug token _ | .insert token _ _ | .enrolled token _ _ | .failed token _ => token
  | .matchesGlobalToken | .readToken | .consume _ _ => none

/-- The one-time token a call has read and not thrown or returned since. -/
def EnrollPhase.redeeming : EnrollPhase → Option Uuid
  | .consume token _ => some token
  | .uniqueSlug token _ | .insert token _ _ => token
  | .matchesGlobalToken | .readToken | .enrolled .. | .failed .. => none

def EnrollPhase.underWay : EnrollPhase → Bool
  | .enrolled .. | .failed .. => false
  | _ => true

namespace Enrollment

def step (state : Enrollment) : EnrollAction → Option Enrollment
  | .enroll dto => some { state with calls := state.calls ++ [{ dto := dto }] }
  | .proceed index agent =>
      (state.calls[index]?).bind fun call =>
        (state.statement call.dto agent call.phase).map fun (next, phase) =>
          { next with calls := state.calls.set index { call with phase := phase } }
  | .refuse index =>
      (state.calls[index]?).bind fun call =>
        if call.phase.underWay then
          some { state with
            calls := state.calls.set index { call with
              phase := .failed call.phase.redeemed (.error "Connection terminated unexpectedly") } }
        else none
  | .createEnrollmentToken id token intendedAgentName expiresAt =>
      if (state.tokens.get? id).isSome then none
      else
        some { state with
          tokens := state.tokens.insert id {
            tokenHash := hashToken token
            intendedAgentName := intendedAgentName
            expiresAt := expiresAt } }
  | .setGlobalEnrollment setting => some { state with globalEnrollment := setting }
  | .updateAgent id name slug =>
      if state.agents.anyWhere fun other agent => other ≠ id && agent.slug = slug then none
      else
        some { state with
          agents := state.agents.update (fun other _ => other = id)
            fun agent => { agent with name := name, slug := slug } }
  | .removeAgent id => some { state with agents := state.agents.delete fun other _ => other = id }
  | .tick time => if state.now ≤ time then some { state with now := time } else none

end Enrollment

/-- The server, from a database without tokens and agents on. -/
def enrollment : System Enrollment EnrollAction where
  initial := fun state => state = {}
  step := Enrollment.step

/-! ## What a statement does to the tokens -/

namespace Enrollment

variable {state next : Enrollment} {action : EnrollAction} {dto : EnrollDto} {agent id : Uuid}
  {phase after : EnrollPhase} {call : EnrollCall}

/-- A token that can be redeemed now. -/
def Redeemable (state : Enrollment) (id : Uuid) : Prop :=
  ∃ token, state.tokens.get? id = some token ∧ state.now ≤ token.expiresAt

/-- The token has been marked as used. -/
def used (state : Enrollment) (id : Uuid) : Bool :=
  (state.tokens.get? id).any fun token => token.usedAt.isSome

theorem requireName_redeemed {name : Option String} {following : String → EnrollPhase}
    (follows : ∀ name, (following name).redeemed = none) :
    (requireName name following).redeemed = none := by
  unfold requireName
  split
  · rfl
  · rfl
  · exact follows _

theorem requireName_redeeming {name : Option String} {following : String → EnrollPhase}
    (redeeming : (requireName name following).redeeming = some id) :
    ∃ name, (following name).redeeming = some id := by
  unfold requireName at redeeming
  split at redeeming
  · cases redeeming
  · cases redeeming
  · exact ⟨_, redeeming⟩

theorem readToken_redeemed : (state.readToken dto).redeemed = none := by
  unfold readToken
  split
  · rfl
  · split
    · rfl
    · split
      · rfl
      · exact requireName_redeemed fun _ => rfl

/-- A call only goes on with a token that is there and has not expired. -/
theorem redeemable_of_readToken (redeeming : (state.readToken dto).redeeming = some id) :
    state.Redeemable id := by
  unfold readToken at redeeming
  split at redeeming
  case h_1 => cases redeeming
  case h_2 other token found =>
    split at redeeming
    case isTrue => cases redeeming
    case isFalse =>
      split at redeeming
      case isTrue => cases redeeming
      case isFalse unexpired =>
        obtain ⟨name, same⟩ := requireName_redeeming redeeming
        obtain rfl := Option.some.inj same
        have listed := Table.mem_rows.mp (List.mem_of_find?_eq_some found)
        exact ⟨token, listed, Nat.le_of_not_lt unexpired⟩

/-- What a statement can do: the checks write nothing, one statement uses the token, and
what follows keeps it used. -/
theorem statement_cases (moved : state.statement dto agent phase = some (next, after)) :
    (next = state ∧ phase.redeemed = none ∧ after.redeemed = none ∧
      ∀ id, after.redeeming = some id → state.Redeemable id) ∨
    (∃ id name token, phase = .consume id name ∧ after = .uniqueSlug (some id) name ∧
      state.tokens.get? id = some token ∧ token.usedAt = none ∧
      next = { state with
        tokens := state.tokens.update (fun other token => other = id && token.usedAt.isNone)
          fun token => { token with usedAt := some state.now } }) ∨
    (∃ token name slug, phase = .uniqueSlug token name ∧ after = .insert token name slug ∧
      next = state) ∨
    (∃ token name slug failure, phase = .insert token name slug ∧ after = .failed token failure ∧
      slug ∈ state.slugs ∧ next = state) ∨
    ∃ token name slug agents, phase = .insert token name slug ∧
      after = .enrolled token agent state.now ∧ slug ∉ state.slugs ∧
      next = { state with agents := agents } := by
  cases phase with
  | matchesGlobalToken =>
      simp only [statement] at moved
      split at moved <;> obtain ⟨rfl, rfl⟩ := Prod.mk.inj (Option.some.inj moved)
      · refine .inl ⟨rfl, rfl, requireName_redeemed fun _ => rfl, ?_⟩
        intro id redeeming
        obtain ⟨name, none⟩ := requireName_redeeming redeeming
        cases none
      · exact .inl ⟨rfl, rfl, rfl, nofun⟩
  | readToken =>
      obtain ⟨rfl, rfl⟩ := Prod.mk.inj (Option.some.inj moved)
      exact .inl ⟨rfl, rfl, readToken_redeemed, fun _ => redeemable_of_readToken⟩
  | consume id name =>
      simp only [statement] at moved
      split at moved <;> obtain ⟨rfl, rfl⟩ := Prod.mk.inj (Option.some.inj moved)
      case isTrue hit =>
        obtain ⟨other, token, found, test⟩ := Table.anyWhere_iff.mp hit
        simp only [Bool.and_eq_true, decide_eq_true_eq, Option.isNone_iff_eq_none] at test
        obtain ⟨rfl, unused⟩ := test
        exact .inr (.inl ⟨_, name, token, rfl, rfl, found, unused, rfl⟩)
      case isFalse => exact .inl ⟨rfl, rfl, rfl, nofun⟩
  | uniqueSlug token name =>
      obtain ⟨rfl, rfl⟩ := Prod.mk.inj (Option.some.inj moved)
      exact .inr (.inr (.inl ⟨token, name, _, rfl, rfl, rfl⟩))
  | insert token name slug =>
      simp only [statement] at moved
      split at moved
      case isTrue taken =>
        obtain ⟨rfl, rfl⟩ := Prod.mk.inj (Option.some.inj moved)
        exact .inr (.inr (.inr (.inl ⟨token, name, slug, _, rfl, rfl, taken, rfl⟩)))
      case isFalse free =>
        split at moved
        case isTrue => cases moved
        case isFalse =>
          obtain ⟨rfl, rfl⟩ := Prod.mk.inj (Option.some.inj moved)
          exact .inr (.inr (.inr (.inr ⟨token, name, slug, _, rfl, rfl, free, rfl⟩)))
  | enrolled _ _ _ | failed _ _ => cases moved

/-- Any other step leaves the calls, and every token that exists, as they are. -/
def Elsewhere (state next : Enrollment) : Prop :=
  next.calls = state.calls ∧ (∀ id token, state.tokens.get? id = some token →
    next.tokens.get? id = some token) ∧ ∀ id, next.used id = state.used id

theorem step_cases (moved : state.step action = some next) :
    (∃ dto, action = .enroll dto ∧ next = { state with calls := state.calls ++ [{ dto := dto }] }) ∨
    (∃ index agent call written after, action = .proceed index agent ∧
      state.calls[index]? = some call ∧
      state.statement call.dto agent call.phase = some (written, after) ∧
      next = { written with calls := state.calls.set index { call with phase := after } }) ∨
    (∃ index call failure, action = .refuse index ∧ state.calls[index]? = some call ∧
      call.phase.underWay = true ∧
      next = { state with
        calls := state.calls.set index { call with
          phase := .failed call.phase.redeemed failure } }) ∨
    (state.Elsewhere next ∧ (next.now = state.now ∨ action = .tick next.now)) := by
  cases action with
  | enroll dto => exact .inl ⟨dto, rfl, (Option.some.inj moved).symm⟩
  | proceed index agent =>
      obtain ⟨call, present, moved⟩ := Option.bind_eq_some_iff.mp moved
      obtain ⟨⟨written, after⟩, written_eq, rfl⟩ := Option.map_eq_some_iff.mp moved
      exact .inr (.inl ⟨index, agent, call, written, after, rfl, present, written_eq, rfl⟩)
  | refuse index =>
      obtain ⟨call, present, moved⟩ := Option.bind_eq_some_iff.mp moved
      split at moved
      case isFalse => cases moved
      case isTrue underWay =>
        obtain rfl := Option.some.inj moved
        exact .inr (.inr (.inl ⟨index, call, _, rfl, present, underWay, rfl⟩))
  | createEnrollmentToken id token intendedAgentName expiresAt =>
      simp only [step] at moved
      split at moved
      case isTrue => cases moved
      case isFalse absent =>
        obtain rfl := Option.some.inj moved
        have fresh : state.tokens.get? id = none := Option.not_isSome_iff_eq_none.mp absent
        refine .inr (.inr (.inr ⟨⟨rfl, ?_, ?_⟩, .inl rfl⟩))
        · intro other row present
          exact Table.get?_insert_of_some present _
        · intro other
          simp only [used, Table.get?_insert fresh]
          split
          case isTrue same => simp [same, fresh]
          case isFalse => rfl
  | setGlobalEnrollment setting =>
      obtain rfl := Option.some.inj moved
      exact .inr (.inr (.inr ⟨⟨rfl, fun _ _ present => present, fun _ => rfl⟩, .inl rfl⟩))
  | updateAgent id name slug =>
      simp only [step] at moved
      split at moved
      case isTrue => cases moved
      case isFalse =>
        obtain rfl := Option.some.inj moved
        exact .inr (.inr (.inr ⟨⟨rfl, fun _ _ present => present, fun _ => rfl⟩, .inl rfl⟩))
  | removeAgent id =>
      obtain rfl := Option.some.inj moved
      exact .inr (.inr (.inr ⟨⟨rfl, fun _ _ present => present, fun _ => rfl⟩, .inl rfl⟩))
  | tick time =>
      simp only [step] at moved
      split at moved
      case isFalse => cases moved
      case isTrue =>
        obtain rfl := Option.some.inj moved
        exact .inr (.inr (.inr ⟨⟨rfl, fun _ _ present => present, fun _ => rfl⟩, .inr rfl⟩))

/-! ## Each token is used once -/

/-- Counts a call that has used the token. -/
def redeemsCount (id : Uuid) (call : EnrollCall) : Nat :=
  if call.phase.redeemed = some id then 1 else 0

/-- Counts a call that has created an agent from the token. -/
def enrolledCount (id : Uuid) (call : EnrollCall) : Nat :=
  match call.phase with
  | .enrolled token _ _ => if token = some id then 1 else 0
  | _ => 0

/-- How many calls have used the token. -/
def redeemed (state : Enrollment) (id : Uuid) : Nat := Pool.total (redeemsCount id) state.calls

/-- How many agents were created from the token. -/
def enrolledFrom (state : Enrollment) (id : Uuid) : Nat :=
  Pool.total (enrolledCount id) state.calls

theorem redeemed_set (id : Uuid) (after : EnrollPhase) {calls : List EnrollCall} {index : Nat}
    (present : calls[index]? = some call) :
    Pool.total (redeemsCount id) (calls.set index { call with phase := after }) +
        (if call.phase.redeemed = some id then 1 else 0) =
      Pool.total (redeemsCount id) calls + (if after.redeemed = some id then 1 else 0) :=
  Pool.total_set present

theorem used_write {change : EnrollmentToken → EnrollmentToken} {other : Uuid}
    (uses : ∀ token, (change token).usedAt.isSome = true) {token : EnrollmentToken}
    (present : state.tokens.get? id = some token) (unused : token.usedAt = none) :
    Enrollment.used { state with
      tokens := state.tokens.update (fun other token => other = id && token.usedAt.isNone) change }
        other = if other = id then true else state.used other := by
  simp only [used, Table.get?_update]
  by_cases same : other = id
  · subst same
    simp [present, unused, uses]
  · cases state.tokens.get? other <;> simp [same]

/-- A token is used by exactly one call, which keeps it to its end. -/
theorem redeemed_step (accounted : ∀ id, state.redeemed id = (state.used id).toNat)
    (moved : state.step action = some next) (id : Uuid) :
    next.redeemed id = (next.used id).toNat := by
  have before := accounted id
  rcases step_cases moved with ⟨dto, -, rfl⟩ | ⟨index, agent, call, written, after, -, present,
    statement, rfl⟩ | ⟨index, call, failure, -, present, underWay, rfl⟩ | ⟨elsewhere, -⟩
  · change _ = (state.used id).toNat
    simpa [redeemed, redeemsCount, EnrollPhase.redeemed] using before
  · have moves := redeemed_set id after present
    change Pool.total (redeemsCount id) (state.calls.set index { call with phase := after }) =
      (written.used id).toNat
    change Pool.total (redeemsCount id) state.calls = _ at before
    rcases statement_cases statement with ⟨rfl, none, stays, -⟩ | ⟨token, name, row, here, rfl,
      found, unused, rfl⟩ | ⟨token, name, slug, here, rfl, rfl⟩ | ⟨token, name, slug, failure, here,
      rfl, -, rfl⟩ | ⟨token, name, slug, agents, here, rfl, -, rfl⟩
    · rw [none, stays] at moves
      simpa [← before] using moves
    · rw [used_write (fun _ => rfl) found unused]
      rw [here] at moves
      simp only [EnrollPhase.redeemed, reduceCtorEq, if_false, Option.some.injEq,
        Nat.add_zero] at moves
      by_cases same : id = token
      · subst same
        have fresh : state.used id = false := by simp [used, found, unused]
        simp [moves, before, fresh]
      · have different : ¬ token = id := fun equal => same equal.symm
        simp [moves, before, same, different]
    all_goals
      rw [here] at moves
      simp only [EnrollPhase.redeemed] at moves
      exact (Nat.add_right_cancel moves).trans before
  · have moves := redeemed_set id (.failed call.phase.redeemed failure) present
    exact (Nat.add_right_cancel moves).trans before
  · rw [redeemed, elsewhere.1, elsewhere.2.2]
    exact before

theorem redeemed_eq_used {allowed : Enrollment → EnrollAction → Prop}
    (reached : enrollment.Reachable allowed state) (id : Uuid) :
    state.redeemed id = (state.used id).toNat := by
  have invariant : enrollment.Invariant allowed fun state =>
      ∀ id, state.redeemed id = (state.used id).toNat := by
    refine ⟨?_, ?_⟩
    · rintro state rfl id
      rfl
    · intro state action next accounted _ moved
      exact redeemed_step accounted moved
  exact invariant.holds reached id

theorem enrolledFrom_le_redeemed : state.enrolledFrom id ≤ state.redeemed id := by
  refine Pool.total_le_total fun call _ => ?_
  unfold enrolledCount redeemsCount
  split
  · rename_i phase
    rw [phase]
    exact Nat.le_refl _
  · exact Nat.zero_le _

/-! ## Enrollments that are not disturbed -/

/-- The slug a call inserts next, after it has used a token. -/
def inserting (state : Enrollment) (index : Nat) : Option String :=
  (state.calls[index]?).bind fun call =>
    match call.phase with
    | .insert (some _) _ slug => some slug
    | _ => none

/-- The step disturbs no call that uses a token: the slug it picked is still free when it
inserts the agent, the database does not fail it, and the token does not expire under it. -/
def Undisturbed (state : Enrollment) : EnrollAction → Prop
  | .proceed index _ => ∀ slug ∈ state.inserting index, slug ∉ state.slugs
  | .refuse index => ∀ call ∈ state.calls[index]?, call.phase.redeemed = none
  | .tick time => ∀ call ∈ state.calls, ∀ id ∈ call.phase.redeeming,
      ∀ token ∈ state.tokens.get? id, time ≤ token.expiresAt
  | _ => True

instance (state : Enrollment) (action : EnrollAction) : Decidable (state.Undisturbed action) := by
  cases action <;> unfold Undisturbed <;> infer_instance

/-- No call has thrown with a token, and no token has expired before its agent was there. -/
structure Orderly (state : Enrollment) : Prop where
  undamaged : ∀ call ∈ state.calls, ∀ id failure, call.phase ≠ .failed (some id) failure
  redeemable : ∀ call ∈ state.calls, ∀ id, call.phase.redeeming = some id → state.Redeemable id
  timely : ∀ call ∈ state.calls, ∀ id agent createdAt,
    call.phase = .enrolled (some id) agent createdAt →
      ∃ token, state.tokens.get? id = some token ∧ createdAt ≤ token.expiresAt

/-- No token is lost, and none gets another expiry. -/
def Keeps (state next : Enrollment) : Prop :=
  ∀ id token, state.tokens.get? id = some token →
    ∃ kept, next.tokens.get? id = some kept ∧ kept.expiresAt = token.expiresAt

theorem keeps_of_statement (moved : state.statement dto agent phase = some (next, after)) :
    state.Keeps next ∧ next.now = state.now := by
  rcases statement_cases moved with ⟨rfl, -⟩ | ⟨token, name, row, -, -, -, -, rfl⟩ |
    ⟨token, name, slug, -, -, rfl⟩ | ⟨token, name, slug, failure, -, -, -, rfl⟩ |
    ⟨token, name, slug, agents, -, -, -, rfl⟩
  case inr.inl =>
    refine ⟨fun id row present => ?_, rfl⟩
    rw [Table.get?_update, present]
    refine ⟨_, rfl, ?_⟩
    dsimp only
    split <;> rfl
  all_goals exact ⟨fun id row present => ⟨row, present, rfl⟩, rfl⟩

theorem Keeps.redeemable (kept : state.Keeps next) (now : next.now = state.now)
    (redeemable : state.Redeemable id) : next.Redeemable id := by
  obtain ⟨token, present, unexpired⟩ := redeemable
  obtain ⟨row, after, same⟩ := kept id token present
  exact ⟨row, after, by rw [now, same]; exact unexpired⟩

theorem Keeps.timely (kept : state.Keeps next) {createdAt : Nat}
    (timely : ∃ token, state.tokens.get? id = some token ∧ createdAt ≤ token.expiresAt) :
    ∃ token, next.tokens.get? id = some token ∧ createdAt ≤ token.expiresAt := by
  obtain ⟨token, present, unexpired⟩ := timely
  obtain ⟨row, after, same⟩ := kept id token present
  exact ⟨row, after, same ▸ unexpired⟩

/-- What the statement of a call leaves the call with, if it is not disturbed. -/
theorem Orderly.statement (orderly : state.Orderly) {index : Nat}
    (present : state.calls[index]? = some call)
    (moved : state.statement call.dto agent call.phase = some (next, after))
    (undisturbed : ∀ slug ∈ state.inserting index, slug ∉ state.slugs) :
    (∀ id failure, after ≠ .failed (some id) failure) ∧
    (∀ id, after.redeeming = some id → state.Redeemable id) ∧
    ∀ id agent createdAt, after = .enrolled (some id) agent createdAt →
      ∃ token, state.tokens.get? id = some token ∧ createdAt ≤ token.expiresAt := by
  have redeemable := orderly.redeemable call (List.mem_of_getElem? present)
  rcases statement_cases moved with ⟨-, -, none, reads⟩ | ⟨token, name, row, here, rfl, -⟩ |
    ⟨token, name, slug, here, rfl, -⟩ | ⟨token, name, slug, failure, here, rfl, taken, -⟩ |
    ⟨token, name, slug, agents, here, rfl, -, -⟩
  · refine ⟨?_, reads, ?_⟩
    · rintro id failure rfl
      cases none
    · rintro id agent createdAt rfl
      cases none
  · refine ⟨nofun, ?_, nofun⟩
    rw [here] at redeemable
    exact redeemable
  · refine ⟨nofun, ?_, nofun⟩
    rw [here] at redeemable
    exact redeemable
  · refine ⟨?_, nofun, nofun⟩
    rintro id other ⟨⟩
    exact undisturbed slug (by simp [inserting, present, here]) taken
  · refine ⟨nofun, nofun, ?_⟩
    rintro id other createdAt ⟨⟩
    exact redeemable id (by rw [here]; rfl)

theorem Orderly.step (orderly : state.Orderly) (undisturbed : state.Undisturbed action)
    (moved : state.step action = some next) : next.Orderly := by
  rcases step_cases moved with ⟨dto, -, rfl⟩ | ⟨index, agent, call, written, after, rfl, present,
    statement, rfl⟩ | ⟨index, call, failure, rfl, present, -, rfl⟩ | ⟨⟨calls, tokens, -⟩, time⟩
  · refine ⟨?_, ?_, ?_⟩ <;> intro call member <;> rcases List.mem_append.mp member with old | new
    · exact orderly.undamaged call old
    · obtain rfl := List.mem_singleton.mp new
      nofun
    · exact orderly.redeemable call old
    · obtain rfl := List.mem_singleton.mp new
      nofun
    · exact orderly.timely call old
    · obtain rfl := List.mem_singleton.mp new
      nofun
  · obtain ⟨kept, now⟩ := keeps_of_statement statement
    obtain ⟨undamaged, redeemable, timely⟩ := orderly.statement present statement undisturbed
    refine ⟨?_, ?_, ?_⟩ <;> intro other member <;>
      rcases List.mem_or_eq_of_mem_set member with old | rfl
    · exact orderly.undamaged other old
    · exact undamaged
    · exact fun id redeeming =>
        kept.redeemable now (orderly.redeemable other old id redeeming)
    · exact fun id redeeming => kept.redeemable now (redeemable id redeeming)
    · exact fun id agent createdAt here => kept.timely (orderly.timely other old id agent createdAt here)
    · exact fun id agent createdAt here => kept.timely (timely id agent createdAt here)
  · have unused : call.phase.redeemed = none := undisturbed call present
    refine ⟨?_, ?_, ?_⟩ <;> intro other member <;>
      rcases List.mem_or_eq_of_mem_set member with old | rfl
    · exact orderly.undamaged other old
    · rw [unused]
      nofun
    · exact orderly.redeemable other old
    · nofun
    · exact orderly.timely other old
    · nofun
  · have kept : state.Keeps next := fun id token present => ⟨token, tokens id token present, rfl⟩
    refine ⟨?_, ?_, ?_⟩ <;> intro call member <;> rw [calls] at member
    · exact orderly.undamaged call member
    · intro id redeeming
      rcases time with now | rfl
      · exact kept.redeemable now (orderly.redeemable call member id redeeming)
      · obtain ⟨token, present, -⟩ := orderly.redeemable call member id redeeming
        exact ⟨token, tokens id token present, undisturbed call member id redeeming token present⟩
    · exact fun id agent createdAt here =>
        kept.timely (orderly.timely call member id agent createdAt here)

theorem orderly_of_reachable (reached : enrollment.Reachable Undisturbed state) :
    state.Orderly := by
  refine System.Invariant.holds ⟨?_, ?_⟩ reached
  · rintro state rfl
    have none : ∀ call, ¬ call ∈ ({} : Enrollment).calls := fun call => List.not_mem_nil
    exact ⟨fun call member => absurd member (none call), fun call member => absurd member (none call),
      fun call member => absurd member (none call)⟩
  · intro state action next orderly undisturbed moved
    exact orderly.step undisturbed moved

/-- Without a call under way with the token, the agents created from it are its uses. -/
theorem Orderly.enrolledFrom_eq (orderly : state.Orderly)
    (quiet : ∀ call ∈ state.calls, call.phase.redeeming ≠ some id) :
    state.enrolledFrom id = state.redeemed id := by
  refine Nat.le_antisymm enrolledFrom_le_redeemed (Pool.total_le_total fun call member => ?_)
  have quiet := quiet call member
  have undamaged := orderly.undamaged call member
  unfold redeemsCount enrolledCount
  cases here : call.phase with
  | matchesGlobalToken | readToken | consume _ _ => exact Nat.zero_le _
  | uniqueSlug _ _ | insert _ _ _ =>
      rw [here] at quiet
      exact (if_neg quiet).le
  | enrolled _ _ _ => exact Nat.le_refl _
  | failed token failure =>
      refine (if_neg fun same => ?_).le
      obtain rfl : token = some id := same
      exact undamaged id failure here

end Enrollment

open Enrollment in
/-- **A one-time token is used if and only if an agent was created from it.** In every run
in which no enrollment that uses a token is disturbed, whatever else happens: a token gives
at most one agent, and only before it expires; no call that throws has used a token; and
once no call is under way with a token, it is used if and only if it gave an agent. -/
theorem token_used_iff_enrolled {state : Enrollment}
    (reached : enrollment.Reachable Undisturbed state) (id : Uuid) :
    state.enrolledFrom id ≤ 1 ∧
    (∀ call ∈ state.calls, ∀ agent createdAt, call.phase = .enrolled (some id) agent createdAt →
      ∃ token, state.tokens.get? id = some token ∧ createdAt ≤ token.expiresAt) ∧
    (∀ call ∈ state.calls, ∀ failure, call.phase ≠ .failed (some id) failure) ∧
    ((∀ call ∈ state.calls, call.phase.redeeming ≠ some id) →
      (state.used id = true ↔ state.enrolledFrom id = 1)) := by
  have orderly := orderly_of_reachable reached
  have accounted := redeemed_eq_used reached id
  refine ⟨?_, ?_, ?_, ?_⟩
  · calc
      state.enrolledFrom id ≤ state.redeemed id := enrolledFrom_le_redeemed
      _ = (state.used id).toNat := accounted
      _ ≤ 1 := Bool.toNat_le _
  · exact fun call member agent createdAt here => orderly.timely call member id agent createdAt here
  · exact fun call member failure => orderly.undamaged call member id failure
  · intro quiet
    rw [orderly.enrolledFrom_eq quiet, accounted]
    cases state.used id <;> decide

/-- A token's call finds the slug it has picked taken by another one of its name. -/
def overtaken : List EnrollAction :=
  [.createEnrollmentToken 1 "first" none 60, .createEnrollmentToken 2 "second" none 60,
    .enroll { token := "first", agentName := some "nas" },
    .enroll { token := "second", agentName := some "NAS" },
    .proceed 0 10, .proceed 0 10, .proceed 0 10, .proceed 0 10,
    .proceed 1 11, .proceed 1 11, .proceed 1 11, .proceed 1 11, .proceed 1 11, .proceed 0 10]

/-- No call is under way, and a token is used that gave no agent. -/
def Enrollment.burnt (state : Enrollment) (id : Uuid) : Bool :=
  state.calls.all (fun call => !call.phase.underWay) && state.used id && state.enrolledFrom id = 0

theorem overtaken_burns_token : ∃ state, enrollment.Reachable (fun _ _ => True) state ∧
    state.burnt 1 = true := by
  have ends : (enrollment.runWithin (fun _ _ => True) {} overtaken).any
      (Enrollment.burnt · 1) = true := by decide +kernel
  have start : enrollment.initial {} := rfl
  obtain ⟨state, reached, burnt⟩ := System.exists_reachable start ends
  exact ⟨state, reached, burnt⟩

/-- Both enroll, one after the other. -/
def inTurn : List EnrollAction :=
  [.createEnrollmentToken 1 "first" none 60, .createEnrollmentToken 2 "second" none 60,
    .enroll { token := "first", agentName := some "nas" },
    .enroll { token := "second", agentName := some "NAS" },
    .proceed 0 10, .proceed 0 10, .proceed 0 10, .proceed 0 10, .proceed 0 10,
    .proceed 1 11, .proceed 1 11, .proceed 1 11, .proceed 1 11, .proceed 1 11]

theorem enrolled_in_turn : ∃ state : Enrollment,
    enrollment.Reachable Enrollment.Undisturbed state ∧
    (state.used 1 = true ↔ state.enrolledFrom 1 = 1) ∧ state.slugs = ["nas", "nas-2"] := by
  have ends : (enrollment.runWithin Enrollment.Undisturbed {} inTurn).any
      (fun state => state.slugs = ["nas", "nas-2"] ∧
        ∀ call ∈ state.calls, call.phase.redeeming ≠ some 1) = true := by decide +kernel
  have start : enrollment.initial {} := rfl
  obtain ⟨state, reached, test⟩ := System.exists_reachable start ends
  obtain ⟨slugs, quiet⟩ := of_decide_eq_true test
  exact ⟨state, reached, (token_used_iff_enrolled reached 1).2.2.2 quiet, slugs⟩

end AmberBackup
