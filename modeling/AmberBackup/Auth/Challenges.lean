import AmberBackup.Auth.LastAdmin

/-! # Second-factor challenges

The attempts against a challenge are counted when a call begins its verification, so that
no interleaving verifies more than five codes within the lifetime of a challenge
(`attempts_bounded`). The challenge is burned only after the verification has come back: in
a run of the server where a challenge is burned while no other call that carries it has
counted its attempt, at most one call yields a session (`challenge_single_use`), and two
calls with the same code in flight at once yield two (`challenge_used_twice`).
-/

namespace AmberBackup.Auth

open Relational Transition Pool

/-- The attempts of a call against the challenge that are counted, and not verified yet. -/
def Call.attempting (challenge : Uuid) : Call → Nat
  | .loginTotp token _ .findUser => if token = challenge then 1 else 0
  | .loginTotp token _ (.verifyCode _) => if token = challenge then 1 else 0
  | _ => 0

/-- The call has counted its attempt against the challenge and has not come to its end. -/
def Call.pursuing (challenge : Uuid) : Call → Nat
  | .loginTotp token _ phase =>
      match phase with
      | .assertEnabled | .verifyToken | .consumeAttempt => 0
      | .findUser | .verifyCode _ | .useRecoveryCode .. | .burnChallenge =>
          if token = challenge then 1 else 0
  | _ => 0

/-- The sessions a call is issuing on the challenge. -/
def Call.issuing (challenge : Uuid) : Call → Nat
  | .issue _ (.challenge token _) _ => if token = challenge then 1 else 0
  | _ => 0

/-- A code is verified against the challenge within its lifetime. -/
def Event.verifiedInTime (challenge issuedAt : Uuid) : Event → Bool
  | .codeVerified token time =>
      token = challenge && withinLifetime challengeSeconds issuedAt time
  | _ => false

def Event.burns (challenge : Uuid) : Event → Bool
  | .challengeBurned token => token = challenge
  | _ => false

/-- A session is issued on the challenge. -/
def Event.sessionOf (challenge : Uuid) : Event → Bool
  | .sessionIssued _ (.challenge token _) => token = challenge
  | _ => false

/-- The attempts counted against a challenge. -/
def attemptsOf (state : ChallengeState) (challenge : Uuid) : Nat :=
  ((state challenge).map ChallengeEntry.attempts).getD 0

/-- What a step does about challenges. -/
inductive ChallengeMove (server : Server) (current : Call) (effect : Effect) : Prop where
  /-- It counts and verifies nothing. -/
  | idle (state : effect.challengeState = none)
      (attempting : ∀ challenge, effect.next.attempting challenge ≤ current.attempting challenge)
      (events : ∀ event ∈ effect.events, ∀ challenge time,
        event ≠ .codeVerified challenge time ∧ event ≠ .challengeBurned challenge)
  | consumes (token : Uuid) (code : String)
      (was : current = .loginTotp token code .consumeAttempt)
      (state : effect.challengeState =
        some (consumeAttempt server.now server.challengeState token).1)
      (attempting : ∀ challenge, effect.next.attempting challenge ≤
        if token = challenge ∧ (consumeAttempt server.now server.challengeState token).2 = true
        then 1 else 0)
      (events : effect.events = [])
  | verifies (token : Uuid) (code : String) (user : User)
      (was : current = .loginTotp token code (.verifyCode user))
      (state : effect.challengeState = none)
      (attempting : ∀ challenge, effect.next.attempting challenge = 0)
      (events : effect.events = [.codeVerified token server.now])
  | burns (token : Uuid) (code : String) (user epoch : Nat)
      (was : current = .loginTotp token code .burnChallenge)
      (state : effect.challengeState =
        some (burnChallenge server.now server.challengeState token))
      (becomes : effect.next = .issue user (.challenge token epoch) .epoch)
      (events : effect.events = [.challengeBurned token])

section Step

variable {settings : Settings} {server : Server} {index : Nat} {current : Call}
  {outcome : Outcome} {effect : Effect}

theorem pastGuard_state (id : Uuid) (dto : UpdateUserDto) (user : User) :
    (pastGuard id dto user).challengeState = none ∧
      (pastGuard id dto user).totpChallenge = none := by
  unfold pastGuard
  repeat' split
  all_goals exact ⟨rfl, rfl⟩

/-- Only a login with a code writes the map of challenges. -/
theorem Call.challengeState_source (steps : current.step settings server outcome = some effect) :
    effect.challengeState = none ∨ ∃ token code phase, current = .loginTotp token code phase := by
  cases current
  case loginTotp token code phase => exact Or.inr ⟨token, code, phase, rfl⟩
  case done => cases steps
  all_goals
    rename_i phase
    cases phase <;> cases outcome <;>
      simp only [step, LoginPhase.step, IssuePhase.step, UpdatePhase.step,
        ChangePasswordPhase.step, RemovePhase.step, SetupTotpPhase.step, EnableTotpPhase.step,
        DisableTotpPhase.step, RegisterOptionsPhase.step, RegisterPhase.step,
        LoginOptionsPhase.step, PasskeyLoginPhase.step, reduceCtorEq] at steps
  all_goals
    repeat' split at steps
    all_goals cases steps
    all_goals first
      | exact Or.inl rfl
      | exact Or.inl (pastGuard_state _ _ _).1

/-- Only a login signs a challenge. -/
theorem Call.totpChallenge_source (steps : current.step settings server outcome = some effect) :
    effect.totpChallenge = none ∨ ∃ challenge : TotpChallenge,
      effect.totpChallenge = some challenge ∧ challenge.issuedAt = server.now := by
  cases current
  case done => cases steps
  all_goals
    rename_i phase
    cases phase <;> cases outcome <;>
      simp only [step, LoginPhase.step, LoginTotpPhase.step, IssuePhase.step, UpdatePhase.step,
        ChangePasswordPhase.step, RemovePhase.step, SetupTotpPhase.step, EnableTotpPhase.step,
        DisableTotpPhase.step, RegisterOptionsPhase.step, RegisterPhase.step,
        LoginOptionsPhase.step, PasskeyLoginPhase.step, reduceCtorEq] at steps
  case login.signChallenge.returns id user =>
    cases steps
    exact Or.inr ⟨_, rfl, rfl⟩
  all_goals
    repeat' split at steps
    all_goals cases steps
    all_goals first
      | exact Or.inl rfl
      | exact Or.inl (pastGuard_state _ _ _).2

theorem Call.challengeMove (steps : current.step settings server outcome = some effect) :
    ChallengeMove server current effect := by
  by_cases login : ∃ token code phase, current = .loginTotp token code phase
  · obtain ⟨token, code, phase, same⟩ := login
    subst same
    cases phase <;> cases outcome <;>
      simp only [step, LoginTotpPhase.step, reduceCtorEq] at steps
    case verifyCode.returns user =>
      split at steps <;> cases steps <;>
        exact .verifies token code user rfl rfl (fun _ => rfl) rfl
    case consumeAttempt.returns =>
      split at steps
      case isTrue accepted =>
        cases steps
        refine .consumes token code rfl rfl (fun challenge => ?_) rfl
        simp only [attempting, accepted, and_true]
        exact Nat.le_refl _
      case isFalse =>
        cases steps
        exact .consumes token code rfl rfl (fun challenge => Nat.zero_le _) rfl
    case burnChallenge.returns =>
      split at steps
      · cases steps
      · cases steps
        exact .burns token code _ _ rfl rfl rfl rfl
    case useRecoveryCode.returns =>
      split at steps
      · cases steps
      · cases steps
        refine .idle rfl (fun _ => Nat.le_refl _) ?_
        intro event listed challenge time
        rw [List.mem_singleton.mp listed]
        exact ⟨by simp, by simp⟩
    case findUser.returns =>
      repeat' split at steps
      all_goals cases steps
      · exact .idle rfl (fun _ => Nat.zero_le _) (by simp)
      · exact .idle rfl (fun _ => Nat.le_refl _) (by simp)
      · exact .idle rfl (fun _ => Nat.zero_le _) (by simp)
    all_goals
      repeat' split at steps
      all_goals cases steps
      all_goals exact .idle rfl (fun _ => Nat.zero_le _) (by simp)
  · have source := Call.next_source steps
    refine .idle ((Call.challengeState_source steps).resolve_right login) ?_ ?_
    · intro challenge
      cases next : effect.next with
      | loginTotp token code phase =>
          rw [next] at source
          cases phase with
          | findUser => exact absurd ⟨_, _, _, source.1⟩ login
          | verifyCode user => exact absurd ⟨_, _, _, source.1⟩ login
          | _ => exact Nat.zero_le _
      | _ => exact Nat.zero_le _
    · intro event listed challenge time
      have source := Call.event_source steps listed
      constructor
      · rintro rfl
        obtain ⟨-, code, user, same⟩ := source
        exact login ⟨_, _, _, same⟩
      · rintro rfl
        obtain ⟨code, same⟩ := source
        exact login ⟨_, _, _, same⟩

/-- A call past the check of its token has a challenge that was signed. -/
def Call.Verified (signed : Table Uuid TotpChallenge) : Call → Prop
  | .loginTotp token _ phase =>
      (phase ≠ .assertEnabled ∧ phase ≠ .verifyToken) → (signed.get? token).isSome = true
  | _ => True

theorem signed_get? {ρ : Type} {table : Table Uuid ρ} {id : Uuid} {row : ρ}
    (present : table.get? id = some row) (new : Option ρ) :
    (signed table new).get? id = some row := by
  cases new with
  | none => exact present
  | some other => exact Table.get?_insert_of_some present other

theorem signed_cases {ρ : Type} {table : Table Uuid ρ} {id : Uuid} {row : ρ} {new : Option ρ}
    (present : (signed table new).get? id = some row) :
    table.get? id = some row ∨ (table.get? id = none ∧ new = some row) := by
  cases new with
  | none => exact Or.inl present
  | some other =>
      change (table.insert (freshId table) other).get? id = some row at present
      rw [Table.get?_insert (get?_freshId _)] at present
      split at present
      case isTrue same =>
        cases present
        exact Or.inr ⟨same ▸ get?_freshId _, rfl⟩
      case isFalse => exact Or.inl present

theorem Call.Verified.later {call : Call} {table : Table Uuid TotpChallenge}
    (verified : call.Verified table) (new : Option TotpChallenge) :
    call.Verified (signed table new) := by
  cases call with
  | loginTotp token code phase =>
      intro past
      obtain ⟨row, found⟩ := Option.isSome_iff_exists.mp (verified past)
      rw [signed_get? found new]
      rfl
  | _ => trivial

theorem Call.next_verified (steps : current.step settings server outcome = some effect)
    (verified : current.Verified server.totpChallenges) :
    effect.next.Verified server.totpChallenges := by
  have source := Call.next_source steps
  cases next : effect.next with
  | loginTotp token code phase =>
      rw [next] at source
      intro past
      cases phase with
      | assertEnabled => exact absurd rfl past.1
      | verifyToken => exact absurd rfl past.2
      | consumeAttempt =>
          obtain ⟨-, challenge, found, -⟩ := source
          rw [found]
          rfl
      | findUser =>
          obtain ⟨same, -⟩ := source
          subst same
          exact verified ⟨nofun, nofun⟩
      | verifyCode user =>
          obtain ⟨same, -⟩ := source
          subst same
          exact verified ⟨nofun, nofun⟩
      | useRecoveryCode codes used remaining =>
          obtain ⟨user, same, -⟩ := source
          subst same
          exact verified ⟨nofun, nofun⟩
      | burnChallenge =>
          rcases source with ⟨user, same, -⟩ | ⟨codes, used, remaining, same⟩ <;>
            · subst same
              exact verified ⟨nofun, nofun⟩
  | _ => trivial

/-- Of a token that was not signed nothing has been counted or verified. -/
structure Untouched (server : Server) (challenge : Uuid) : Prop where
  attempting : total (Call.attempting challenge) server.calls = 0
  verified : ∀ time, .codeVerified challenge time ∉ server.journal
  state : server.challengeState challenge = none

/-- The account of a signed challenge: no more codes than attempts within its lifetime, and
an entry that outlives it. -/
structure Counted (server : Server) (challenge : Uuid) (signed : TotpChallenge) : Prop where
  since : signed.issuedAt ≤ server.now
  bound : server.journal.countP (Event.verifiedInTime challenge signed.issuedAt) ≤ maxTotpAttempts
  alive : withinLifetime challengeSeconds signed.issuedAt server.now = true →
    server.journal.countP (Event.verifiedInTime challenge signed.issuedAt) +
        total (Call.attempting challenge) server.calls ≤
      attemptsOf server.challengeState challenge ∧
    attemptsOf server.challengeState challenge ≤ maxTotpAttempts ∧
    ∀ entry, server.challengeState challenge = some entry →
      signed.issuedAt + challengeTtlMs ≤ entry.expiresAt

structure Bounded (server : Server) : Prop where
  verified : ∀ call ∈ server.calls, call.Verified server.totpChallenges
  untouched : ∀ challenge, server.totpChallenges.get? challenge = none →
    Untouched server challenge
  counted : ∀ challenge signed, server.totpChallenges.get? challenge = some signed →
    Counted server challenge signed

/-- An entry that outlives the instant is not purged. -/
theorem purged_of_later {now : Nat} {state : ChallengeState} {challenge : Uuid}
    (later : ∀ entry, state challenge = some entry → now < entry.expiresAt) :
    purged now state challenge = state challenge := by
  unfold purged
  cases found : state challenge with
  | none => rfl
  | some entry => simp [later entry found]

theorem withinLifetime_earlier {issuedAt now elapsed : Nat}
    (alive : withinLifetime challengeSeconds issuedAt (now + elapsed) = true) :
    withinLifetime challengeSeconds issuedAt now = true := by
  have later : (now + elapsed) / 1000 < issuedAt / 1000 + challengeSeconds :=
    of_decide_eq_true alive
  have earlier : now / 1000 ≤ (now + elapsed) / 1000 :=
    Nat.div_le_div_right (Nat.le_add_right ..)
  exact decide_eq_true (Nat.lt_of_le_of_lt earlier later)

theorem lt_of_withinLifetime {issuedAt now : Nat}
    (alive : withinLifetime challengeSeconds issuedAt now = true) :
    now < issuedAt + challengeTtlMs := by
  have seconds : now / 1000 < issuedAt / 1000 + 300 := of_decide_eq_true alive
  unfold challengeTtlMs
  omega

/-- What counting an attempt does to a challenge whose entry outlives the instant. -/
theorem consumeAttempt_attempts {now : Nat} {state : ChallengeState} {challenge : Uuid}
    (token : Uuid)
    (later : ∀ entry, state challenge = some entry → now < entry.expiresAt) :
    attemptsOf (consumeAttempt now state token).1 challenge =
        attemptsOf state challenge +
          (if token = challenge ∧ (consumeAttempt now state token).2 = true then 1 else 0) ∧
      (token = challenge → (consumeAttempt now state token).2 = true →
        attemptsOf state challenge < maxTotpAttempts) ∧
      ∀ entry, (consumeAttempt now state token).1 challenge = some entry →
        state challenge = none ∧ entry.expiresAt = now + challengeTtlMs ∨
          ∃ before, state challenge = some before ∧ entry.expiresAt = before.expiresAt := by
  have kept := purged_of_later later
  unfold consumeAttempt
  dsimp only
  split
  case isTrue =>
    refine ⟨by simp [attemptsOf, kept], by simp, fun entry found => ?_⟩
    change purged now state challenge = some entry at found
    rw [kept] at found
    exact Or.inr ⟨entry, found, rfl⟩
  case isFalse under =>
    by_cases same : token = challenge
    · subst same
      have entry : entryOf now state token =
          (state token).getD { attempts := 0, expiresAt := now + challengeTtlMs } := by
        unfold entryOf
        rw [kept]
      rw [entry] at under ⊢
      cases found : state token with
      | none =>
          refine ⟨by simp [attemptsOf, found], fun _ _ => by simp [attemptsOf, found, maxTotpAttempts],
            ?_⟩
          intro later written
          simp only [Function.update_self, Option.getD_none, Option.some.injEq] at written
          exact Or.inl ⟨rfl, by rw [← written]⟩
      | some before =>
          rw [found] at under
          simp only [Option.getD_some, Nat.not_le] at under
          refine ⟨by simp [attemptsOf, found], fun _ _ => by simpa [attemptsOf, found] using under, ?_⟩
          intro later written
          simp only [Function.update_self, Option.getD_some, Option.some.injEq] at written
          exact Or.inr ⟨before, rfl, by rw [← written]⟩
    · have other : ∀ value, Function.update (purged now state) token value challenge =
          state challenge := by
        intro value
        rw [Function.update_of_ne (Ne.symm same), kept]
      refine ⟨by simp [attemptsOf, other, same], fun equal => absurd equal same, ?_⟩
      intro entry found
      change Function.update (purged now state) token _ challenge = some entry at found
      rw [other] at found
      exact Or.inr ⟨entry, found, rfl⟩

/-- The codes verified within the lifetime of a challenge, after a step. -/
theorem countP_verified (challenge issuedAt : Uuid) (journal events : List Event) :
    (journal ++ events).countP (Event.verifiedInTime challenge issuedAt) =
      journal.countP (Event.verifiedInTime challenge issuedAt) +
        events.countP (Event.verifiedInTime challenge issuedAt) := List.countP_append

/-- A step that verifies no code adds none. -/
theorem countP_verified_of_none {challenge issuedAt : Uuid} {events : List Event}
    (none : ∀ event ∈ events, ∀ challenge time, event ≠ .codeVerified challenge time) :
    events.countP (Event.verifiedInTime challenge issuedAt) = 0 := by
  rw [List.countP_eq_zero]
  intro event listed
  cases event with
  | codeVerified token time => exact absurd rfl (none _ listed token time)
  | _ => simp [Event.verifiedInTime]

theorem Counted.after {challenge : Uuid} {signed : TotpChallenge}
    (counted : Counted server challenge signed)
    (present : server.calls[index]? = some current)
    (move : ChallengeMove server current effect) :
    Counted (server.after index effect) challenge signed := by
  have moved : total (Call.attempting challenge) (server.after index effect).calls +
      Call.attempting challenge current = total (Call.attempting challenge) server.calls +
        Call.attempting challenge effect.next + total (Call.attempting challenge) [] :=
    total_advance present
  rw [total_nil] at moved
  have sum : (server.after index effect).journal.countP
        (Event.verifiedInTime challenge signed.issuedAt) =
      server.journal.countP (Event.verifiedInTime challenge signed.issuedAt) +
        effect.events.countP (Event.verifiedInTime challenge signed.issuedAt) :=
    countP_verified ..
  have bound := counted.bound
  refine ⟨counted.since, ?_, fun alive => ?_⟩
  · -- a code that is verified in time was counted before
    by_cases none : effect.events.countP (Event.verifiedInTime challenge signed.issuedAt) = 0
    · omega
    · cases move with
      | idle state attempting events =>
          exact absurd (countP_verified_of_none fun event listed token time =>
            (events event listed token time).1) none
      | consumes token code was state attempting events => simp [events] at none
      | burns token code user epoch was state becomes events =>
          simp [events, Event.verifiedInTime] at none
      | verifies token code user was state attempting events =>
          rw [events] at none sum
          simp only [List.countP_singleton, Event.verifiedInTime, Bool.and_eq_true,
            decide_eq_true_eq] at none sum
          by_cases inTime : token = challenge ∧
              withinLifetime challengeSeconds signed.issuedAt server.now = true
          · obtain ⟨same, alive⟩ := inTime
            obtain ⟨counts, most, -⟩ := counted.alive alive
            have mine : Call.attempting challenge current = 1 := by
              simp [was, Call.attempting, same]
            have here : current.attempting challenge ≤ total (Call.attempting challenge) server.calls :=
              le_total present
            simp only [same, alive, and_self, ↓reduceIte] at sum
            omega
          · simp [inTime] at none
  · obtain ⟨counts, most, outlives⟩ := counted.alive alive
    have later : ∀ entry, server.challengeState challenge = some entry →
        server.now < entry.expiresAt := by
      intro entry found
      have before := outlives entry found
      have soon := lt_of_withinLifetime alive
      change server.now < _ at soon
      omega
    cases move with
    | idle state attempting events =>
        have added : effect.events.countP (Event.verifiedInTime challenge signed.issuedAt) = 0 :=
          countP_verified_of_none fun event listed token time => (events event listed token time).1
        have less := attempting challenge
        have same : (server.after index effect).challengeState = server.challengeState := by
          simp [Server.after, state]
        rw [same]
        exact ⟨by omega, most, outlives⟩
    | consumes token code was state attempting events =>
        have same : (server.after index effect).challengeState =
            (consumeAttempt server.now server.challengeState token).1 := by
          simp [Server.after, state]
        obtain ⟨attempts, under, entries⟩ := consumeAttempt_attempts token later
        have grows := attempting challenge
        rw [same, attempts]
        rw [events, List.countP_nil] at sum
        refine ⟨by omega, ?_, fun entry found => ?_⟩
        · split
          case isTrue both =>
            have room := under both.1 both.2
            omega
          case isFalse => omega
        · rcases entries entry found with ⟨-, expires⟩ | ⟨before, was, expires⟩
          · have since := counted.since
            omega
          · have old := outlives before was
            omega
    | verifies token code user was state attempting events =>
        have same : (server.after index effect).challengeState = server.challengeState := by
          simp [Server.after, state]
        rw [same]
        refine ⟨?_, most, outlives⟩
        have none := attempting challenge
        rw [events] at sum
        by_cases equal : token = challenge
        · have mine : Call.attempting challenge current = 1 := by
            simp [was, Call.attempting, equal]
          have one : [Event.codeVerified token server.now].countP
              (Event.verifiedInTime challenge signed.issuedAt) ≤ 1 := List.countP_le_length
          omega
        · have zero : [Event.codeVerified token server.now].countP
              (Event.verifiedInTime challenge signed.issuedAt) = 0 := by
            simp [Event.verifiedInTime, equal]
          omega
    | burns token code user epoch was state becomes events =>
        have same : (server.after index effect).challengeState =
            burnChallenge server.now server.challengeState token := by
          simp [Server.after, state]
        have none : Call.attempting challenge effect.next = 0 := by
          rw [becomes]
          rfl
        rw [events] at sum
        simp only [List.countP_singleton, Event.verifiedInTime, Bool.false_eq_true,
          ↓reduceIte] at sum
        rw [same]
        unfold burnChallenge
        by_cases equal : token = challenge
        · subst equal
          refine ⟨?_, by simp [attemptsOf], ?_⟩
          · simp only [attemptsOf, Function.update_self, Option.map_some, Option.getD_some]
            omega
          · intro entry found
            simp only [Function.update_self, Option.some.injEq] at found
            have since := counted.since
            rw [← found]
            dsimp only
            omega
        · simp only [attemptsOf, Function.update_of_ne (Ne.symm equal)]
          exact ⟨by unfold attemptsOf at counts; omega, most, outlives⟩

theorem Untouched.after {challenge : Uuid} (untouched : Untouched server challenge)
    (unsigned : server.totpChallenges.get? challenge = none)
    (verified : current.Verified server.totpChallenges)
    (present : server.calls[index]? = some current)
    (move : ChallengeMove server current effect) :
    Untouched (server.after index effect) challenge := by
  have moved : total (Call.attempting challenge) (server.after index effect).calls +
      Call.attempting challenge current = total (Call.attempting challenge) server.calls +
        Call.attempting challenge effect.next + total (Call.attempting challenge) [] :=
    total_advance present
  rw [total_nil, untouched.attempting] at moved
  -- a call past the check of its token is about another challenge
  have other : ∀ {token code phase}, current = .loginTotp token code phase →
      phase ≠ .assertEnabled ∧ phase ≠ .verifyToken → token ≠ challenge := by
    rintro token code phase rfl past rfl
    have signed := verified past
    rw [unsigned] at signed
    cases signed
  cases move with
  | idle state attempting events =>
      have less := attempting challenge
      refine ⟨by omega, ?_, ?_⟩
      · intro time listed
        rcases List.mem_append.mp listed with old | new
        · exact untouched.verified time old
        · exact (events _ new challenge time).1 rfl
      · simp [Server.after, state, untouched.state]
  | consumes token code was state attempting events =>
      have different := other was ⟨nofun, nofun⟩
      have less := attempting challenge
      simp only [different, false_and, ↓reduceIte] at less
      refine ⟨by omega, ?_, ?_⟩
      · intro time listed
        rcases List.mem_append.mp listed with old | new
        · exact untouched.verified time old
        · simp [events] at new
      · change (effect.challengeState.getD server.challengeState) challenge = none
        rw [state]
        change (consumeAttempt server.now server.challengeState token).1 challenge = none
        unfold consumeAttempt
        dsimp only
        split <;> simp [Function.update_of_ne (Ne.symm different), purged, untouched.state]
  | verifies token code user was state attempting events =>
      have different := other was ⟨nofun, nofun⟩
      have none := attempting challenge
      refine ⟨by omega, ?_, by simp [Server.after, state, untouched.state]⟩
      intro time listed
      rcases List.mem_append.mp listed with old | new
      · exact untouched.verified time old
      · rw [events] at new
        cases List.mem_singleton.mp new
        exact different rfl
  | burns token code user epoch was state becomes events =>
      have different := other was ⟨nofun, nofun⟩
      have none : Call.attempting challenge effect.next = 0 := by
        rw [becomes]
        rfl
      refine ⟨by omega, ?_, ?_⟩
      · intro time listed
        rcases List.mem_append.mp listed with old | new
        · exact untouched.verified time old
        · rw [events] at new
          cases List.mem_singleton.mp new
      · simp [Server.after, state, burnChallenge, Function.update_of_ne (Ne.symm different),
          untouched.state]

/-- Nothing has been counted or verified of a challenge that has just been signed. -/
theorem Untouched.counted {challenge : Uuid} (untouched : Untouched server challenge)
    {signed : TotpChallenge} (now : signed.issuedAt = server.now) :
    Counted server challenge signed := by
  have none : server.journal.countP (Event.verifiedInTime challenge signed.issuedAt) = 0 := by
    rw [List.countP_eq_zero]
    intro event listed
    cases event with
    | codeVerified token time =>
        by_cases same : token = challenge
        · subst same
          exact absurd listed (untouched.verified time)
        · simp [Event.verifiedInTime, same]
    | _ => simp [Event.verifiedInTime]
  refine ⟨Nat.le_of_eq now, by omega, fun _ => ⟨?_, ?_, ?_⟩⟩
  · rw [untouched.attempting]
    omega
  · simp [attemptsOf, untouched.state]
  · intro entry found
    rw [untouched.state] at found
    cases found

end Step

section Reachable

variable {settings : Settings} {known : Accounts → Prop} {allowed : Server → Action → Prop}
  {server : Server}

theorem bounded_of_reachable (reached : (authServer settings known).Reachable allowed server) :
    Bounded server := by
  have invariant : (authServer settings known).Invariant allowed Bounded := by
    constructor
    · intro state started
      have calls := Server.Started.calls started
      have journal := Server.Started.journal started
      refine ⟨by simp [calls], fun challenge _ => ⟨by simp [calls], by simp [journal],
        Server.Started.challengeState started challenge⟩, ?_⟩
      intro challenge signed found
      rw [Server.Started.totpChallenges started] at found
      cases found
    · intro state action next bounded _ stepped
      rcases Server.step_cases stepped with ⟨elapsed, -, same⟩ | ⟨_, _, -, same⟩ |
        ⟨entry, -, same⟩ | ⟨index, outcome, current, effect, -, present, steps, same⟩
      · subst same
        refine ⟨bounded.verified, fun challenge unsigned =>
          ⟨(bounded.untouched challenge unsigned).attempting,
            (bounded.untouched challenge unsigned).verified,
            (bounded.untouched challenge unsigned).state⟩, fun challenge signed found => ?_⟩
        have counted := bounded.counted challenge signed found
        refine ⟨Nat.le_trans counted.since (Nat.le_add_right ..), counted.bound, fun alive => ?_⟩
        exact counted.alive (withinLifetime_earlier alive)
      · subst same
        exact ⟨bounded.verified, fun challenge unsigned =>
          ⟨(bounded.untouched challenge unsigned).attempting,
            (bounded.untouched challenge unsigned).verified,
            (bounded.untouched challenge unsigned).state⟩, fun challenge signed found =>
          ⟨(bounded.counted challenge signed found).since,
            (bounded.counted challenge signed found).bound,
            (bounded.counted challenge signed found).alive⟩⟩
      · subst same
        have idle : ∀ challenge, Call.attempting challenge entry.call = 0 := by
          intro challenge
          cases entry <;> rfl
        refine ⟨fun call member => ?_, fun challenge unsigned => ?_, fun challenge signed found => ?_⟩
        · rcases List.mem_append.mp member with old | new
          · exact bounded.verified call old
          · rw [List.mem_singleton.mp new]
            cases entry with
            | loginTotp => exact fun past => absurd rfl past.1
            | _ => trivial
        · have untouched := bounded.untouched challenge unsigned
          refine ⟨?_, untouched.verified, untouched.state⟩
          change total (Call.attempting challenge) (state.calls ++ [entry.call]) = 0
          simp [idle, untouched.attempting]
        · have counted := bounded.counted challenge signed found
          refine ⟨counted.since, counted.bound, fun alive => ?_⟩
          obtain ⟨counts, most, outlives⟩ := counted.alive alive
          refine ⟨?_, most, outlives⟩
          change _ + total (Call.attempting challenge) (state.calls ++ [entry.call]) ≤ _
          simpa [idle] using counts
      · subst same
        have mine := List.mem_of_getElem? present
        have move := Call.challengeMove steps
        refine ⟨fun call member => ?_, fun challenge unsigned => ?_, fun challenge signed found => ?_⟩
        · rcases Pool.mem_advance member with old | same | started
          · exact (bounded.verified call old).later _
          · rw [same]
            exact (Call.next_verified steps (bounded.verified current mine)).later _
          · cases started
        · have before : state.totpChallenges.get? challenge = none := by
            by_contra some
            obtain ⟨row, found⟩ := Option.ne_none_iff_exists'.mp some
            have kept := signed_get? found effect.totpChallenge
            exact absurd (unsigned.symm.trans kept) nofun
          exact (bounded.untouched challenge before).after before (bounded.verified current mine)
            present move
        · rcases signed_cases found with old | ⟨before, new⟩
          · exact (bounded.counted challenge signed old).after present move
          · have untouched := (bounded.untouched challenge before).after before
              (bounded.verified current mine) present move
            refine untouched.counted ?_
            rcases Call.totpChallenge_source steps with none | ⟨other, some, now⟩
            · rw [none] at new
              cases new
            · rw [some] at new
              cases new
              exact now
  exact invariant.holds reached

/-- Whatever the interleaving, at most five codes are verified against a challenge within
its lifetime. -/
theorem attempts_bounded (reached : (authServer settings known).Reachable allowed server)
    {challenge : Uuid} {signed : TotpChallenge}
    (found : server.totpChallenges.get? challenge = some signed) :
    server.journal.countP (Event.verifiedInTime challenge signed.issuedAt) ≤ maxTotpAttempts :=
  ((bounded_of_reachable reached).counted challenge signed found).bound

end Reachable

/-- What a step of a call must meet: an attempt is counted within the lifetime of its
challenge, and a challenge is burned while no other call that carries it has counted its
attempt. -/
def Call.usesAlone (server : Server) : Call → Bool
  | .loginTotp token _ .consumeAttempt =>
      (server.totpChallenges.get? token).all fun challenge =>
        withinLifetime challengeSeconds challenge.issuedAt server.now
  | .loginTotp token _ .burnChallenge => total (Call.pursuing token) server.calls ≤ 1
  | _ => true

abbrev UsedAlone (server : Server) (action : Action) : Prop :=
  onSteps (fun server call _ => call.usesAlone server) server action = true

section SingleUse

variable {settings : Settings} {server : Server} {index : Nat} {current : Call}
  {outcome : Outcome} {effect : Effect}

/-- A call comes to pursue a challenge only by counting an attempt. -/
theorem Call.pursuing_from (steps : current.step settings server outcome = some effect)
    (challenge : Uuid) :
    effect.next.pursuing challenge ≤ current.pursuing challenge ∨
      ∃ code, current = .loginTotp challenge code .consumeAttempt ∧
        (consumeAttempt server.now server.challengeState challenge).2 = true ∧
        effect.next.pursuing challenge = 1 := by
  have source := Call.next_source steps
  cases next : effect.next with
  | loginTotp token code phase =>
      rw [next] at source
      by_cases same : token = challenge
      · subst same
        cases phase with
        | findUser =>
            obtain ⟨was, accepted, -⟩ := source
            exact Or.inr ⟨code, was, accepted, by simp [pursuing]⟩
        | verifyCode user =>
            obtain ⟨was, -⟩ := source
            exact Or.inl (by simp [was, pursuing])
        | useRecoveryCode codes used remaining =>
            obtain ⟨user, was, -⟩ := source
            exact Or.inl (by simp [was, pursuing])
        | burnChallenge =>
            rcases source with ⟨user, was, -⟩ | ⟨codes, used, remaining, was⟩ <;>
              exact Or.inl (by simp [was, pursuing])
        | assertEnabled | verifyToken | consumeAttempt => exact Or.inl (Nat.zero_le _)
      · have none : pursuing challenge (.loginTotp token code phase) = 0 := by
          cases phase <;> simp [pursuing, same]
        exact Or.inl (none ▸ Nat.zero_le _)
  | _ => exact Or.inl (Nat.zero_le _)

/-- A session is issued by a call that was issuing it. -/
theorem Call.sessionOf_from (steps : current.step settings server outcome = some effect)
    (challenge : Uuid) :
    effect.events.countP (Event.sessionOf challenge) = 0 ∨
      (effect.events.countP (Event.sessionOf challenge) ≤ 1 ∧ effect.next = .done ∧
        current.issuing challenge = 1) := by
  by_cases none : effect.events.countP (Event.sessionOf challenge) = 0
  · exact Or.inl none
  · right
    obtain ⟨event, listed, counts⟩ := List.countP_pos_iff.mp (Nat.pos_of_ne_zero none)
    cases event with
    | sessionIssued session grounds =>
        cases grounds with
        | challenge token epoch =>
            have same : token = challenge := of_decide_eq_true counts
            subst same
            obtain ⟨user, was | ⟨isAdmin, was⟩⟩ := Call.event_source steps listed
            · subst was
              cases outcome <;> simp only [step, IssuePhase.step, reduceCtorEq] at steps
              split at steps <;> cases steps <;> cases listed
            · subst was
              cases outcome <;> simp only [step, IssuePhase.step, reduceCtorEq] at steps
              · cases steps
                exact ⟨List.countP_le_length, rfl, by simp [issuing]⟩
              · split at steps <;> cases steps
                cases listed
        | password | changedPassword | passkey => cases counts
    | _ => cases counts

/-- A call comes to issue a session on a challenge only by burning it. -/
theorem Call.issuing_from (steps : current.step settings server outcome = some effect)
    (challenge : Uuid) :
    effect.next.issuing challenge ≤ current.issuing challenge ∨
      ((∃ code, current = .loginTotp challenge code .burnChallenge) ∧
        effect.next.issuing challenge = 1) := by
  have source := Call.next_source steps
  cases next : effect.next with
  | issue user grounds phase =>
      rw [next] at source
      cases grounds with
      | challenge token epoch =>
          by_cases same : token = challenge
          · subst same
            cases phase with
            | readUser =>
                rcases source with ⟨_, _, _, _, _, _, _, other⟩ | ⟨_, _, _, _, other⟩ <;> cases other
            | epoch =>
                rcases source with was | ⟨_, _, _, _, other⟩ | ⟨_, code, _, was, _, _, equal, _⟩
                · exact Or.inl (by simp [was, issuing])
                · cases other
                · cases equal
                  exact Or.inr ⟨⟨code, was⟩, by simp [issuing]⟩
            | sign generation => exact Or.inl (by simp [source.1, issuing])
            | findUser session => exact Or.inl (by simp [source.2, issuing])
            | assertAllowed session isAdmin =>
                have was : current = _ := source
                exact Or.inl (by simp [was, issuing])
          · exact Or.inl (by simp [issuing, same])
      | password | changedPassword | passkey => exact Or.inl (Nat.zero_le _)
  | _ => exact Or.inl (Nat.zero_le _)

/-- The account of the sessions of a challenge: none without a burn, one burn at most, and
after it no call pursues the challenge and none is let through within its lifetime. -/
structure SingleUse (server : Server) (challenge : Uuid) : Prop where
  sessions : total (Call.issuing challenge) server.calls +
    server.journal.countP (Event.sessionOf challenge) ≤
      server.journal.countP (Event.burns challenge)
  once : server.journal.countP (Event.burns challenge) ≤ 1
  finished : server.journal.countP (Event.burns challenge) ≠ 0 →
    total (Call.pursuing challenge) server.calls = 0 ∧
    ∃ signed, server.totpChallenges.get? challenge = some signed ∧
      (withinLifetime challengeSeconds signed.issuedAt server.now = true →
        maxTotpAttempts ≤ attemptsOf server.challengeState challenge)

/-- Only a burn of the challenge is journaled as one. -/
theorem ChallengeMove.burned (move : ChallengeMove server current effect) (challenge : Uuid) :
    effect.events.countP (Event.burns challenge) = 0 ∨
      (effect.events.countP (Event.burns challenge) = 1 ∧
        ∃ code, current = .loginTotp challenge code .burnChallenge) := by
  cases move with
  | idle state attempting events =>
      left
      rw [List.countP_eq_zero]
      intro event listed
      cases event with
      | challengeBurned token => exact absurd rfl (events _ listed token 0).2
      | _ => simp [Event.burns]
  | consumes token code was state attempting events => simp [events]
  | verifies token code user was state attempting events => simp [events, Event.burns]
  | burns token code user epoch was state becomes events =>
      by_cases same : token = challenge
      · subst same
        exact Or.inr ⟨by simp [events, Event.burns], code, was⟩
      · exact Or.inl (by simp [events, Event.burns, same])

/-- The attempts against a challenge that is alive do not shrink. -/
theorem ChallengeMove.attempts (move : ChallengeMove server current effect) {challenge : Uuid}
    {signed : TotpChallenge} (counted : Counted server challenge signed)
    (alive : withinLifetime challengeSeconds signed.issuedAt server.now = true) :
    attemptsOf server.challengeState challenge ≤
      attemptsOf (server.after index effect).challengeState challenge := by
  obtain ⟨counts, most, outlives⟩ := counted.alive alive
  cases move with
  | idle state attempting events => simp [Server.after, state]
  | verifies token code user was state attempting events => simp [Server.after, state]
  | consumes token code was state attempting events =>
      have later : ∀ entry, server.challengeState challenge = some entry →
          server.now < entry.expiresAt := by
        intro entry found
        have before := outlives entry found
        have soon := lt_of_withinLifetime alive
        omega
      obtain ⟨attempts, -, -⟩ := consumeAttempt_attempts token later
      have same : (server.after index effect).challengeState =
          (consumeAttempt server.now server.challengeState token).1 := by
        simp [Server.after, state]
      rw [same, attempts]
      exact Nat.le_add_right ..
  | burns token code user epoch was state becomes events =>
      have same : (server.after index effect).challengeState =
          burnChallenge server.now server.challengeState token := by
        simp [Server.after, state]
      rw [same]
      unfold burnChallenge
      by_cases equal : token = challenge
      · subst equal
        simpa [attemptsOf] using most
      · simp [attemptsOf, Function.update_of_ne (Ne.symm equal)]

/-- An attempt is let through only while there are less than the most. -/
theorem attempts_of_accepted {challenge : Uuid} {signed : TotpChallenge}
    (counted : Counted server challenge signed)
    (alive : withinLifetime challengeSeconds signed.issuedAt server.now = true)
    (accepted : (consumeAttempt server.now server.challengeState challenge).2 = true) :
    attemptsOf server.challengeState challenge < maxTotpAttempts := by
  obtain ⟨-, -, outlives⟩ := counted.alive alive
  have later : ∀ entry, server.challengeState challenge = some entry →
      server.now < entry.expiresAt := by
    intro entry found
    have before := outlives entry found
    have soon := lt_of_withinLifetime alive
    omega
  exact (consumeAttempt_attempts _ later).2.1 rfl accepted

theorem SingleUse.after {challenge : Uuid} (single : SingleUse server challenge)
    (bounded : Bounded server) (present : server.calls[index]? = some current)
    (steps : current.step settings server outcome = some effect)
    (alone : current.usesAlone server = true) : SingleUse (server.after index effect) challenge := by
  have move := Call.challengeMove steps
  have pursued : total (Call.pursuing challenge) (server.after index effect).calls +
      current.pursuing challenge = total (Call.pursuing challenge) server.calls +
        effect.next.pursuing challenge + total (Call.pursuing challenge) [] :=
    total_advance present
  have issued : total (Call.issuing challenge) (server.after index effect).calls +
      current.issuing challenge = total (Call.issuing challenge) server.calls +
        effect.next.issuing challenge + total (Call.issuing challenge) [] :=
    total_advance present
  rw [total_nil] at pursued issued
  have burns : (server.after index effect).journal.countP (Event.burns challenge) =
      server.journal.countP (Event.burns challenge) +
        effect.events.countP (Event.burns challenge) := List.countP_append
  have sessions : (server.after index effect).journal.countP (Event.sessionOf challenge) =
      server.journal.countP (Event.sessionOf challenge) +
        effect.events.countP (Event.sessionOf challenge) := List.countP_append
  have before := single.sessions
  have once := single.once
  have pursuing := Call.pursuing_from steps challenge
  rcases move.burned challenge with none | ⟨one, code, was⟩
  · -- the challenge is not burned
    refine ⟨?_, by omega, fun burned => ?_⟩
    · rcases Call.sessionOf_from steps challenge with quiet | ⟨session, ends, mine⟩
      · rcases Call.issuing_from steps challenge with fewer | ⟨⟨code, was⟩, begins⟩
        · omega
        · rcases move with ⟨-, -, -⟩ | ⟨_, _, other, -, -, -⟩ | ⟨_, _, _, other, -, -, -⟩ |
            ⟨token, _, _, _, same, -, -, events⟩
          · subst was
            cases outcome <;> simp only [Call.step, LoginTotpPhase.step, reduceCtorEq] at steps
            split at steps <;> cases steps
            simp [Event.burns] at none
          · rw [was] at other
            cases other
          · rw [was] at other
            cases other
          · rw [was] at same
            cases same
            simp [events, Event.burns] at none
      · have done : effect.next.issuing challenge = 0 := by
          rw [ends]
          rfl
        omega
    · have already : server.journal.countP (Event.burns challenge) ≠ 0 := by omega
      obtain ⟨idle, signed, found, spent⟩ := single.finished already
      have counted := bounded.counted challenge signed found
      refine ⟨?_, signed, signed_get? found _, fun alive =>
        Nat.le_trans (spent alive) (move.attempts counted alive)⟩
      rcases pursuing with fewer | ⟨code, was, accepted, -⟩
      · omega
      · -- a further attempt is refused within the lifetime of the challenge
        subst was
        have alive : withinLifetime challengeSeconds signed.issuedAt server.now = true := by
          simpa [Call.usesAlone, found] using alone
        have less := attempts_of_accepted counted alive accepted
        have most := spent alive
        omega
  · subst was
    have mine : Call.pursuing challenge (.loginTotp challenge code .burnChallenge) = 1 := by
      simp [Call.pursuing]
    have here : Call.pursuing challenge (.loginTotp challenge code .burnChallenge) ≤
        total (Call.pursuing challenge) server.calls := le_total present
    have alone : total (Call.pursuing challenge) server.calls ≤ 1 := of_decide_eq_true alone
    have first : server.journal.countP (Event.burns challenge) = 0 := by
      by_contra burned
      have idle := (single.finished burned).1
      omega
    have isSigned := bounded.verified _ (List.mem_of_getElem? present) ⟨by simp, by simp⟩
    obtain ⟨signed, found⟩ := Option.isSome_iff_exists.mp isSigned
    rcases move with ⟨-, -, events⟩ | ⟨_, _, other, -, -, -⟩ | ⟨_, _, _, other, -, -, -⟩ |
      ⟨token, _, user, epoch, same, state, becomes, events⟩
    · obtain ⟨event, listed, burned⟩ := List.countP_pos_iff.mp (by omega : 0 <
        effect.events.countP (Event.burns challenge))
      cases event with
      | challengeBurned token => exact absurd rfl (events _ listed token 0).2
      | _ => cases burned
    · cases other
    · cases other
    · cases same
      have begins : effect.next.issuing challenge = 1 := by simp [becomes, Call.issuing]
      have none : Call.issuing challenge (.loginTotp challenge code .burnChallenge) = 0 := rfl
      have ends : effect.next.pursuing challenge = 0 := by rw [becomes]; rfl
      have quiet : effect.events.countP (Event.sessionOf challenge) = 0 := by rw [events]; rfl
      refine ⟨by omega, by omega, fun _ => ⟨by omega, signed, signed_get? found _, fun _ => ?_⟩⟩
      simp [Server.after, state, burnChallenge, attemptsOf]

theorem singleUse_of_reachable {known : Accounts → Prop} {server : Server}
    (reached : (authServer settings known).Reachable UsedAlone server) (challenge : Uuid) :
    SingleUse server challenge := by
  refine System.Invariant.onTopOf Bounded (fun server => SingleUse server challenge)
    (fun _ here => bounded_of_reachable here) ?_ ?_ reached
  · intro state started
    have calls := Server.Started.calls started
    have journal := Server.Started.journal started
    exact ⟨by simp [calls, journal], by simp [journal], by simp [journal]⟩
  · intro state action next bounded _ single permitted stepped
    rcases Server.step_cases stepped with ⟨elapsed, -, same⟩ | ⟨_, _, -, same⟩ |
      ⟨entry, -, same⟩ | ⟨index, outcome, current, effect, resumes, present, steps, same⟩
    · subst same
      refine ⟨single.sessions, single.once, fun burned => ?_⟩
      obtain ⟨idle, signed, found, spent⟩ := single.finished burned
      exact ⟨idle, signed, found, fun alive => spent (withinLifetime_earlier alive)⟩
    · subst same
      exact ⟨single.sessions, single.once, single.finished⟩
    · subst same
      have issuing : Call.issuing challenge entry.call = 0 := by cases entry <;> rfl
      have pursuing : Call.pursuing challenge entry.call = 0 := by cases entry <;> rfl
      refine ⟨?_, single.once, fun burned => ?_⟩
      · change total (Call.issuing challenge) (state.calls ++ [entry.call]) + _ ≤ _
        simpa [issuing] using single.sessions
      · obtain ⟨idle, signed, found, spent⟩ := single.finished burned
        refine ⟨?_, signed, found, spent⟩
        change total (Call.pursuing challenge) (state.calls ++ [entry.call]) = 0
        simpa [pursuing] using idle
    · subst resumes
      subst same
      exact single.after bounded present steps (onSteps_resume permitted present)

/-- **Challenges are bounded and used once.** Whatever the interleaving, at most five codes
are verified against a challenge within its lifetime; and as long as no other call that
carries a challenge has counted its attempt when the challenge is burned, and attempts are
counted within its lifetime, at most one session is issued on it. -/
theorem challenge_single_use {known : Accounts → Prop} {server : Server} {challenge : Uuid}
    {signed : TotpChallenge} (reached : (authServer settings known).Reachable UsedAlone server)
    (found : server.totpChallenges.get? challenge = some signed) :
    server.journal.countP (Event.verifiedInTime challenge signed.issuedAt) ≤ maxTotpAttempts ∧
      server.journal.countP (Event.sessionOf challenge) ≤ 1 := by
  have single := singleUse_of_reachable reached challenge
  have sessions := single.sessions
  have once := single.once
  exact ⟨attempts_bounded reached found, by omega⟩

end SingleUse

/-- The second user enables TOTP and logs in with the password. -/
def challengedLogin : List Action :=
  [.begin (.setupTotp 2)] ++ returns 2 0 ++ [.begin (.enableTotp 2 "100000")] ++ returns 2 1 ++
    [.resume 1 (.generates ["abcde-fghij", "klmno-pqrst"])] ++ returns 1 1 ++
    [.begin (.login "bob@example.com" "second")] ++ returns 4 2

/-- Two calls carry the challenge with the same code, and both verify it before either burns
the challenge. -/
def sameCodeAtOnce : List Action :=
  challengedLogin ++ [.begin (.loginTotp 0 "100000"), .begin (.loginTotp 0 "100000")] ++
    returns 5 3 ++ returns 5 4 ++ returns 5 3 ++ returns 5 4

/-- Both are issued a session. -/
theorem challenge_used_twice : ∃ (server : Server) (challenge : Uuid) (signed : TotpChallenge),
    (authServer codeSettings fun _ => True).Reachable (fun _ _ => True) server ∧
      server.totpChallenges.get? challenge = some signed ∧
      server.journal.countP (Event.sessionOf challenge) = 2 := by
  have ends : ((authServer codeSettings fun _ => True).runWithin (fun _ _ => True) office
      sameCodeAtOnce).any (fun server => (server.totpChallenges.get? 0).isSome &&
        server.journal.countP (Event.sessionOf 0) = 2) = true := by decide +kernel
  obtain ⟨server, reached, both⟩ := System.exists_reachable (office_started trivial) ends
  rw [Bool.and_eq_true, decide_eq_true_eq] at both
  obtain ⟨signed, found⟩ := Option.isSome_iff_exists.mp both.1
  exact ⟨server, 0, signed, reached, found, both.2⟩

/-- A call with a wrong code, one with the right code, and one that comes too late. -/
theorem challenge_used_once : ∃ server : Server,
    0 < server.journal.countP (Event.sessionOf 0) ∧
      server.journal.countP (Event.sessionOf 0) ≤ 1 := by
  have ends : ((authServer codeSettings fun _ => True).runWithin UsedAlone office
      (challengedLogin ++ [.begin (.loginTotp 0 "123456")] ++ returns 5 3 ++
        [.begin (.loginTotp 0 "100000")] ++ returns 10 4 ++
        [.begin (.loginTotp 0 "100000")] ++ returns 3 5)).any (fun server =>
          (server.totpChallenges.get? 0).isSome &&
            0 < server.journal.countP (Event.sessionOf 0)) = true := by decide +kernel
  obtain ⟨server, reached, both⟩ := System.exists_reachable (office_started trivial) ends
  rw [Bool.and_eq_true, decide_eq_true_eq] at both
  obtain ⟨signed, found⟩ := Option.isSome_iff_exists.mp both.1
  exact ⟨server, both.2, (challenge_single_use reached found).2⟩

end AmberBackup.Auth
