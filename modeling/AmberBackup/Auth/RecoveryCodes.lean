import AmberBackup.Auth.Challenges

/-! # TOTP state and its recovery codes

The recovery codes of an account are read, filtered and written back in separate
statements, and so are the pending secret and the flag that enables it. In a run of the
server where each of these writes finds what its call has read, every recovery code is
accepted at most once, the use of one leaves every other one as it is, and an enabled
secret has been confirmed with a code (`totp_sound`). Two logins with one code at once are
both let in (`code_accepted_twice`).
-/

namespace AmberBackup.Auth

open Relational Transition Pool

/-- The recovery codes that are stored for an account. -/
def Accounts.recoveryCodes (accounts : Accounts) (user : Uuid) : List RecoveryHash :=
  ((accounts.users.get? user).bind User.totpRecoveryCodes).getD []

/-- How often a call is about to store the code for the account. -/
def Call.enabling (user : Uuid) (code : RecoveryHash) : Call → Nat
  | .enableTotp id _ (.write _ hashes) => if id = user then hashes.count code else 0
  | _ => 0

/-- The places of a code: those where it is stored, where it is about to be stored, and the
calls that have accepted it. -/
def places (server : Server) (user : Uuid) (code : RecoveryHash) : Nat :=
  (server.accounts.recoveryCodes user).count code +
    total (Call.enabling user code) server.calls +
    server.journal.count (.recoveryCodeAccepted user code)

/-- What a step of a call must meet: the use of a recovery code, the write that enables a
secret and the one that stores a pending secret find what the call has read. -/
def Call.writesFresh (server : Server) : Call → Bool
  | .loginTotp token _ (.useRecoveryCode codes _ _) =>
      (server.totpChallenges.get? token).all fun challenge =>
        (server.accounts.users.get? challenge.user).any fun row =>
          row.totpRecoveryCodes = some codes
  | .enableTotp user _ (.write secret _) =>
      (server.accounts.users.get? user).all fun row => row.totpSecret = some secret
  | .setupTotp user (.write _) =>
      (server.accounts.users.get? user).all fun row => !row.totpEnabled
  | _ => true

abbrev WritesFresh (server : Server) (action : Action) : Prop :=
  onSteps (fun server call _ => call.writesFresh server) server action = true

/-- What is used up is the code that was matched. -/
theorem count_matching {candidate : String} {codes remaining : List RecoveryHash}
    {used : RecoveryHash} (found : matching candidate codes = some (used, remaining))
    (code : RecoveryHash) :
    remaining.count code + (if used = code then 1 else 0) = codes.count code := by
  induction codes generalizing remaining with
  | nil => cases found
  | cons head rest ih =>
      unfold matching at found
      split at found
      case isTrue =>
        cases found
        rw [List.count_cons]
        simp [beq_iff_eq]
      case isFalse =>
        obtain ⟨⟨other, others⟩, inner, same⟩ := Option.map_eq_some_iff.mp found
        cases same
        have left : others.count code + (if other = code then 1 else 0) = rest.count code :=
          ih inner
        rw [List.count_cons, List.count_cons]
        change others.count code + _ + (if other = code then 1 else 0) = _
        omega

/-- New hashes are distinct, and have the salts that are drawn. -/
theorem count_recoveryHashes (fresh : Nat) (codes : List String) (code : RecoveryHash) :
    (recoveryHashes fresh codes).count code ≤
      if fresh ≤ code.salt ∧ code.salt < fresh + codes.length then 1 else 0 := by
  induction codes generalizing fresh with
  | nil => exact Nat.zero_le _
  | cons text rest ih =>
      have later := ih (fresh + 1)
      have step : (recoveryHashes fresh (text :: rest)).count code =
          (recoveryHashes (fresh + 1) rest).count code +
            if (⟨canonical text, fresh⟩ : RecoveryHash) == code then 1 else 0 :=
        List.count_cons
      rw [step]
      by_cases same : (⟨canonical text, fresh⟩ : RecoveryHash) = code
      · have here : code.salt = fresh := by rw [← same]
        have none : ¬(fresh + 1 ≤ code.salt ∧ code.salt < fresh + 1 + rest.length) := by omega
        have inside : fresh ≤ code.salt ∧ code.salt < fresh + (text :: rest).length := by
          rw [List.length_cons]
          omega
        rw [if_neg none] at later
        rw [if_pos inside, if_pos (beq_iff_eq.mpr same)]
        omega
      · rw [if_neg (by simpa using same)]
        refine Nat.le_trans later ?_
        split
        case isTrue inside =>
          have wider : fresh ≤ code.salt ∧ code.salt < fresh + (text :: rest).length := by
            rw [List.length_cons]
            omega
          exact Nat.le_of_eq (if_pos wider).symm
        case isFalse => exact Nat.zero_le _

section Statements

variable {accounts : Accounts} {user : Uuid}

theorem recoveryCodes_of_row {row : User} (found : accounts.users.get? user = some row) :
    accounts.recoveryCodes user = row.totpRecoveryCodes.getD [] := by
  simp [Accounts.recoveryCodes, found]

/-- The codes stored for an account after a statement. -/
theorem Statement.recoveryCodes_after (statement : Statement) (accounts : Accounts)
    (user : Uuid) :
    (statement.execute accounts).recoveryCodes user = accounts.recoveryCodes user ∨
      (statement.execute accounts).recoveryCodes user = [] ∨
      (∃ hashes, statement = .updateUser user (.enableTotp hashes) ∧
        (statement.execute accounts).recoveryCodes user = hashes) ∨
      ∃ remaining, statement = .updateUser user (.useRecoveryCode remaining) := by
  cases present : (statement.execute accounts).users.get? user with
  | none => exact Or.inr (Or.inl (by simp [Accounts.recoveryCodes, present]))
  | some after =>
      rw [recoveryCodes_of_row present]
      rcases Statement.user_after present with same | ⟨row, update, found, updates, equal⟩
      · exact Or.inl (recoveryCodes_of_row same).symm
      · rw [recoveryCodes_of_row found]
        subst equal
        cases update with
        | edit patch =>
            by_cases clears : patch.clearTotp = true
            · exact Or.inr (Or.inl (by simp [UserUpdate.set, clears]))
            · exact Or.inl (by simp [UserUpdate.set, clears])
        | changePassword hash => exact Or.inl rfl
        | setupTotp secret => exact Or.inl rfl
        | enableTotp hashes => exact Or.inr (Or.inr (Or.inl ⟨hashes, updates, rfl⟩))
        | disableTotp => exact Or.inr (Or.inl rfl)
        | useRecoveryCode remaining => exact Or.inr (Or.inr (Or.inr ⟨remaining, updates⟩))

/-- What the use of a code stores. -/
theorem recoveryCodes_use {row : User} (found : accounts.users.get? user = some row)
    (remaining : List RecoveryHash) (other : Uuid) :
    ((Statement.updateUser user (.useRecoveryCode remaining)).execute accounts).recoveryCodes
        other = if other = user then remaining else accounts.recoveryCodes other := by
  change (((accounts.users.update (fun key _ => key = user)
    (UserUpdate.set · (.useRecoveryCode remaining))).get? other).bind
      User.totpRecoveryCodes).getD [] = _
  rw [Table.get?_update]
  by_cases same : other = user
  · subst same
    simp [found, UserUpdate.set]
  · simp [same, Accounts.recoveryCodes]

end Statements

section Step

variable {settings : Settings} {server : Server} {index : Nat} {current : Call}
  {outcome : Outcome} {effect : Effect}

/-- A recovery code that is about to be used was matched. -/
def Call.Matched : Call → Prop
  | .loginTotp _ _ (.useRecoveryCode codes used remaining) =>
      ∃ candidate, matching candidate codes = some (used, remaining)
  | _ => True

theorem Call.next_matched (steps : current.step settings server outcome = some effect) :
    effect.next.Matched := by
  have source := Call.next_source steps
  cases next : effect.next with
  | loginTotp token code phase =>
      rw [next] at source
      cases phase with
      | useRecoveryCode codes used remaining =>
          obtain ⟨user, -, found, -⟩ := source
          exact ⟨_, found⟩
      | _ => trivial
  | _ => trivial

theorem Entry.call_matched (entry : Entry) : entry.call.Matched := by
  cases entry <;> trivial

/-- A secret that is about to be enabled was confirmed with a code. -/
def Call.Confirmed (journal : List Event) : Call → Prop
  | .enableTotp user _ (.hashCodes secret) | .enableTotp user _ (.write secret _) =>
      .totpConfirmed user secret ∈ journal
  | _ => True

theorem Call.Confirmed.later {call : Call} {journal : List Event}
    (confirmed : call.Confirmed journal) (events : List Event) :
    call.Confirmed (journal ++ events) := by
  cases call with
  | enableTotp user code phase =>
      cases phase with
      | hashCodes secret => exact List.mem_append_left _ confirmed
      | write secret hashes => exact List.mem_append_left _ confirmed
      | _ => trivial
  | _ => trivial

theorem Call.next_confirmed (steps : current.step settings server outcome = some effect)
    (confirmed : current.Confirmed server.journal) :
    effect.next.Confirmed (server.journal ++ effect.events) := by
  have source := Call.next_source steps
  cases next : effect.next with
  | enableTotp user code phase =>
      rw [next] at source
      cases phase with
      | hashCodes secret =>
          obtain ⟨-, events⟩ := source
          rw [events]
          exact List.mem_append_right _ (List.mem_singleton.mpr rfl)
      | write secret hashes =>
          obtain ⟨was, -⟩ := source
          subst was
          exact List.mem_append_left _ confirmed
      | _ => trivial
  | _ => trivial

/-- Every enabled account has a secret that was confirmed with a code. -/
def EnabledConfirmed (server : Server) : Prop :=
  ∀ user row, server.accounts.users.get? user = some row → row.totpEnabled = true →
    ∃ secret, row.totpSecret = some secret ∧ .totpConfirmed user secret ∈ server.journal

theorem EnabledConfirmed.after (enabled : EnabledConfirmed server)
    (confirmed : current.Confirmed server.journal)
    (steps : current.step settings server outcome = some effect)
    (fresh : current.writesFresh server = true) : EnabledConfirmed (server.after index effect) := by
  intro user after present on
  have source := Call.step_source steps
  have kept : ∀ row, server.accounts.users.get? user = some row → row.totpEnabled = true →
      ∃ secret, row.totpSecret = some secret ∧
        .totpConfirmed user secret ∈ server.journal ++ effect.events := by
    intro row found was
    obtain ⟨secret, stored, listed⟩ := enabled user row found was
    exact ⟨secret, stored, List.mem_append_left _ listed⟩
  rcases Statement.user_after present with same | ⟨row, update, found, updates, equal⟩
  · exact kept after same on
  · subst equal
    rw [updates] at source
    cases update with
    | edit patch =>
        by_cases clears : patch.clearTotp = true
        · simp [UserUpdate.set, clears] at on
        · have same : (UserUpdate.set row (.edit patch)).totpSecret = row.totpSecret := by
            simp [UserUpdate.set, clears]
          rw [same]
          exact kept row found (by simpa [UserUpdate.set, clears] using on)
    | changePassword hash => exact kept row found on
    | useRecoveryCode remaining => exact kept row found on
    | setupTotp secret =>
        have was : current = _ := source
        subst was
        have off : (!row.totpEnabled) = true := by
          simpa [Call.writesFresh, found] using fresh
        have still : row.totpEnabled = true := on
        rw [still] at off
        cases off
    | enableTotp hashes =>
        obtain ⟨code, secret, was⟩ := source
        subst was
        have stored : row.totpSecret = some secret := by
          simpa [Call.writesFresh, found] using fresh
        exact ⟨secret, stored, List.mem_append_left _ confirmed⟩
    | disableTotp => cases on

/-- A step that neither uses a recovery code nor enables a secret adds no place of a code. -/
theorem places_other (present : server.calls[index]? = some current)
    (steps : current.step settings server outcome = some effect)
    (uses : ∀ token code codes used remaining,
      current ≠ .loginTotp token code (.useRecoveryCode codes used remaining))
    (writes : ∀ user code secret hashes, current ≠ .enableTotp user code (.write secret hashes))
    (draws : ∀ user code secret, current ≠ .enableTotp user code (.hashCodes secret))
    (user : Uuid) (code : RecoveryHash) :
    places (server.after index effect) user code ≤ places server user code := by
  have moved : total (Call.enabling user code) (server.after index effect).calls +
      current.enabling user code = total (Call.enabling user code) server.calls +
        effect.next.enabling user code + total (Call.enabling user code) [] :=
    total_advance present
  have next : effect.next.enabling user code = 0 := by
    have source := Call.next_source steps
    cases next : effect.next with
    | enableTotp id text phase =>
        rw [next] at source
        cases phase with
        | write secret hashes => exact absurd source.1 (draws _ _ _)
        | _ => rfl
    | _ => rfl
  have quiet : effect.events.count (.recoveryCodeAccepted user code) = 0 := by
    rw [List.count_eq_zero]
    intro listed
    obtain ⟨token, text, codes, remaining, challenge, was, -⟩ := Call.event_source steps listed
    exact uses _ _ _ _ _ was
  have journal : (server.after index effect).journal.count (.recoveryCodeAccepted user code) =
      server.journal.count (.recoveryCodeAccepted user code) +
        effect.events.count (.recoveryCodeAccepted user code) := List.count_append
  have stored : ((server.after index effect).accounts.recoveryCodes user).count code ≤
      (server.accounts.recoveryCodes user).count code := by
    have source := Call.step_source steps
    rcases Statement.recoveryCodes_after effect.statement server.accounts user with
      same | none | ⟨hashes, updates, -⟩ | ⟨remaining, updates⟩
    · exact Nat.le_of_eq (congrArg _ same)
    · change ((effect.statement.execute server.accounts).recoveryCodes user).count code ≤ _
      rw [none]
      exact Nat.zero_le _
    · rw [updates] at source
      obtain ⟨text, secret, was⟩ := source
      exact absurd was (writes _ _ _ _)
    · rw [updates] at source
      obtain ⟨token, text, codes, used, challenge, was, -⟩ := source
      exact absurd was (uses _ _ _ _ _)
  rw [total_nil] at moved
  unfold places
  omega

/-- A step that uses a recovery code: the account has the list that was read, and gets the
others. -/
theorem Call.uses (steps : current.step settings server outcome = some effect)
    (fresh : current.writesFresh server = true) {token : Uuid} {code : String}
    {codes remaining : List RecoveryHash} {used : RecoveryHash}
    (was : current = .loginTotp token code (.useRecoveryCode codes used remaining)) :
    ∃ id row, server.accounts.users.get? id = some row ∧
      server.accounts.recoveryCodes id = codes ∧
      effect.events = [.recoveryCodeAccepted id used] ∧
      effect.statement = .updateUser id (.useRecoveryCode remaining) ∧
      effect.next = .loginTotp token code .burnChallenge := by
  subst was
  cases outcome <;> simp only [step, LoginTotpPhase.step, reduceCtorEq] at steps
  split at steps
  · cases steps
  next challenge found =>
    cases steps
    have unchanged : (server.accounts.users.get? challenge.user).any
        (fun row => row.totpRecoveryCodes = some codes) = true := by
      simpa [writesFresh, found] using fresh
    obtain ⟨row, present, same⟩ := (Option.any_eq_true _ _).mp unchanged
    have same : row.totpRecoveryCodes = some codes := of_decide_eq_true same
    exact ⟨challenge.user, row, present, by rw [recoveryCodes_of_row present, same]; rfl, rfl,
      rfl, rfl⟩

/-- A step that enables a secret stores the codes it was about to. -/
theorem Call.enables {id : Uuid} {text : String} {secret : TotpSecret}
    {hashes : List RecoveryHash} (steps : Call.step settings server
      (.enableTotp id text (.write secret hashes)) outcome = some effect) :
    effect.statement = .updateUser id (.enableTotp hashes) ∧ effect.events = [] ∧
      effect.next = .done := by
  cases outcome <;> simp only [step, EnableTotpPhase.step, reduceCtorEq] at steps
  cases steps
  exact ⟨rfl, rfl, rfl⟩

/-- A step that hashes new codes is about to store them. -/
theorem Call.draws {id : Uuid} {text : String} {secret : TotpSecret}
    (steps : Call.step settings server (.enableTotp id text (.hashCodes secret)) outcome =
      some effect) :
    ∃ texts : List String, effect.drawn = texts.length ∧ effect.statement = .nothing ∧
      effect.events = [] ∧
      effect.next = .enableTotp id text (.write secret (recoveryHashes server.fresh texts)) := by
  cases outcome <;> simp only [step, EnableTotpPhase.step, reduceCtorEq] at steps
  cases steps
  exact ⟨_, rfl, rfl, rfl, rfl⟩

/-- The places of a code after any step that meets the condition: no more than before, but
for the codes that are drawn. -/
theorem places_after (present : server.calls[index]? = some current)
    (steps : current.step settings server outcome = some effect) (matched : current.Matched)
    (fresh : current.writesFresh server = true) (user : Uuid) (code : RecoveryHash) :
    places (server.after index effect) user code ≤ places server user code +
      if server.fresh ≤ code.salt ∧ code.salt < server.fresh + effect.drawn then 1 else 0 := by
  have moved : total (Call.enabling user code) (server.after index effect).calls +
      current.enabling user code = total (Call.enabling user code) server.calls +
        effect.next.enabling user code + total (Call.enabling user code) [] :=
    total_advance present
  have journal : (server.after index effect).journal.count (.recoveryCodeAccepted user code) =
      server.journal.count (.recoveryCodeAccepted user code) +
        effect.events.count (.recoveryCodeAccepted user code) := List.count_append
  rw [total_nil] at moved
  by_cases uses : ∃ token text codes used remaining,
      current = .loginTotp token text (.useRecoveryCode codes used remaining)
  · obtain ⟨token, text, codes, used, remaining, was⟩ := uses
    obtain ⟨id, row, found, stored, events, statement, next⟩ := Call.uses steps fresh was
    subst was
    obtain ⟨candidate, matches'⟩ := matched
    have split := count_matching matches' code
    have pending : effect.next.enabling user code = 0 := by rw [next]; rfl
    have after : (server.after index effect).accounts.recoveryCodes user =
        if user = id then remaining else server.accounts.recoveryCodes user := by
      change (effect.statement.execute server.accounts).recoveryCodes user = _
      rw [statement]
      exact recoveryCodes_use found remaining user
    unfold places
    rw [journal, after, events]
    by_cases same : user = id
    · subst same
      rw [if_pos rfl, stored]
      have accepted : [Event.recoveryCodeAccepted user used].count
          (.recoveryCodeAccepted user code) = if used = code then 1 else 0 := by
        simp [List.count_cons]
      omega
    · have other : [Event.recoveryCodeAccepted id used].count
          (.recoveryCodeAccepted user code) = 0 := by
        simp [Ne.symm same]
      rw [if_neg same]
      omega
  · by_cases writes : ∃ id text secret hashes, current = .enableTotp id text (.write secret hashes)
    · obtain ⟨id, text, secret, hashes, was⟩ := writes
      subst was
      obtain ⟨statement, events, next⟩ := Call.enables steps
      have pending : effect.next.enabling user code = 0 := by rw [next]; rfl
      have quiet : effect.events.count (.recoveryCodeAccepted user code) = 0 := by rw [events]; rfl
      have stored : ((server.after index effect).accounts.recoveryCodes user).count code ≤
          (server.accounts.recoveryCodes user).count code +
            Call.enabling user code (.enableTotp id text (.write secret hashes)) := by
        change ((effect.statement.execute server.accounts).recoveryCodes user).count code ≤ _
        rcases Statement.recoveryCodes_after effect.statement server.accounts user with
          same | none | ⟨others, updates, same⟩ | ⟨remaining, updates⟩
        · rw [same]
          exact Nat.le_add_right ..
        · rw [none]
          exact Nat.zero_le _
        · rw [same]
          rw [statement] at updates
          cases updates
          simp [Call.enabling]
        · rw [statement] at updates
          cases updates
      unfold places
      omega
    · by_cases draws : ∃ id text secret, current = .enableTotp id text (.hashCodes secret)
      · obtain ⟨id, text, secret, was⟩ := draws
        subst was
        obtain ⟨texts, drawn, statement, events, next⟩ := Call.draws steps
        have pending : effect.next.enabling user code ≤
            if server.fresh ≤ code.salt ∧ code.salt < server.fresh + effect.drawn then 1 else 0 := by
          rw [next, drawn]
          refine Nat.le_trans ?_ (count_recoveryHashes server.fresh texts code)
          simp only [Call.enabling]
          split
          · exact Nat.le_refl _
          · exact Nat.zero_le _
        have quiet : effect.events.count (.recoveryCodeAccepted user code) = 0 := by
          rw [events]
          rfl
        have stored : (server.after index effect).accounts.recoveryCodes user =
            server.accounts.recoveryCodes user := by
          change (effect.statement.execute server.accounts).recoveryCodes user = _
          rw [statement, Statement.execute_nothing]
        unfold places
        rw [journal, stored]
        omega
      · refine Nat.le_trans (places_other present steps ?_ ?_ ?_ user code) (Nat.le_add_right ..)
        · intro token text codes used remaining was
          exact uses ⟨token, text, codes, used, remaining, was⟩
        · intro id text secret hashes was
          exact writes ⟨id, text, secret, hashes, was⟩
        · intro id text secret was
          exact draws ⟨id, text, secret, was⟩

end Step

/-- No account has TOTP set up. -/
def NoTotp (accounts : Accounts) : Prop :=
  ∀ user row, accounts.users.get? user = some row →
    row.totpEnabled = false ∧ row.totpRecoveryCodes = none

/-- What the runs of the server keep about TOTP. -/
structure TotpKept (server : Server) : Prop where
  matched : ∀ call ∈ server.calls, call.Matched
  confirmed : ∀ call ∈ server.calls, call.Confirmed server.journal
  enabled : EnabledConfirmed server
  once : ∀ user code, places server user code ≤ 1
  /-- A code that is still to be drawn is nowhere. -/
  undrawn : ∀ user code, server.fresh ≤ code.salt → places server user code = 0

/-- Each recovery code is accepted at most once and not stored afterwards, and each enabled
secret has been confirmed. -/
structure TotpSound (server : Server) : Prop where
  once : ∀ user code, server.journal.count (.recoveryCodeAccepted user code) ≤ 1
  spent : ∀ user code, .recoveryCodeAccepted user code ∈ server.journal →
    code ∉ server.accounts.recoveryCodes user
  confirmed : EnabledConfirmed server

theorem TotpKept.sound {server : Server} (kept : TotpKept server) : TotpSound server := by
  refine ⟨fun user code => ?_, fun user code accepted stored => ?_, kept.enabled⟩
  · have once := kept.once user code
    unfold places at once
    omega
  · have once := kept.once user code
    have first := List.count_pos_iff.mpr accepted
    have second := List.count_pos_iff.mpr stored
    unfold places at once
    omega

section Reachable

variable {settings : Settings} {server : Server}

theorem totpKept_of_reachable
    (reached : (authServer settings NoTotp).Reachable WritesFresh server) : TotpKept server := by
  have invariant : (authServer settings NoTotp).Invariant WritesFresh TotpKept := by
    constructor
    · intro state started
      have calls := Server.Started.calls started
      have journal := Server.Started.journal started
      have none : ∀ user code, places state user code = 0 := by
        intro user code
        have stored : state.accounts.recoveryCodes user = [] := by
          unfold Accounts.recoveryCodes
          cases found : state.accounts.users.get? user with
          | none => rfl
          | some row => simp [(Server.Started.accounts started user row found).2]
        simp [places, stored, calls, journal]
      refine ⟨by simp [calls], by simp [calls], fun user row found on => ?_,
        fun user code => ?_, fun user code _ => none user code⟩
      · rw [(Server.Started.accounts started user row found).1] at on
        cases on
      · rw [none]
        exact Nat.zero_le _
    · intro state action next kept permitted stepped
      rcases Server.step_cases stepped with ⟨_, -, same⟩ | ⟨_, _, -, same⟩ | ⟨entry, -, same⟩ |
        ⟨index, outcome, current, effect, resumes, present, steps, same⟩
      · subst same
        exact ⟨kept.matched, kept.confirmed, kept.enabled, kept.once, kept.undrawn⟩
      · subst same
        exact ⟨kept.matched, kept.confirmed, kept.enabled, kept.once, kept.undrawn⟩
      · subst same
        have idle : ∀ user code, Call.enabling user code entry.call = 0 := by
          intro user code
          cases entry <;> rfl
        have same : ∀ user code, places { state with calls := state.calls ++ [entry.call] } user
            code = places state user code := by
          intro user code
          simp [places, idle]
        refine ⟨fun call member => ?_, fun call member => ?_, kept.enabled, ?_, ?_⟩
        · rcases List.mem_append.mp member with old | new
          · exact kept.matched call old
          · rw [List.mem_singleton.mp new]
            exact entry.call_matched
        · rcases List.mem_append.mp member with old | new
          · exact kept.confirmed call old
          · rw [List.mem_singleton.mp new]
            cases entry <;> trivial
        · intro user code
          rw [same]
          exact kept.once user code
        · intro user code later
          rw [same]
          exact kept.undrawn user code later
      · subst resumes
        subst same
        have mine := List.mem_of_getElem? present
        have fresh : current.writesFresh state = true := onSteps_resume permitted present
        have after := places_after present steps (kept.matched current mine) fresh
        refine ⟨fun call member => ?_, fun call member => ?_,
          kept.enabled.after (kept.confirmed current mine) steps fresh, fun user code => ?_,
          fun user code later => ?_⟩
        · rcases Pool.mem_advance member with old | same | started
          · exact kept.matched call old
          · rw [same]
            exact Call.next_matched steps
          · cases started
        · rcases Pool.mem_advance member with old | same | started
          · exact (kept.confirmed call old).later _
          · rw [same]
            exact Call.next_confirmed steps (kept.confirmed current mine)
          · cases started
        · have bound := after user code
          have once := kept.once user code
          split at bound
          case isTrue drawn =>
            have none := kept.undrawn user code drawn.1
            omega
          case isFalse => omega
        · have later : state.fresh + effect.drawn ≤ code.salt := later
          have bound := after user code
          have none := kept.undrawn user code (by omega)
          rw [if_neg (by omega)] at bound
          omega
  exact invariant.holds reached

/-- **TOTP state is sound.** As long as the use of a recovery code, the write that enables a
secret and the one that stores a pending secret find what their call has read, each recovery
code is accepted at most once and is not stored afterwards, an enabled secret has been
confirmed with a code, and the use of a recovery code leaves every other one as it is. -/
theorem totp_sound (reached : (authServer settings NoTotp).Reachable WritesFresh server) :
    TotpSound server ∧
      ∀ action next user used, WritesFresh server action →
        server.step settings action = some next →
        next.journal = server.journal ++ [.recoveryCodeAccepted user used] →
        ∀ other code, (other, code) ≠ (user, used) →
          (code ∈ next.accounts.recoveryCodes other ↔
            code ∈ server.accounts.recoveryCodes other) := by
  have kept := totpKept_of_reachable reached
  refine ⟨kept.sound, ?_⟩
  intro action next user used permitted stepped accepts other code different
  rcases Server.step_cases stepped with ⟨_, -, same⟩ | ⟨_, _, -, same⟩ | ⟨entry, -, same⟩ |
    ⟨index, outcome, current, effect, resumes, present, steps, same⟩
  · exact absurd (same ▸ accepts) (by simp)
  · exact absurd (same ▸ accepts) (by simp)
  · exact absurd (same ▸ accepts) (by simp)
  · subst resumes
    subst same
    have events : effect.events = [.recoveryCodeAccepted user used] :=
      List.append_cancel_left accepts
    have listed : .recoveryCodeAccepted user used ∈ effect.events := by simp [events]
    obtain ⟨token, text, codes, remaining, _, was, -⟩ := Call.event_source steps listed
    obtain ⟨id, row, found, stored, same, statement, -⟩ :=
      Call.uses steps (onSteps_resume permitted present) was
    rw [events] at same
    cases same
    have matched := kept.matched current (List.mem_of_getElem? present)
    subst was
    obtain ⟨candidate, matches'⟩ := matched
    have after : (server.after index effect).accounts.recoveryCodes other =
        if other = user then remaining else server.accounts.recoveryCodes other := by
      change (effect.statement.execute server.accounts).recoveryCodes other = _
      rw [statement]
      exact recoveryCodes_use found remaining other
    rw [after]
    by_cases same : other = user
    · subst same
      have unused : used ≠ code := fun equal => different (equal ▸ rfl)
      have split := count_matching matches' code
      rw [if_pos rfl, stored]
      rw [if_neg unused, Nat.add_zero] at split
      rw [← List.count_pos_iff, ← List.count_pos_iff, split]
    · rw [if_neg same]

end Reachable

theorem office_noTotp : NoTotp office.accounts := by
  intro user row found
  have none : office.accounts.users.anyWhere (fun _ row =>
      row.totpEnabled || row.totpRecoveryCodes.isSome) = false := by decide
  have here := Table.anyWhere_eq_false.mp none user row found
  simpa using here

/-- Two logins carry the same recovery code, and both match it before either uses it. -/
def recoveryCodeAtOnce : List Action :=
  challengedLogin ++ [.begin (.loginTotp 0 "abcde-fghij"), .begin (.loginTotp 0 "ABCDE FGHIJ")] ++
    returns 5 3 ++ returns 5 4 ++ returns 1 3 ++ returns 1 4

/-- Both accept it. -/
theorem code_accepted_twice : ∃ (server : Server) (code : RecoveryHash),
    (authServer codeSettings NoTotp).Reachable (fun _ _ => True) server ∧
      server.journal.count (.recoveryCodeAccepted 2 code) = 2 := by
  have ends : ((authServer codeSettings NoTotp).runWithin (fun _ _ => True) office
      recoveryCodeAtOnce).any (fun server =>
        server.journal.count (.recoveryCodeAccepted 2 ⟨"abcdefghij", 100001⟩) = 2) = true := by
    decide +kernel
  obtain ⟨server, reached, twice⟩ := System.exists_reachable (office_started office_noTotp) ends
  exact ⟨server, _, reached, of_decide_eq_true twice⟩

/-- The use of the first of two recovery codes: the second one stays. -/
theorem first_code_used : ∃ server next : Server,
    TotpSound server ∧ server.step codeSettings (.resume 3 .returns) = some next ∧
      next.journal = server.journal ++ [.recoveryCodeAccepted 2 ⟨"abcdefghij", 100001⟩] ∧
      ⟨"klmnopqrst", 100002⟩ ∈ next.accounts.recoveryCodes 2 := by
  have ends : ((authServer codeSettings NoTotp).runWithin WritesFresh office
      (challengedLogin ++ [.begin (.loginTotp 0 "abcde-fghij")] ++ returns 5 3)).any
        (fun server => decide (WritesFresh server (.resume 3 .returns)) &&
          decide (⟨"klmnopqrst", 100002⟩ ∈ server.accounts.recoveryCodes 2) &&
          (server.step codeSettings (.resume 3 .returns)).any fun next => next.journal =
            server.journal ++ [.recoveryCodeAccepted 2 ⟨"abcdefghij", 100001⟩]) = true := by
    decide +kernel
  obtain ⟨server, reached, all⟩ := System.exists_reachable (office_started office_noTotp) ends
  simp only [Bool.and_eq_true, decide_eq_true_eq, Option.any_eq_true] at all
  obtain ⟨⟨permitted, second⟩, next, stepped, accepts⟩ := all
  obtain ⟨sound, frame⟩ := totp_sound reached
  refine ⟨server, next, sound, stepped, accepts, ?_⟩
  exact (frame _ next 2 _ permitted stepped accepts 2 _ (by decide)).mpr second

end AmberBackup.Auth
