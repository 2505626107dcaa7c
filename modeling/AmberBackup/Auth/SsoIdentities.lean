import AmberBackup.Auth.SsoService

/-! # What an identity is bound to

A link overwrites what the pair is bound to, so two first sign-ins that overlap may bind it
twice, and nothing holds an account as it was when a callback found it. In runs where no
link finds the pair bound to another account, and no account is disabled or moved to local
login while a callback is about to sign it in, what is bound stays bound, and every session
belongs to an enabled account of the provider (`sso_identities_stable`).
-/

namespace AmberBackup.Auth

open Relational Transition

/-- An account that may get a session from a callback. -/
def User.signsInBySso (user : User) : Bool := user.authSource = .sso && !user.disabled

namespace CallbackPhase

/-- The provider must have asserted a verified e-mail before the callback gets here. -/
def pastVerification : CallbackPhase → Bool
  | .findByEmail | .linkSsoIdentity .. | .findConflict | .insertUser | .findCreated => true
  | .findBySsoIdentity | .sessionEpoch .. | .findById .. | .returned _ | .failed _ => false

/-- The account the identity is bound to, if the callback has seen to it. -/
def boundTo : CallbackPhase → Option Uuid
  | .sessionEpoch id _ | .findById id _ _ => some id
  | _ => none

/-- The account a callback has found enabled and is about to sign in. -/
def signingIn : CallbackPhase → Option Uuid
  | .linkSsoIdentity id user => if user.disabled then none else some id
  | .sessionEpoch id _ | .findById id _ _ => some id
  | _ => none

end CallbackPhase

namespace SsoServer

/-- What a step must meet: a link finds the pair unbound or bound to the same account, an
account that was just created is still one of the provider when it is read back, and no
statement disables an account or moves it to local login while a callback is about to sign
it in. -/
def orderly (toLowerCase : String → String) (server : SsoServer) : SsoAction → Bool
  | .proceed index =>
      (server.callbacks[index]?).all fun callback =>
        match callback.phase with
        | .linkSsoIdentity id _ =>
            (server.ssoIdentities.get? callback.identity).all fun bound => bound = id
        | .findCreated =>
            (server.accounts.findByEmailRaw (toLowerCase callback.profile.email)).all
              fun entry => entry.2.authSource = .sso
        | _ => true
  | .execute statement =>
      server.callbacks.all fun callback =>
        callback.phase.signingIn.all fun id =>
          ((statement.execute server.accounts).users.get? id).all User.signsInBySso
  | .callback .. | .refuse _ | .createUser .. => true

abbrev Orderly (toLowerCase : String → String) (server : SsoServer) (action : SsoAction) : Prop :=
  server.orderly toLowerCase action = true

/-- What is told about every sign-in and every binding of a run. -/
structure StableIdentities (earlier later : SsoServer) : Prop where
  /-- A bound identity reaches the same account as long as the account exists. -/
  stable : ∀ identity id, earlier.ssoIdentities.get? identity = some id →
    (later.accounts.users.get? id).isSome →
      later.ssoIdentities.get? identity = some id ∧
        ∀ other account,
          .signedIn identity other account ∈ later.journal.drop earlier.journal.length → other = id
  verified : ∀ identity profile id, .bound identity profile id ∈ later.journal →
    profile.emailVerified = true
  admitted : ∀ identity id account, .signedIn identity id account ∈ later.journal →
    account.authSource = .sso ∧ account.disabled = false

/-- What a callback knows of the account it has resolved. -/
structure CallbackSound (server : SsoServer) (callback : SsoCallback) : Prop where
  verified : callback.phase.pastVerification = true → callback.profile.emailVerified = true
  bound : ∀ id, callback.phase.boundTo = some id → id < server.nextUser ∧
    ((server.accounts.users.get? id).isSome →
      server.ssoIdentities.get? callback.identity = some id)
  signingIn : ∀ id, callback.phase.signingIn = some id → id < server.nextUser ∧
    ∀ user, server.accounts.users.get? id = some user → user.signsInBySso = true

/-- What an event tells, in the state it happens in. -/
def EventSound (server : SsoServer) : SsoEvent → Prop
  | .bound _ profile _ => profile.emailVerified = true
  | .signedIn identity id account =>
      account.signsInBySso = true ∧ (server.accounts.users.get? id).isSome ∧
        server.ssoIdentities.get? identity = some id

structure Sound (server : SsoServer) : Prop where
  users : ∀ id user, server.accounts.users.get? id = some user → id < server.nextUser
  identities : ∀ identity id, server.ssoIdentities.get? identity = some id → id < server.nextUser
  callbacks : ∀ callback ∈ server.callbacks, server.CallbackSound callback
  verified : ∀ identity profile id, .bound identity profile id ∈ server.journal →
    profile.emailVerified = true
  admitted : ∀ identity id account, .signedIn identity id account ∈ server.journal →
    account.signsInBySso = true

/-- A step keeps what is bound, as long as its account exists, and no removed account comes
back. -/
structure Carries (server next : SsoServer) : Prop where
  grows : server.nextUser ≤ next.nextUser
  users : ∀ id, id < server.nextUser → (next.accounts.users.get? id).isSome →
    (server.accounts.users.get? id).isSome
  bound : ∀ identity id, server.ssoIdentities.get? identity = some id →
    (next.accounts.users.get? id).isSome → next.ssoIdentities.get? identity = some id
  usable : ∀ callback ∈ server.callbacks, ∀ id, callback.phase.signingIn = some id →
    id < server.nextUser →
    (∀ user, server.accounts.users.get? id = some user → user.signsInBySso = true) →
    ∀ user, next.accounts.users.get? id = some user → user.signsInBySso = true

variable {toLowerCase : String → String} {server next : SsoServer} {action : SsoAction}
  {callback : SsoCallback} {phase : CallbackPhase} {id : Uuid} {user : User}

theorem CallbackSound.carried (sound : server.CallbackSound callback)
    (member : callback ∈ server.callbacks) (carries : Carries server next) :
    next.CallbackSound callback where
  verified := sound.verified
  bound := by
    intro id leads
    obtain ⟨below, bound⟩ := sound.bound id leads
    refine ⟨Nat.lt_of_lt_of_le below carries.grows, fun present => ?_⟩
    exact carries.bound _ id (bound (carries.users id below present)) present
  signingIn := by
    intro id leads
    obtain ⟨below, usable⟩ := sound.signingIn id leads
    exact ⟨Nat.lt_of_lt_of_le below carries.grows,
      carries.usable callback member id leads below usable⟩

/-! ## What the statements carry on -/

theorem Carries.of_same (grows : server.nextUser ≤ next.nextUser)
    (users : next.accounts = server.accounts)
    (identities : next.ssoIdentities = server.ssoIdentities) : Carries server next where
  grows := grows
  users := fun _ _ present => users ▸ present
  bound := fun _ _ bound _ => identities ▸ bound
  usable := fun _ _ _ _ _ usable user present => usable user (users ▸ present)

theorem get?_link_of_ne {identity : SsoIdentity} (different : identity ≠ callback.identity) :
    (server.link callback.identity id).ssoIdentities.get? identity =
      server.ssoIdentities.get? identity := by
  unfold link
  dsimp only
  split
  · rw [Table.get?_update_of_ne different]
  · rw [Table.get?_insert_of_ne different]

theorem Carries.link (fits : ∀ bound, server.ssoIdentities.get? callback.identity = some bound →
    bound = id) : Carries server (server.link callback.identity id) where
  grows := Nat.le_refl _
  users := fun _ _ present => present
  bound := by
    intro identity other bound _
    unfold SsoServer.link
    by_cases same : identity = callback.identity
    · subst same
      obtain rfl := fits other bound
      dsimp only
      rw [if_pos (by rw [bound]; rfl), Table.get?_update_self, bound]
      rfl
    · change (server.link callback.identity id).ssoIdentities.get? identity = some other
      rw [get?_link_of_ne same]
      exact bound
  usable := fun _ _ _ _ _ usable user present => usable user present

theorem link_self : (server.link callback.identity id).ssoIdentities.get? callback.identity =
    some id := by
  unfold link
  dsimp only
  split
  case isTrue present =>
    obtain ⟨other, bound⟩ := Option.isSome_iff_exists.mp present
    rw [Table.get?_update_self, bound]
    rfl
  case isFalse absent =>
    exact Table.get?_insert_self (by simpa using absent)

theorem get?_insertUser (below : id < server.nextUser) (row : User) :
    (server.insertUser row).accounts.users.get? id = server.accounts.users.get? id :=
  Table.get?_insert_of_ne (Nat.ne_of_lt below)

theorem Carries.insertUser (row : User) :
    Carries server (server.insertUser row) where
  grows := Nat.le_succ _
  users := fun id below present => by rwa [get?_insertUser below] at present
  bound := fun _ _ bound _ => bound
  usable := fun _ _ id _ below usable user present => by
    rw [get?_insertUser below] at present
    exact usable user present

theorem Sound.users_insertUser (sound : server.Sound) (row : User) (id : Uuid) (user : User)
    (present : (server.insertUser row).accounts.users.get? id = some user) :
    id < (server.insertUser row).nextUser := by
  by_cases same : id = server.nextUser
  · exact same ▸ Nat.lt_succ_self _
  · refine Nat.lt_succ_of_lt (sound.users id user ?_)
    rw [← present]
    exact (Table.get?_insert_of_ne same).symm

/-- A statement another service executes brings no account back, and a deletion takes
nothing but the identities of the account along. -/
theorem Carries.execute {statement : Statement}
    (orderly : Orderly toLowerCase server (.execute statement)) :
    Carries server (server.execute statement) where
  grows := Nat.le_refl _
  users := by
    intro id _ present
    obtain ⟨after, found⟩ := Option.isSome_iff_exists.mp present
    rcases Statement.user_after found with same | ⟨user, -, before, -⟩
    · exact Option.isSome_iff_exists.mpr ⟨after, same⟩
    · exact Option.isSome_iff_exists.mpr ⟨user, before⟩
  bound := by
    intro identity id bound present
    cases statement with
    | deleteUser removed =>
        change (server.ssoIdentities.delete fun _ user => user = removed).get? identity = some id
        change ((server.accounts.users.delete fun key _ => key = removed).get? id).isSome at present
        have other : id ≠ removed := by
          rintro rfl
          rw [Table.get?_delete_self] at present
          cases present
        rw [Table.get?_delete, bound]
        simp [other]
    | nothing | updateUser | insertCredential | deleteCredentials | touchCredential => exact bound
  usable := by
    intro callback member id leads _ _ user present
    have kept := List.all_eq_true.mp orderly callback member
    rw [leads, Option.all_some] at kept
    change ((statement.execute server.accounts).users.get? id) = some user at present
    rwa [present, Option.all_some] at kept

/-! ## A statement of a callback -/

/-- What a statement of a callback does to the server and to its own callback. -/
structure Advances (server next : SsoServer) (callback : SsoCallback) (phase : CallbackPhase) :
    Prop where
  carries : Carries server next
  advanced : next.CallbackSound { callback with phase }
  users : ∀ id user, next.accounts.users.get? id = some user → id < next.nextUser
  identities : ∀ identity id, next.ssoIdentities.get? identity = some id → id < next.nextUser
  callbacks : next.callbacks = server.callbacks
  journal : next.journal = server.journal ∨
    ∃ event, next.journal = server.journal ++ [event] ∧ server.EventSound event

/-- A phase in which a callback knows nothing of any account. -/
theorem CallbackSound.of_unresolved (verified : phase.pastVerification = true →
      callback.profile.emailVerified = true) (bound : phase.boundTo = none)
    (signingIn : phase.signingIn = none) : server.CallbackSound { callback with phase } where
  verified := verified
  bound := by
    intro id leads
    exact absurd (bound.symm.trans leads) nofun
  signingIn := by
    intro id leads
    exact absurd (signingIn.symm.trans leads) nofun

/-- A callback whose e-mail is not verified yet, or that has failed. -/
theorem CallbackSound.of_unverified (unverified : phase.pastVerification = false)
    (bound : phase.boundTo = none) (signingIn : phase.signingIn = none) :
    server.CallbackSound { callback with phase } :=
  .of_unresolved (fun past => absurd (unverified.symm.trans past) Bool.false_ne_true) bound
    signingIn

/-- A read leaves everything but the phase as it was. -/
theorem Sound.reads (sound : server.Sound)
    (advanced : server.CallbackSound { callback with phase }) :
    Advances server server callback phase where
  carries := .of_same (Nat.le_refl _) rfl rfl
  advanced := advanced
  users := sound.users
  identities := sound.identities
  callbacks := rfl
  journal := .inl rfl

/-- An account that was found under its identity is signed in if it is enabled. -/
theorem CallbackSound.resolved (below : id < server.nextUser)
    (bound : (server.accounts.users.get? id).isSome →
      server.ssoIdentities.get? callback.identity = some id)
    (usable : user.disabled = false → ∀ row, server.accounts.users.get? id = some row →
      row.signsInBySso = true) :
    server.CallbackSound { callback with phase := callback.resolved id user } := by
  unfold SsoCallback.resolved
  split
  case isTrue => exact .of_unverified rfl rfl rfl
  case isFalse enabled =>
    refine ⟨fun past => absurd past Bool.false_ne_true, ?_, ?_⟩
    · rintro other ⟨⟩
      exact ⟨below, bound⟩
    · rintro other ⟨⟩
      exact ⟨below, usable (by simpa using enabled)⟩

/-- An account that was found under its e-mail is bound next. -/
theorem CallbackSound.found (verified : callback.profile.emailVerified = true)
    (below : id < server.nextUser) (found : server.accounts.users.get? id = some user)
    (source : user.authSource = .sso) :
    server.CallbackSound { callback with phase := .linkSsoIdentity id user } where
  verified := fun _ => verified
  bound := nofun
  signingIn := by
    intro other leads
    simp only [CallbackPhase.signingIn] at leads
    split at leads
    case isTrue => cases leads
    case isFalse enabled =>
      obtain rfl := Option.some.inj leads
      refine ⟨below, fun row present => ?_⟩
      rw [found] at present
      obtain rfl := Option.some.inj present
      simp [User.signsInBySso, source, enabled]

theorem findByEmailRaw_get? {accounts : Accounts} {email : String}
    (found : accounts.findByEmailRaw email = some (id, user)) :
    accounts.users.get? id = some user :=
  Table.mem_rows.mp (List.mem_of_find?_eq_some found)

theorem sso_of_not_local (other : user.authSource ≠ .«local») : user.authSource = .sso := by
  cases source : user.authSource with
  | «local» => exact absurd source other
  | sso => rfl

theorem Sound.advances (sound : server.Sound) {index : Nat}
    (present : server.callbacks[index]? = some callback)
    (orderly : Orderly toLowerCase server (.proceed index))
    (moved : server.statement toLowerCase callback callback.phase = some (next, phase)) :
    Advances server next callback phase := by
  have member : callback ∈ server.callbacks := List.mem_of_getElem? present
  have knows := sound.callbacks callback member
  simp only [Orderly, SsoServer.orderly, present, Option.all_some] at orderly
  cases here : callback.phase with
  | findBySsoIdentity =>
      rw [here] at moved
      simp only [statement] at moved
      split at moved
      case h_1 id user found =>
        simp only [SsoServer.findBySsoIdentity, Option.bind_eq_some_iff, Option.map_eq_some_iff]
          at found
        obtain ⟨bound, leads, row, stands, same⟩ := found
        obtain ⟨rfl, rfl⟩ := Prod.mk.inj same
        split at moved <;> obtain ⟨rfl, rfl⟩ := Prod.mk.inj (Option.some.inj moved)
        case isTrue => exact sound.reads (.of_unverified rfl rfl rfl)
        case isFalse source =>
          refine sound.reads (.resolved (sound.users _ _ stands) (fun _ => leads) ?_)
          intro enabled other found
          rw [stands] at found
          obtain rfl := Option.some.inj found
          simp [User.signsInBySso, sso_of_not_local source, enabled]
      case h_2 =>
        split at moved <;> obtain ⟨rfl, rfl⟩ := Prod.mk.inj (Option.some.inj moved)
        case isTrue verified => exact sound.reads (.of_unresolved (fun _ => verified) rfl rfl)
        case isFalse => exact sound.reads (.of_unverified rfl rfl rfl)
  | findByEmail =>
      have verified := knows.verified (by rw [here]; rfl)
      rw [here] at moved
      simp only [statement] at moved
      split at moved
      case h_1 id user found =>
        have row := findByEmailRaw_get? found
        split at moved <;> obtain ⟨rfl, rfl⟩ := Prod.mk.inj (Option.some.inj moved)
        case isTrue => exact sound.reads (.of_unverified rfl rfl rfl)
        case isFalse source =>
          exact sound.reads (.found verified (sound.users _ _ row) row (sso_of_not_local source))
      case h_2 =>
        obtain ⟨rfl, rfl⟩ := Prod.mk.inj (Option.some.inj moved)
        exact sound.reads (.of_unresolved (fun _ => verified) rfl rfl)
  | linkSsoIdentity id user =>
      have verified := knows.verified (by rw [here]; rfl)
      rw [here] at moved orderly
      simp only [statement] at moved
      split at moved <;> obtain ⟨rfl, rfl⟩ := Prod.mk.inj (Option.some.inj moved)
      case isTrue stands =>
        obtain ⟨row, found⟩ := Option.isSome_iff_exists.mp stands
        have below := sound.users id row found
        have fits : ∀ bound, server.ssoIdentities.get? callback.identity = some bound →
            bound = id := by
          intro bound before
          rw [before] at orderly
          simpa using orderly
        have carries : Carries server (server.link callback.identity id) := .link fits
        exact {
          carries := ⟨carries.grows, carries.users, carries.bound, carries.usable⟩
          advanced := by
            refine .resolved below (fun _ => link_self) fun enabled => ?_
            have leads : callback.phase.signingIn = some id := by
              rw [here, CallbackPhase.signingIn, enabled]
              rfl
            exact (knows.signingIn id leads).2
          users := sound.users
          identities := by
            intro identity other bound
            by_cases same : identity = callback.identity
            · subst same
              rw [show _ = some id from link_self] at bound
              exact Option.some.inj bound ▸ below
            · refine sound.identities identity other ?_
              rw [← bound]
              exact (get?_link_of_ne same).symm
          callbacks := rfl
          journal := .inr ⟨_, rfl, verified⟩ }
      case isFalse => exact sound.reads (.of_unverified rfl rfl rfl)
  | findConflict =>
      have verified := knows.verified (by rw [here]; rfl)
      rw [here] at moved
      simp only [statement] at moved
      split at moved <;> obtain ⟨rfl, rfl⟩ := Prod.mk.inj (Option.some.inj moved)
      · exact sound.reads (.of_unverified rfl rfl rfl)
      · exact sound.reads (.of_unresolved (fun _ => verified) rfl rfl)
  | insertUser =>
      have verified := knows.verified (by rw [here]; rfl)
      rw [here] at moved
      simp only [statement] at moved
      split at moved <;> obtain ⟨rfl, rfl⟩ := Prod.mk.inj (Option.some.inj moved)
      case isTrue => exact sound.reads (.of_unverified rfl rfl rfl)
      case isFalse =>
        exact {
          carries := .insertUser _
          advanced := .of_unresolved (fun _ => verified) rfl rfl
          users := sound.users_insertUser _
          identities := fun identity id bound =>
            Nat.lt_succ_of_lt (sound.identities identity id bound)
          callbacks := rfl
          journal := .inl rfl }
  | findCreated =>
      have verified := knows.verified (by rw [here]; rfl)
      rw [here] at moved orderly
      simp only [statement] at moved
      split at moved <;> obtain ⟨rfl, rfl⟩ := Prod.mk.inj (Option.some.inj moved)
      case h_1 id user found =>
        have row := findByEmailRaw_get? found
        have source : user.authSource = .sso := by
          rw [found] at orderly
          simpa using orderly
        exact sound.reads (.found verified (sound.users _ _ row) row source)
      case h_2 => exact sound.reads (.of_unverified rfl rfl rfl)
  | sessionEpoch id user =>
      have bound := knows.bound id (by rw [here]; rfl)
      have signingIn := knows.signingIn id (by rw [here]; rfl)
      rw [here] at moved
      obtain ⟨rfl, rfl⟩ := Prod.mk.inj (Option.some.inj moved)
      refine sound.reads ⟨fun past => absurd past Bool.false_ne_true, ?_, ?_⟩
      · rintro other ⟨⟩
        exact bound
      · rintro other ⟨⟩
        exact signingIn
  | findById id user epoch =>
      have bound := knows.bound id (by rw [here]; rfl)
      have signingIn := knows.signingIn id (by rw [here]; rfl)
      rw [here] at moved
      simp only [statement] at moved
      split at moved <;> obtain ⟨rfl, rfl⟩ := Prod.mk.inj (Option.some.inj moved)
      case h_1 account found =>
        have stands : (server.accounts.users.get? id).isSome := by rw [found]; rfl
        exact {
          carries := .of_same (Nat.le_refl _) rfl rfl
          advanced := .of_unverified rfl rfl rfl
          users := sound.users
          identities := sound.identities
          callbacks := rfl
          journal := .inr ⟨_, rfl, signingIn.2 account found, stands, bound.2 stands⟩ }
      case h_2 => exact sound.reads (.of_unverified rfl rfl rfl)
  | returned | failed =>
      rw [here] at moved
      cases moved

/-! ## A run -/

/-- What a step leaves sound, carries on and tells. -/
structure Moves (server next : SsoServer) : Prop where
  sound : next.Sound
  carries : Carries server next
  journal : next.journal = server.journal ∨
    ∃ event, next.journal = server.journal ++ [event] ∧ server.EventSound event

/-- Every callback after the step is one of before, or sound in its new phase. -/
theorem Sound.moves (sound : server.Sound) (carries : Carries server next)
    (users : ∀ id user, next.accounts.users.get? id = some user → id < next.nextUser)
    (identities : ∀ identity id, next.ssoIdentities.get? identity = some id → id < next.nextUser)
    (callbacks : ∀ callback ∈ next.callbacks,
      callback ∈ server.callbacks ∨ next.CallbackSound callback)
    (journal : next.journal = server.journal ∨
      ∃ event, next.journal = server.journal ++ [event] ∧ server.EventSound event) :
    Moves server next where
  sound := by
    have told : ∀ event ∈ next.journal, event ∈ server.journal ∨ server.EventSound event := by
      intro event member
      rcases journal with same | ⟨last, same, tells⟩
      · exact .inl (same ▸ member)
      · rw [same, List.mem_append, List.mem_singleton] at member
        rcases member with old | rfl
        · exact .inl old
        · exact .inr tells
    refine ⟨users, identities, ?_, ?_, ?_⟩
    · intro callback member
      rcases callbacks callback member with old | new
      · exact (sound.callbacks callback old).carried old carries
      · exact new
    · intro identity profile id member
      rcases told _ member with old | tells
      · exact sound.verified identity profile id old
      · exact tells
    · intro identity id account member
      rcases told _ member with old | tells
      · exact sound.admitted identity id account old
      · exact tells.1
  carries := carries
  journal := journal

theorem Sound.step (sound : server.Sound) (orderly : Orderly toLowerCase server action)
    (moved : SsoServer.step toLowerCase server action = some next) : Moves server next := by
  cases action with
  | callback provider profile =>
      obtain rfl := Option.some.inj moved
      refine sound.moves (.of_same (Nat.le_refl _) rfl rfl) sound.users sound.identities ?_ (.inl rfl)
      intro callback member
      rcases List.mem_append.mp member with old | new
      · exact .inl old
      · obtain rfl := List.mem_singleton.mp new
        right
        unfold SsoProfile.entry
        split
        · exact ⟨nofun, nofun, nofun⟩
        · split <;> exact ⟨nofun, nofun, nofun⟩
  | proceed index =>
      obtain ⟨callback, present, ran⟩ := Option.bind_eq_some_iff.mp moved
      obtain ⟨⟨after, phase⟩, executed, rfl⟩ := Option.map_eq_some_iff.mp ran
      have advances := sound.advances present orderly executed
      have carries := advances.carries
      refine sound.moves ⟨carries.grows, carries.users, carries.bound, carries.usable⟩
        advances.users advances.identities ?_ advances.journal
      intro other member
      rcases List.mem_or_eq_of_mem_set member with old | rfl
      · exact .inl old
      · exact .inr ⟨advances.advanced.verified, advances.advanced.bound,
          advances.advanced.signingIn⟩
  | refuse index =>
      obtain ⟨callback, present, rfl⟩ := Option.map_eq_some_iff.mp moved
      refine sound.moves (.of_same (Nat.le_refl _) rfl rfl) sound.users sound.identities ?_ (.inl rfl)
      intro other member
      rcases List.mem_or_eq_of_mem_set member with old | rfl
      · exact .inl old
      · exact .inr ⟨nofun, nofun, nofun⟩
  | createUser email displayName passwordHash isAdmin =>
      simp only [SsoServer.step] at moved
      split at moved
      case isTrue => cases moved
      case isFalse =>
        obtain rfl := Option.some.inj moved
        refine sound.moves (.insertUser _) (sound.users_insertUser _) ?_ (fun _ => .inl) (.inl rfl)
        intro identity id bound
        exact Nat.lt_succ_of_lt (sound.identities identity id bound)
  | execute statement =>
      obtain rfl := Option.some.inj moved
      have carries : Carries server (server.execute statement) := .execute orderly
      refine sound.moves carries ?_ ?_ (fun _ => .inl) (.inl rfl)
      · intro id user present
        rcases Statement.user_after present with same | ⟨before, -, found, -⟩
        · exact sound.users id user same
        · exact sound.users id before found
      · intro identity id bound
        refine sound.identities identity id ?_
        cases statement with
        | deleteUser removed =>
            change (server.ssoIdentities.delete _).get? identity = some id at bound
            rw [Table.get?_delete, Option.filter_eq_some_iff] at bound
            exact bound.1
        | nothing | updateUser | insertCredential | deleteCredentials | touchCredential =>
            exact bound

theorem sound_of_reachable
    (reached : (sso toLowerCase).Reachable (Orderly toLowerCase) server) : server.Sound :=
  System.Invariant.holds {
    initial := by
      rintro state rfl
      refine ⟨?_, ?_, ?_, ?_, ?_⟩
      · intro id user present
        exact absurd (present : none = some user) nofun
      · intro identity id present
        exact absurd (present : none = some id) nofun
      · intro callback member
        exact absurd member List.not_mem_nil
      · intro identity profile id member
        exact absurd member List.not_mem_nil
      · intro identity id account member
        exact absurd member List.not_mem_nil
    step := fun _ _ _ sound orderly moved => (sound.step orderly moved).sound } reached

/-- What holds of a bound identity from the state it is bound in on. -/
structure Loyal (before : Nat) (identity : SsoIdentity) (id : Uuid) (server : SsoServer) :
    Prop where
  below : id < server.nextUser
  length : before ≤ server.journal.length
  bound : (server.accounts.users.get? id).isSome →
    server.ssoIdentities.get? identity = some id ∧
      ∀ other account,
        .signedIn identity other account ∈ server.journal.drop before → other = id

theorem Loyal.step {before : Nat} {identity : SsoIdentity}
    (loyal : Loyal before identity id server) (moves : Moves server next) :
    Loyal before identity id next := by
  have length : before ≤ next.journal.length := by
    rcases moves.journal with same | ⟨event, same, -⟩
    · exact same ▸ loyal.length
    · rw [same, List.length_append]
      exact Nat.le_add_right_of_le loyal.length
  refine ⟨Nat.lt_of_lt_of_le loyal.below moves.carries.grows, length, fun present => ?_⟩
  obtain ⟨bound, told⟩ := loyal.bound (moves.carries.users id loyal.below present)
  refine ⟨moves.carries.bound identity id bound present, ?_⟩
  intro other account member
  rcases moves.journal with same | ⟨event, same, tells⟩
  · exact told other account (same ▸ member)
  · rw [same, List.drop_append_of_le_length loyal.length, List.mem_append,
      List.mem_singleton] at member
    rcases member with old | rfl
    · exact told other account old
    · exact Option.some.inj (tells.2.2.symm.trans bound)

end SsoServer

open SsoServer

/-- **Identities are stable.** In every run whose links find the pair unbound or bound to the
same account, and in which no account is disabled or moved to local login while a callback is
about to sign it in, a bound pair signs in its account as long as that exists, it was bound
for a verified e-mail, and no session is for a local or a disabled account. -/
theorem sso_identities_stable {toLowerCase : String → String} {earlier later : SsoServer}
    (reached : (sso toLowerCase).Reachable (Orderly toLowerCase) earlier)
    (steps : (sso toLowerCase).Steps (Orderly toLowerCase) earlier later) :
    StableIdentities earlier later := by
  have sound := sound_of_reachable (reached.steps steps)
  refine ⟨?_, sound.verified, ?_⟩
  · intro identity id bound present
    have start : Loyal earlier.journal.length identity id earlier := by
      refine ⟨(sound_of_reachable reached).identities identity id bound, Nat.le_refl _, ?_⟩
      intro _
      refine ⟨bound, ?_⟩
      rw [List.drop_length]
      intro other account member
      exact absurd member List.not_mem_nil
    have loyal : Loyal earlier.journal.length identity id later := by
      refine steps.stable (Loyal _ identity id) reached ?_ start
      intro state action next here loyal orderly moved
      exact loyal.step ((sound_of_reachable here).step orderly moved)
    exact loyal.bound present
  · intro identity id account member
    simpa [User.signsInBySso] using sound.admitted identity id account member

/-- A provider that has asserted one subject with two e-mails. -/
def directory : SsoProvider := ⟨"p", .entra, ""⟩

def ada : SsoProfile := ⟨"1", "ada@example.org", "Ada", true⟩

def ava : SsoProfile := ⟨"1", "ava@example.org", "Ava", true⟩

/-- The first of two overlapping callbacks has created and bound an account. -/
def firstBinding : List SsoAction :=
  [.callback directory ada, .callback directory ava, .proceed 0, .proceed 1, .proceed 0,
    .proceed 0, .proceed 0, .proceed 0, .proceed 0]

/-- The second one creates an account of its own, which is approved, and signs in. -/
def secondBinding : List SsoAction :=
  [.proceed 1, .proceed 1, .proceed 1, .proceed 1, .proceed 1,
    .execute (.updateUser 1 (.edit { disabled := some false })),
    .callback directory ada, .proceed 2, .proceed 2, .proceed 2]

/-- The link of the second callback rebinds the pair: a sign-in with it then reaches another
account although the first one is still there. -/
theorem overlapping_links_rebind :
    ¬ ∀ earlier later, (sso String.toLower).Reachable (fun _ _ => True) earlier →
      (sso String.toLower).Steps (fun _ _ => True) earlier later →
      StableIdentities earlier later := by
  intro stable
  have ends : ((sso String.toLower).runWithin (fun _ _ => True) {} firstBinding).any
      (fun earlier => decide (earlier.ssoIdentities.get? ("p", "1") = some 0) &&
        ((sso String.toLower).runWithin (fun _ _ => True) earlier secondBinding).any fun later =>
          (later.accounts.users.get? 0).isSome &&
            decide (.signedIn ("p", "1") 1
              { email := "ava@example.org", displayName := "Ava", authSource := .sso } ∈
                later.journal.drop earlier.journal.length)) = true := by
    decide +kernel
  have start : (sso String.toLower).initial {} := rfl
  obtain ⟨earlier, reached, test⟩ := System.exists_reachable start ends
  simp only [Bool.and_eq_true, decide_eq_true_eq, Option.any_eq_true] at test
  obtain ⟨bound, later, ran, present, told⟩ := test
  have faithful := stable earlier later reached (System.steps_of_runWithin ran)
  obtain ⟨-, same⟩ := faithful.stable _ 0 bound present
  exact absurd (same 1 _ told) (by decide)

/-- An identity is bound at its first sign-in, the account is approved, and the next sign-in
reaches it. -/
theorem approved_account_signs_in :
    ∃ earlier later, earlier.ssoIdentities.get? ("p", "1") = some 0 ∧
      .signedIn ("p", "1") 0
        { email := "ada@example.org", displayName := "Ada", authSource := .sso } ∈
          later.journal ∧
      StableIdentities earlier later := by
  have ends : ((sso String.toLower).runWithin (Orderly String.toLower) {}
      [.callback directory ada, .proceed 0, .proceed 0, .proceed 0, .proceed 0, .proceed 0,
        .proceed 0]).any
      (fun earlier => decide (earlier.ssoIdentities.get? ("p", "1") = some 0) &&
        ((sso String.toLower).runWithin (Orderly String.toLower) earlier
          [.execute (.updateUser 0 (.edit { disabled := some false })),
            .callback directory ada, .proceed 1, .proceed 1, .proceed 1]).any fun later =>
          decide (.signedIn ("p", "1") 0
            { email := "ada@example.org", displayName := "Ada", authSource := .sso } ∈
              later.journal)) = true := by
    decide +kernel
  have start : (sso String.toLower).initial {} := rfl
  obtain ⟨earlier, reached, test⟩ := System.exists_reachable start ends
  simp only [Bool.and_eq_true, decide_eq_true_eq, Option.any_eq_true] at test
  obtain ⟨bound, later, ran, told⟩ := test
  exact ⟨earlier, later, bound, told,
    sso_identities_stable reached (System.steps_of_runWithin ran)⟩

end AmberBackup.Auth
