import AmberBackup.Cli.LoginCalls

/-! # What logins and logouts yield

What holds however the commands, the statements of the servers and the requests of others
interleave, and whatever gets lost on the way (`Sound`): a machine holds the keys that its own
logins were issued (`stored_keys_paired`), a login never polls too fast (`logins_paced`), and after
a logout the server does not accept the key (`logout_revokes`).
-/

namespace AmberBackup.Cli.Login

open Relational Transition
open Auth (Pairings PairingAction PairingCall PairingEvent DeviceCode DeviceAuthorization Draw
  isUserCode formatUserCode hashToken userCodeAlphabet PairingProgress PairingStep)

/-- A login of the machine was issued these credentials. -/
def LoggedIn (processes : List Process) (machine : Nat) (base : String) (login : StoredLogin) :
    Prop :=
  ∃ (index : Nat) (process : Process), processes[index]? = some process ∧
    process.machine = machine ∧ process.base = base ∧ process.phase = .loggedIn login

/-- A key that was issued to a command is in the response it waits for, was stored by it, or the
command has failed. -/
inductive Delivered (server : Pairings) (key : Uuid) : Phase → Prop where
  | inFlight {code : DeviceCode} {shown : String} {interval deadline call : Nat} {email : String}
      {access : Auth.DeviceAccess} {expiresAt : Option Nat}
      (answered : server.calls[call]? = some (.answered (.approved key email access expiresAt))) :
      Delivered server key (.polling code shown interval deadline call)
  | saved {login : StoredLogin} (same : login.apiKey = key) : Delivered server key (.loggedIn login)
  | lost : Delivered server key .failed

/-- A key is gone once its revocation says so. -/
def Revocation.Sound (server : Pairings) (revocation : Revocation) : Prop :=
  match revocation.phase with
  | .answered .revoked | .answered .invalid => server.apiKeys.get? revocation.key = none
  | .answered .expired => ∀ row, server.apiKeys.get? revocation.key = some row →
      row.expiresAt.any (fun expiresAt => expiresAt < server.now) = true
  | _ => True

structure Sound (state : Devices) : Prop where
  clocks : ∀ base, (state.servers base).now = state.now
  servers : ∀ base, ServerSound state.drawn (state.servers base)
  bounds : ∀ (index : Nat) process call, state.processes[index]? = some process →
    process.requested = some call → call < (state.servers process.base).calls.length
  apart : ∀ (index other : Nat) process second call, state.processes[index]? = some process →
    state.processes[other]? = some second → process.base = second.base →
      process.requested = some call → second.requested = some call → index = other
  phases : ∀ (index : Nat) process, state.processes[index]? = some process →
    PhaseSound (state.servers process.base) state.issues state.now state.revocations process.base
      process.requested process.phase
  issued : ∀ issue ∈ state.issues, (∃ draw ∈ state.drawn, draw.key = issue.key) ∧
    issue.deviceCode.call < (state.servers issue.base).calls.length
  distinct : (state.issues.map Issue.key).Nodup
  delivered : ∀ issue ∈ state.issues, ∀ (index : Nat) process,
    state.processes[index]? = some process → process.base = issue.base →
      process.requested = some issue.deviceCode.call →
        Delivered (state.servers issue.base) issue.key process.phase
  stored : ∀ machine base login, (base, login) ∈ (state.stores machine).servers →
    LoggedIn state.processes machine base login
  loaded : ∀ (index : Nat) process base login, state.processes[index]? = some process →
    (base, login) ∈ process.store.servers → LoggedIn state.processes process.machine base login
  revocations : ∀ (index : Nat) revocation, state.revocations[index]? = some revocation →
    (∃ draw ∈ state.drawn, draw.key = revocation.key) ∧
      revocation.Sound (state.servers revocation.base)

variable {state next : Devices}

theorem LoggedIn.mono {processes later : List Process} {machine : Nat} {base : String}
    {login : StoredLogin} (before : LoggedIn processes machine base login)
    (kept : ∀ (index : Nat) process, processes[index]? = some process →
      process.phase = .loggedIn login → later[index]? = some process) :
    LoggedIn later machine base login := by
  obtain ⟨index, process, present, here, there, phase⟩ := before
  exact ⟨index, process, kept index process present phase, here, there, phase⟩

/-! ## A command goes on -/

theorem modified {processes : List Process} {index other : Nat} {process found : Process}
    {phase : Phase} (present : processes[index]? = some process)
    (after : (processes.modify index fun process => { process with phase })[other]? =
      some found) :
    other = index ∧ found = { process with phase } ∨ other ≠ index ∧ processes[other]? = some found := by
  by_cases same : index = other
  · subst same
    rw [List.getElem?_modify_eq, present] at after
    exact .inl ⟨rfl, (Option.some.inj after).symm⟩
  · rw [List.getElem?_modify_ne _ _ same] at after
    exact .inr ⟨fun equal => same equal.symm, after⟩

theorem Sound.setPhase (sound : Sound state) {index : Nat} {process : Process} {phase : Phase}
    (present : state.processes[index]? = some process)
    (unsettled : ∀ login, process.phase ≠ .loggedIn login)
    (goes : PhaseSound (state.servers process.base) state.issues state.now state.revocations
      process.base process.requested phase)
    (delivers : ∀ issue ∈ state.issues, process.base = issue.base →
      process.requested = some issue.deviceCode.call →
        Delivered (state.servers issue.base) issue.key phase) :
    Sound (state.setPhase index phase) := by
  have loggedIn : ∀ {machine base login}, LoggedIn state.processes machine base login →
      LoggedIn (state.setPhase index phase).processes machine base login := by
    intro machine base login before
    refine before.mono fun other found here settled => ?_
    have different : index ≠ other := by
      rintro rfl
      rw [present] at here
      exact unsettled login ((Option.some.inj here) ▸ settled)
    change (state.processes.modify index _)[other]? = some found
    rw [List.getElem?_modify_ne _ _ different]
    exact here
  refine ⟨sound.clocks, sound.servers, ?_, ?_, ?_, sound.issued, sound.distinct, ?_, ?_, ?_,
    sound.revocations⟩
  · intro other found call after asked
    rcases modified present after with ⟨rfl, rfl⟩ | ⟨-, before⟩
    · exact sound.bounds other process call present asked
    · exact sound.bounds other found call before asked
  · intro first other found second call after after' same asked asked'
    rcases modified present after with ⟨rfl, rfl⟩ | ⟨-, before⟩ <;>
      rcases modified present after' with ⟨rfl, rfl⟩ | ⟨-, before'⟩
    · rfl
    · exact sound.apart first other process second call present before' same asked asked'
    · exact sound.apart first other found process call before present same asked asked'
    · exact sound.apart first other found second call before before' same asked asked'
  · intro other found after
    rcases modified present after with ⟨rfl, rfl⟩ | ⟨-, before⟩
    · exact goes
    · exact sound.phases other found before
  · intro issue member other found after same asked
    rcases modified present after with ⟨rfl, rfl⟩ | ⟨-, before⟩
    · exact delivers issue member same asked
    · exact sound.delivered issue member other found before same asked
  · intro machine base login member
    exact loggedIn (sound.stored machine base login member)
  · intro other found base login after member
    rcases modified present after with ⟨rfl, rfl⟩ | ⟨-, before⟩
    · exact loggedIn (sound.loaded other process base login present member)
    · exact loggedIn (sound.loaded other found base login before member)

theorem Sound.save (sound : Sound state) (machine : Nat) (store : CredentialStore)
    (entries : ∀ base login, (base, login) ∈ store.servers →
      LoggedIn state.processes machine base login) : Sound (state.save machine store) := by
  refine ⟨sound.clocks, sound.servers, sound.bounds, sound.apart, sound.phases, sound.issued,
    sound.distinct, sound.delivered, ?_, sound.loaded, sound.revocations⟩
  intro other base login member
  change (base, login) ∈ (Function.update state.stores machine store other).servers at member
  by_cases same : other = machine
  · subst same
    rw [Function.update_self] at member
    exact entries base login member
  · rw [Function.update_of_ne same] at member
    exact sound.stored other base login member

/-- A command is started. -/
theorem Sound.start (sound : Sound state) (process : Process)
    (bound : ∀ call, process.requested = some call →
      call < (state.servers process.base).calls.length)
    (apart : ∀ (index : Nat) other call, state.processes[index]? = some other →
      other.base = process.base → process.requested = some call → other.requested ≠ some call)
    (starts : PhaseSound (state.servers process.base) state.issues state.now state.revocations
      process.base process.requested process.phase)
    (unpaid : ∀ issue ∈ state.issues, process.base = issue.base →
      process.requested ≠ some issue.deviceCode.call)
    (loads : process.store = state.stores process.machine) :
    Sound { state with processes := state.processes ++ [process] } := by
  have loggedIn : ∀ {machine base login}, LoggedIn state.processes machine base login →
      LoggedIn (state.processes ++ [process]) machine base login := by
    intro machine base login before
    refine before.mono fun index found here _ => ?_
    rw [List.getElem?_append_left (List.getElem?_eq_some_iff.mp here).1]
    exact here
  have cases' : ∀ {index : Nat} {found : Process},
      (state.processes ++ [process])[index]? = some found →
      state.processes[index]? = some found ∨ index = state.processes.length ∧ found = process := by
    intro index found after
    rw [List.getElem?_append] at after
    split at after
    · exact .inl after
    · next past =>
        rw [List.getElem?_singleton] at after
        split at after
        · next zero => exact .inr ⟨by omega, (Option.some.inj after).symm⟩
        · cases after
  refine ⟨sound.clocks, sound.servers, ?_, ?_, ?_, sound.issued, sound.distinct, ?_, ?_, ?_,
    sound.revocations⟩
  · intro index found call after asked
    rcases cases' after with before | ⟨-, rfl⟩
    · exact sound.bounds index found call before asked
    · exact bound call asked
  · intro index other found second call after after' same asked asked'
    rcases cases' after with before | ⟨rfl, rfl⟩ <;>
      rcases cases' after' with before' | ⟨rfl, rfl⟩
    · exact sound.apart index other found second call before before' same asked asked'
    · exact absurd asked (apart index found call before same asked')
    · exact absurd asked' (apart other second call before' same.symm asked)
    · rfl
  · intro index found after
    rcases cases' after with before | ⟨-, rfl⟩
    · exact sound.phases index found before
    · exact starts
  · intro issue member index found after same asked
    rcases cases' after with before | ⟨-, rfl⟩
    · exact sound.delivered issue member index found before same asked
    · exact absurd asked (unpaid issue member same)
  · intro machine base login member
    exact loggedIn (sound.stored machine base login member)
  · intro index found base login after member
    rcases cases' after with before | ⟨-, rfl⟩
    · exact loggedIn (sound.loaded index found base login before member)
    · rw [loads] at member
      exact loggedIn (sound.stored found.machine base login member)

/-! ## A server goes on -/

section Served

variable {base : String} {action : PairingAction} {server : Pairings}

theorem now_after (step : PairingStep (state.servers base) action server)
    (untimed : ∀ time, action ≠ .tick time) : server.now = (state.servers base).now := by
  cases step with
  | requestCode | exchange => rfl
  | aside _ clock aside => exact clock untimed
  | proceed present progress => cases progress <;> rfl

theorem key_of_progress {before after : Pairings} {draw : Draw} {call reply : PairingCall} {key : Uuid}
    {email : String} {access : Auth.DeviceAccess} {expiresAt : Option Nat}
    (progress : PairingProgress before draw call after reply)
    (approved : reply = .answered (.approved key email access expiresAt)) : draw.key = key := by
  cases progress with
  | issued =>
      cases approved
      rfl
  | closed final => rcases final with rfl | rfl <;> cases approved
  | @touched _ _ _ tooFast => cases tooFast <;> cases approved
  | retried | refused | stored | pending | approved | lapsed | consumed => cases approved

/-- The key in a response that a step has made is the one it has drawn. -/
theorem drawn_of_issued (step : PairingStep (state.servers base) action server) {issue : Issue}
    (member : issue ∈ Devices.issued base (state.servers base) server action) :
    ∃ draw ∈ Devices.draws action, draw.key = issue.key := by
  obtain ⟨call, draw, polledAt, phase, email, access, expiresAt, rfl, before, reached, -⟩ :=
    mem_issued member
  refine ⟨draw, List.mem_singleton_self draw, ?_⟩
  rcases call_kept step before with ⟨kept, -⟩ | ⟨other, next, current, same, progress, rfl⟩
  · rw [kept] at reached
    cases reached
  · cases same
    change ((state.servers base).calls.set call current)[call]? = _ at reached
    rw [set_self before] at reached
    exact key_of_progress progress (Option.some.inj reached)

theorem Delivered.served {key : Uuid} {phase : Phase}
    (step : PairingStep (state.servers base) action server)
    (before : Delivered (state.servers base) key phase) : Delivered server key phase := by
  cases before with
  | inFlight answered =>
      rcases call_kept step answered with ⟨kept, -⟩ | ⟨draw, next, current, -, progress, -⟩
      · exact .inFlight kept
      · cases progress
  | saved same => exact .saved same
  | lost => exact .lost

theorem Revocation.Sound.served {drawn : List Draw} {revocation : Revocation}
    (step : PairingStep (state.servers base) action server) (fresh : Fresh drawn action)
    (untimed : ∀ time, action ≠ .tick time) (listed : ∃ draw ∈ drawn, draw.key = revocation.key)
    (before : revocation.Sound (state.servers base)) : revocation.Sound server := by
  have rows : ∀ row, server.apiKeys.get? revocation.key = some row →
      (state.servers base).apiKeys.get? revocation.key = some row := by
    intro row found
    rcases key_after step found with kept | ⟨draw, member, same⟩
    · exact kept
    · obtain ⟨other, listed, equal⟩ := listed
      exact absurd (equal.trans same.symm) (fresh draw member other listed).2
  have gone : (state.servers base).apiKeys.get? revocation.key = none →
      server.apiKeys.get? revocation.key = none := by
    intro none
    cases found : server.apiKeys.get? revocation.key with
    | none => rfl
    | some row =>
        rw [rows row found] at none
        cases none
  unfold Revocation.Sound at before ⊢
  cases phase : revocation.phase with
  | authenticate | remove => exact trivial
  | answered answer =>
      rw [phase] at before
      cases answer with
      | revoked => exact gone before
      | invalid => exact gone before
      | disabled | forbidden | missing => exact trivial
      | expired =>
          intro row found
          rw [now_after step untimed]
          exact before row (rows row found)

/-- A step of a server; nobody but the commands polls with their codes. -/
theorem Sound.served (sound : Sound state) (moved : (state.servers base).step action = some server)
    (fresh : Fresh state.drawn action) (untimed : ∀ time, action ≠ .tick time)
    (asks : ∀ code, action = .exchange code → code.call < (state.servers base).calls.length)
    (apart : ∀ code, action = .exchange code → ∀ (index : Nat) process,
      state.processes[index]? = some process → process.base = base →
        process.requested = some code.call → process.phase = .failed)
    (served : state.serve base action = some next) : Sound next := by
  have step := Auth.Pairings.step_spec moved
  have same : next = { state.setServer base server with
      drawn := state.drawn ++ Devices.draws action
      issues := state.issues ++ Devices.issued base (state.servers base) server action } := by
    unfold Devices.serve at served
    rw [moved] at served
    exact (Option.some.inj served).symm
  subst same
  have here : Function.update state.servers base server base = server := Function.update_self ..
  have there : ∀ {other}, other ≠ base →
      Function.update state.servers base server other = state.servers other :=
    fun different => Function.update_of_ne different ..
  have lengths : ∀ other, (state.servers other).calls.length ≤
      (Function.update state.servers base server other).calls.length := by
    intro other
    by_cases same : other = base
    · subst same
      rw [here]
      exact length_after step
    · exact Nat.le_of_eq (congrArg (fun other => other.calls.length) (there same).symm)
  refine ⟨?_, ?_, ?_, sound.apart, ?_, ?_, ?_, ?_, sound.stored, sound.loaded, ?_⟩
  · intro other
    change (Function.update state.servers base server other).now = state.now
    by_cases same : other = base
    · subst same
      rw [here, now_after step untimed]
      exact sound.clocks other
    · rw [there same]
      exact sound.clocks other
  · intro other
    change ServerSound _ (Function.update state.servers base server other)
    by_cases same : other = base
    · subst same
      rw [here]
      exact (sound.servers other).step fresh asks moved
    · rw [there same]
      exact (sound.servers other).mono (List.subset_append_left _ _)
  · intro index process call found asked
    exact Nat.lt_of_lt_of_le (sound.bounds index process call found asked) (lengths process.base)
  · intro index process found
    have before := sound.phases index process found
    change PhaseSound (Function.update state.servers base server process.base) _ _ _ _ _ _
    by_cases same : process.base = base
    · subst same
      rw [here]
      refine before.served (sound.servers process.base) step rfl ?_
      exact fun code polls asked => apart code polls index process found rfl asked
    · rw [there same]
      exact before.elsewhere (Nat.le_refl _) (List.subset_append_left _ _)
  · intro issue member
    rcases List.mem_append.mp member with old | new
    · obtain ⟨⟨draw, listed, equal⟩, bound⟩ := sound.issued issue old
      exact ⟨⟨draw, List.mem_append_left _ listed, equal⟩,
        Nat.lt_of_lt_of_le bound (lengths issue.base)⟩
    · obtain ⟨draw, drew, equal⟩ := drawn_of_issued step new
      obtain ⟨call, -, polledAt, phase, -, -, -, -, before, -, rfl⟩ := mem_issued new
      refine ⟨⟨draw, List.mem_append_right _ drew, equal⟩, ?_⟩
      exact Nat.lt_of_lt_of_le ((sound.servers issue.base).asked call _ polledAt phase before)
        (lengths issue.base)
  · change ((state.issues ++ _).map Issue.key).Nodup
    rw [List.map_append, List.nodup_append]
    refine ⟨sound.distinct, ?_, ?_⟩
    · unfold Devices.issued
      split
      · split <;> simp
      · simp
    · rintro key old other new rfl
      obtain ⟨issue, member, rfl⟩ := List.mem_map.mp old
      obtain ⟨issued, listed, equal⟩ := List.mem_map.mp new
      obtain ⟨draw, drew, drawn⟩ := drawn_of_issued step listed
      obtain ⟨before, known, keyed⟩ := (sound.issued issue member).1
      exact (fresh draw drew before known).2 (keyed.trans (equal.symm.trans drawn.symm))
  · intro issue member index process found based asked
    change Delivered (Function.update state.servers base server issue.base) issue.key process.phase
    rcases List.mem_append.mp member with old | new
    · have before := sound.delivered issue old index process found based asked
      by_cases same : issue.base = base
      · rw [same] at before ⊢
        rw [here]
        exact before.served step
      · rw [there same]
        exact before
    · obtain ⟨call, draw, polledAt, phase, email, access, expiresAt, -, before, reached, rfl⟩ :=
        mem_issued new
      rw [here]
      have knows := sound.phases index process found
      have known : ∀ {own : Option Nat}, OnlyPoll (state.servers issue.base) issue.deviceCode own →
          some call = own := fun only => only call polledAt phase before
      rw [based] at knows
      have mine : ∀ {code : DeviceCode}, process.requested = some code.call →
          code = issue.deviceCode := by
        intro code requested
        rw [asked] at requested
        exact congrArg DeviceCode.mk (Option.some.inj requested).symm
      generalize process.phase = current at knows ⊢
      cases knows with
      | @starting call' _ requested _ _ silent =>
          have code : (⟨call'⟩ : DeviceCode) = issue.deviceCode := mine requested
          cases known (code ▸ silent)
      | waiting requested _ _ silent => cases known (mine requested ▸ silent)
      | polling requested _ _ _ _ only =>
          cases known (mine requested ▸ only)
          exact .inFlight reached
      | loggedIn requested silent => cases known (mine requested ▸ silent)
      | revoking requested | loggedOut requested =>
          rw [asked] at requested
          cases requested
      | failed => exact .lost
  · intro index revocation found
    obtain ⟨⟨draw, listed, equal⟩, before⟩ := sound.revocations index revocation found
    refine ⟨⟨draw, List.mem_append_left _ listed, equal⟩, ?_⟩
    change revocation.Sound (Function.update state.servers base server revocation.base)
    by_cases same : revocation.base = base
    · rw [same] at before ⊢
      rw [here]
      exact before.served step fresh untimed ⟨draw, listed, equal⟩
    · rw [there same]
      exact before

end Served

/-! ## A revocation goes on -/

theorem PhaseSound.revised {server : Pairings} {issues : List Issue} {now : Nat}
    {revocations revised : List Revocation} {base : String} {requested : Option Nat} {phase : Phase}
    (kept : ∀ (call : Nat) revocation, revocations[call]? = some revocation →
      ∃ phase, revised[call]? = some { revocation with phase } ∧
        ∀ answer, revocation.phase = .answered answer → phase = .answered answer)
    (sound : PhaseSound server issues now revocations base requested phase) :
    PhaseSound server issues now revised base requested phase := by
  cases sound with
  | starting mine present unread silent unpolled =>
      exact .starting mine present unread silent unpolled
  | waiting mine wide displayed silent paced => exact .waiting mine wide displayed silent paced
  | polling mine wide displayed present poll only =>
      exact .polling mine wide displayed present poll only
  | loggedIn mine silent issued => exact .loggedIn mine silent issued
  | revoking mine listed =>
      obtain ⟨phase, found, -⟩ := kept _ _ listed
      exact .revoking mine found
  | loggedOut mine listed refused =>
      obtain ⟨phase, found, answered⟩ := kept _ _ listed
      obtain rfl := answered _ rfl
      exact .loggedOut mine found refused
  | failed => exact .failed

theorem Sound.revoke (sound : Sound state) {call : Nat} {revocation : Revocation}
    {phase : RevocationPhase} (present : state.revocations[call]? = some revocation)
    (unanswered : ∀ answer, revocation.phase ≠ .answered answer)
    (goes : Revocation.Sound (state.servers revocation.base) { revocation with phase }) :
    Sound { state with revocations := state.revocations.set call { revocation with phase } } := by
  have below := (List.getElem?_eq_some_iff.mp present).1
  refine ⟨sound.clocks, sound.servers, sound.bounds, sound.apart, ?_, sound.issued, sound.distinct,
    sound.delivered, sound.stored, sound.loaded, ?_⟩
  · intro index process found
    apply (sound.phases index process found).revised
    intro other before listed
    by_cases same : call = other
    · subst same
      rw [present] at listed
      obtain rfl := Option.some.inj listed
      refine ⟨phase, ?_, ?_⟩
      · exact List.getElem?_set_self below
      · exact fun answer answered => absurd answered (unanswered answer)
    · refine ⟨before.phase, ?_, fun _ answered => answered⟩
      rw [List.getElem?_set_ne same]
      exact listed
  · intro other after found
    by_cases same : call = other
    · subst same
      change (state.revocations.set call _)[call]? = some after at found
      rw [List.getElem?_set_self below] at found
      obtain rfl := Option.some.inj found
      exact ⟨(sound.revocations call revocation present).1, goes⟩
    · change (state.revocations.set call _)[other]? = some after at found
      rw [List.getElem?_set_ne same] at found
      exact sound.revocations other after found

/-- A request to revoke a key that was drawn. -/
theorem Sound.request (sound : Sound state) (base : String) {key : Uuid}
    (listed : ∃ draw ∈ state.drawn, draw.key = key) :
    Sound { state with revocations := state.revocations ++ [{ base, key }] } := by
  refine ⟨sound.clocks, sound.servers, sound.bounds, sound.apart, ?_, sound.issued, sound.distinct,
    sound.delivered, sound.stored, sound.loaded, ?_⟩
  · intro index process found
    apply (sound.phases index process found).revised
    intro other before listed
    refine ⟨before.phase, ?_, fun _ answered => answered⟩
    rw [List.getElem?_append_left (List.getElem?_eq_some_iff.mp listed).1]
    exact listed
  · intro other after found
    rw [List.getElem?_append] at found
    split at found
    · exact sound.revocations other after found
    · rw [List.getElem?_singleton] at found
      split at found
      · obtain rfl := Option.some.inj found
        exact ⟨listed, trivial⟩
      · cases found

theorem fromApiKey_sound {server : Pairings} {drawn : List Draw} (known : ServerSound drawn server)
    {key : Uuid} {answer : Answer} (refused : fromApiKey server key = .error answer) (base : String) :
    Revocation.Sound server ⟨base, key, .answered answer⟩ := by
  unfold fromApiKey at refused
  split at refused
  · next none =>
      cases refused
      exact none
  · next row found =>
      obtain ⟨owner, present⟩ := Option.isSome_iff_exists.mp (known.owners key row found)
      rw [present] at refused
      dsimp only at refused
      split at refused
      · next expired =>
          cases refused
          intro other same
          rw [found] at same
          exact (Option.some.inj same) ▸ expired
      · split at refused <;> cases refused
        exact trivial

/-! ## The steps -/

theorem serve_eq {base : String} {action : PairingAction} (served : state.serve base action = some next) :
    ∃ server, (state.servers base).step action = some server ∧
      next = { state.setServer base server with
        drawn := state.drawn ++ Devices.draws action
        issues := state.issues ++ Devices.issued base (state.servers base) server action } := by
  obtain ⟨server, moved, same⟩ := Option.map_eq_some_iff.mp served
  exact ⟨server, moved, same.symm⟩

theorem holds_of_process {base : String} {code : DeviceCode} {index : Nat} {process : Process}
    (found : state.processes[index]? = some process) (based : process.base = base)
    (asked : process.requested = some code.call) : state.holds base code = true := by
  unfold Devices.holds
  rw [List.any_eq_true]
  refine ⟨process, List.mem_of_getElem? found, ?_⟩
  rw [based, asked, decide_eq_true rfl, decide_eq_true rfl]
  rfl

/-- What others ask of a server. -/
theorem Sound.other (sound : Sound state) {base : String} {action : PairingAction}
    (admits : state.admits base action = true) (served : state.serve base action = some next) :
    Sound next := by
  obtain ⟨server, moved, -⟩ := serve_eq served
  have asks : ∀ code, action = .exchange code →
      code.call < (state.servers base).calls.length ∧ state.holds base code = false := by
    rintro code rfl
    simp only [Devices.admits, Bool.and_eq_true, decide_eq_true_eq, Bool.not_eq_true'] at admits
    exact admits
  refine sound.served moved ?_ ?_ (fun code asked => (asks code asked).1) ?_ served
  · intro draw member other listed
    cases action with
    | proceed index drawn =>
        obtain rfl := List.mem_singleton.mp member
        simp only [Devices.admits, Bool.not_eq_true', List.any_eq_false, Bool.or_eq_true,
          decide_eq_true_eq, not_or] at admits
        exact admits other listed
    | _ => cases member
  · rintro time rfl
    cases admits
  · intro code asked index process found based requested
    have held := holds_of_process found based requested
    rw [(asks code asked).2] at held
    cases held

theorem Sound.serveRevocation (sound : Sound state) {call : Nat} {addressAllowed : Bool}
    (moved : state.step (.serveRevocation call addressAllowed) = some next) : Sound next := by
  obtain ⟨revocation, present, moved⟩ := Option.bind_eq_some_iff.mp moved
  obtain ⟨⟨server, phase⟩, stepped, rfl⟩ := Option.map_eq_some_iff.mp moved
  have idle : state.setServer revocation.base (state.servers revocation.base) = state := by
    unfold Devices.setServer
    rw [Function.update_eq_self]
  unfold Revocation.step at stepped
  split at stepped
  · next authenticating =>
      have unanswered : ∀ answer, revocation.phase ≠ .answered answer := by
        intro answer same
        rw [authenticating] at same
        cases same
      split at stepped
      · next answer refused =>
          cases stepped
          dsimp only
          rw [idle]
          exact sound.revoke present unanswered
            (fromApiKey_sound (sound.servers revocation.base) refused revocation.base)
      · split at stepped <;> cases stepped <;> dsimp only <;> rw [idle]
        · exact sound.revoke present unanswered trivial
        · exact sound.revoke present unanswered trivial
  · next user removing =>
      have unanswered : ∀ answer, revocation.phase ≠ .answered answer := by
        intro answer same
        rw [removing] at same
        cases same
      split at stepped
      · obtain ⟨_, deletes, same⟩ := Option.map_eq_some_iff.mp stepped
        cases same
        have served : state.serve revocation.base (.removeApiKey revocation.key) =
            some (state.setServer revocation.base server) := by
          unfold Devices.serve
          rw [deletes, Option.map_some]
          unfold Devices.draws Devices.issued Devices.setServer
          rw [List.append_nil, List.append_nil]
        have after := sound.served deletes (fresh_of_nothing rfl)
          (fun _ => Auth.PairingAction.noConfusion) (fun _ => Auth.PairingAction.noConfusion)
          (fun _ => Auth.PairingAction.noConfusion) served
        have there : (state.setServer revocation.base server).servers revocation.base = server :=
          Function.update_self ..
        refine after.revoke present unanswered ?_
        rw [there]
        cases deletes
        exact Table.get?_delete_self
      · cases stepped
        dsimp only
        rw [idle]
        exact sound.revoke present unanswered trivial
  · cases stepped

theorem Sound.login (sound : Sound state) {machine : Nat} {base clientName : String}
    (moved : state.step (.login machine base clientName) = some next) : Sound next := by
  simp only [Devices.step] at moved
  obtain ⟨after, served, rfl⟩ := Option.map_eq_some_iff.mp moved
  obtain ⟨server, stepped, same⟩ := serve_eq served
  have began := sound.served stepped (fresh_of_nothing rfl) nofun nofun nofun served
  cases stepped
  have here : after.servers base = { state.servers base with
      calls := (state.servers base).calls ++ [.requestCode clientName
        ⟨(state.servers base).calls.length⟩ ((state.servers base).now + Auth.deviceCodeTtl) 0] } := by
    rw [same]
    exact Function.update_self ..
  have processes : after.processes = state.processes := by rw [same]; rfl
  have stores : after.stores = state.stores := by rw [same]; rfl
  have issues : after.issues = state.issues := by
    rw [same]
    exact List.append_nil _
  rw [← processes, ← stores]
  refine began.start _ ?_ ?_ ?_ ?_ rfl
  · intro call asked
    cases asked
    rw [here]
    simp
  · intro index other call found based asked requested
    cases asked
    rw [processes] at found
    have before := sound.bounds index other _ found requested
    rw [based] at before
    exact Nat.lt_irrefl _ before
  · have present : (after.servers base).calls[(state.servers base).calls.length]? =
        some (.requestCode clientName ⟨(state.servers base).calls.length⟩
          ((state.servers base).now + Auth.deviceCodeTtl) 0) := by
      rw [here]
      exact List.getElem?_concat_length
    have known := began.servers base
    refine .starting rfl present (.inl rfl) ?_ ?_
    · intro index polledAt phase found
      rw [here] at found
      change ((state.servers base).calls ++ [_])[index]? = _ at found
      rw [List.getElem?_append] at found
      split at found
      · have below := (sound.servers base).asked index _ polledAt phase found
        exact absurd below (Nat.lt_irrefl _)
      · rw [List.getElem?_singleton] at found
        split at found <;> cases found
    · intro time id row found mine
      exact absurd mine ((known.sound.drawing _ _ _ present rfl).2.1 id row found)
  · intro issue member based asked
    rw [issues] at member
    cases based
    have bound := (sound.issued issue member).2
    rw [← Option.some.inj asked] at bound
    exact Nat.lt_irrefl _ bound

/-- Nothing was issued to a command that still waits for it. -/
theorem Sound.unpaid (sound : Sound state) {index : Nat} {process : Process}
    (present : state.processes[index]? = some process)
    (waits : ∀ key, ¬ Delivered (state.servers process.base) key process.phase) {P : Prop}
    {issue : Issue} (member : issue ∈ state.issues) (based : process.base = issue.base)
    (asked : process.requested = some issue.deviceCode.call) : P := by
  have delivered := sound.delivered issue member index process present based asked
  rw [← based] at delivered
  exact absurd delivered (waits issue.key)

theorem Sound.fail (sound : Sound state) {index : Nat} {process : Process}
    (present : state.processes[index]? = some process)
    (unsettled : ∀ login, process.phase ≠ .loggedIn login) :
    Sound (state.setPhase index .failed) :=
  sound.setPhase present unsettled .failed fun _ _ _ _ => .lost

theorem Sound.receiveCode (sound : Sound state) {index : Nat}
    (moved : state.step (.receiveCode index) = some next) : Sound next := by
  obtain ⟨process, present, moved⟩ := Option.bind_eq_some_iff.mp moved
  split at moved
  case h_2 => cases moved
  case h_1 call phase =>
    have unsettled : ∀ login, process.phase ≠ .loggedIn login := by
      rw [phase]
      nofun
    have knows := sound.phases index process present
    rw [phase] at knows
    cases knows with
    | starting mine _ _ silent unpolled =>
      split at moved
      · next code text requested =>
          obtain ⟨rfl, -⟩ := (sound.servers process.base).shown call code text requested
          split at moved <;> cases moved
          · apply sound.setPhase present unsettled
            · exact .waiting mine (Nat.le_refl _) requested silent (unpolled _)
            · intro issue member based asked
              apply sound.unpaid present _ member based asked
              rw [phase]
              nofun
          · exact sound.fail present unsettled
      · cases moved
        exact sound.fail present unsettled
      · cases moved

theorem Sound.throttled (sound : Sound state) {index : Nat}
    (moved : state.step (.throttled index) = some next) : Sound next := by
  obtain ⟨process, present, moved⟩ := Option.bind_eq_some_iff.mp moved
  split at moved
  case h_2 => cases moved
  case h_1 code shown interval deadline wakes phase =>
    have unsettled : ∀ login, process.phase ≠ .loggedIn login := by
      rw [phase]
      nofun
    split at moved
    case isTrue => cases moved
    case isFalse awake =>
      split at moved <;> cases moved
      · exact sound.fail present unsettled
      · have knows := sound.phases index process present
        rw [phase] at knows
        cases knows with
        | waiting mine wide displayed silent paced =>
            apply sound.setPhase present unsettled
            · exact .waiting mine (by omega) displayed silent (paced.mono (by omega))
            · intro issue member based asked
              apply sound.unpaid present _ member based asked
              rw [phase]
              nofun

theorem setPhase_setPhase {index : Nat} (first second : Phase) :
    (state.setPhase index first).setPhase index second = state.setPhase index second := by
  unfold Devices.setPhase
  congr 1
  apply List.ext_getElem?
  intro other
  by_cases same : index = other
  · subst same
    rw [List.getElem?_modify_eq, List.getElem?_modify_eq, List.getElem?_modify_eq]
    cases state.processes[index]? <;> rfl
  · rw [List.getElem?_modify_ne _ _ same, List.getElem?_modify_ne _ _ same,
      List.getElem?_modify_ne _ _ same]

theorem setPhase_self {index : Nat} {process : Process}
    (present : state.processes[index]? = some process) (phase : Phase) :
    (state.setPhase index phase).processes[index]? = some { process with phase } := by
  change (state.processes.modify index _)[index]? = _
  rw [List.getElem?_modify_eq, present]
  rfl

/-- A poll is sent. While it is, the command can be taken for failed: nobody else polls. -/
theorem Sound.poll (sound : Sound state) {index : Nat}
    (moved : state.step (.poll index) = some next) : Sound next := by
  obtain ⟨process, present, moved⟩ := Option.bind_eq_some_iff.mp moved
  split at moved
  case h_2 => cases moved
  case h_1 code shown interval deadline wakes phase =>
    have unsettled : ∀ login, process.phase ≠ .loggedIn login := by
      rw [phase]
      nofun
    split at moved
    case isTrue => cases moved
    case isFalse awake =>
      split at moved
      case isTrue =>
        cases moved
        exact sound.fail present unsettled
      case isFalse =>
        obtain ⟨after, served, rfl⟩ := Option.map_eq_some_iff.mp moved
        obtain ⟨server, stepped, same⟩ := serve_eq served
        have knows := sound.phases index process present
        rw [phase] at knows
        cases knows with
        | waiting mine wide displayed silent paced =>
          have failing := setPhase_self present .failed
          have failed := sound.fail present unsettled
          have servedAgain : (state.setPhase index .failed).serve process.base (.exchange code) =
              some (after.setPhase index .failed) := by
            unfold Devices.serve
            change ((state.servers process.base).step _).map _ = _
            rw [stepped, same]
            rfl
          have polled : Sound (after.setPhase index .failed) := by
            apply failed.served stepped (fresh_of_nothing rfl) nofun _ _ servedAgain
            · intro other asked
              cases asked
              exact sound.bounds index process code.call present mine
            · intro other asked second candidate found based requested
              cases asked
              obtain rfl := failed.apart index second _ candidate code.call failing found
                based.symm mine requested
              rw [failing] at found
              exact (Option.some.inj found) ▸ rfl
          have waits : (after.setPhase index .failed).processes[index]? =
              some { process with phase := .failed } := by
            rw [same]
            exact failing
          have clock := sound.clocks process.base
          cases stepped
          subst same
          rw [← setPhase_setPhase .failed]
          have here : Function.update state.servers process.base
              { state.servers process.base with
                calls := (state.servers process.base).calls ++
                  [.exchange code (state.servers process.base).now .select] } process.base = _ :=
            Function.update_self ..
          apply polled.setPhase waits nofun
          · change PhaseSound (Function.update state.servers process.base _ process.base) _ state.now
              _ _ _ _
            rw [here]
            refine .polling mine wide ?_ List.getElem?_concat_length
              (.selecting (Nat.le_of_eq clock) (paced.mono ?_)) ?_
            · change ((state.servers process.base).calls ++ [_])[code.call]? = _
              rw [List.getElem?_append_left (List.getElem?_eq_some_iff.mp displayed).1]
              exact displayed
            · rw [clock]
              omega
            · intro other polledAt stage found
              change ((state.servers process.base).calls ++ [_])[other]? = _ at found
              rw [List.getElem?_append] at found
              split at found
              · exact nomatch silent other polledAt stage found
              · rw [List.getElem?_singleton] at found
                split at found
                · next zero => exact congrArg some (by omega)
                · cases found
          · intro issue member based asked
            change issue ∈ state.issues ++ [] at member
            rw [List.append_nil] at member
            apply sound.unpaid present _ member based asked
            rw [phase]
            nofun

theorem mem_put {store : CredentialStore} {base other : String} {login entry : StoredLogin}
    (member : (other, entry) ∈ (store.put base login).servers) :
    (other = base ∧ entry = login) ∨ (other, entry) ∈ store.servers := by
  rcases List.mem_cons.mp member with same | kept
  · cases same
    exact .inl ⟨rfl, rfl⟩
  · exact .inr (List.mem_filter.mp kept).1

/-- What a login does with a response. -/
theorem Sound.receive (sound : Sound state) {index : Nat} {saves : Bool}
    (moved : state.step (.receive index saves) = some next) : Sound next := by
  obtain ⟨process, present, moved⟩ := Option.bind_eq_some_iff.mp moved
  split at moved
  case h_2 => cases moved
  case h_1 code shown interval deadline call phase =>
    have unsettled : ∀ login, process.phase ≠ .loggedIn login := by
      rw [phase]
      nofun
    split at moved
    case h_2 => cases moved
    case h_1 response answered =>
      cases moved
      have knows := sound.phases index process present
      rw [phase] at knows ⊢
      cases knows with
      | polling mine wide displayed found poll only =>
        obtain rfl := Option.some.inj (answered.symm.trans found)
        have silent : OnlyPoll (state.servers process.base) code none := by
          intro other polledAt stage polls
          cases only other polledAt stage polls
          rw [answered] at polls
          cases polls
        have paidBy : ∀ {key : Uuid}, Delivered (state.servers process.base) key process.phase →
            ∃ email access expiresAt, response = .approved key email access expiresAt := by
          intro key delivered
          rw [phase] at delivered
          cases delivered with
          | inFlight paid =>
              rw [answered] at paid
              exact ⟨_, _, _, PairingCall.answered.inj (Option.some.inj paid)⟩
        cases poll with
        | answered polled unhurried paid =>
          cases response with
          | slowDown => exact absurd rfl unhurried
          | denied | expired => exact sound.fail present unsettled
          | pending =>
              apply sound.setPhase present unsettled
              · exact .waiting mine wide displayed silent (polled.mono (by omega))
              · intro issue member based asked
                apply sound.unpaid present _ member based asked
                intro key delivered
                obtain ⟨email, access, expiresAt, none⟩ := paidBy delivered
                cases none
          | approved apiKey email access expiresAt =>
              unfold Devices.receive
              dsimp only
              split
              · have settled : Sound (state.setPhase index
                    (.loggedIn { apiKey, email, access, expiresAt })) := by
                  apply sound.setPhase present unsettled
                  · exact .loggedIn mine silent (paid apiKey email access expiresAt rfl)
                  · intro issue member based asked
                    have delivered := sound.delivered issue member index process present based asked
                    rw [← based] at delivered
                    obtain ⟨_, _, _, same⟩ := paidBy delivered
                    cases same
                    exact .saved rfl
                have here := setPhase_self present
                  (.loggedIn { apiKey, email, access, expiresAt })
                apply settled.save process.machine
                intro base login member
                rcases mem_put member with ⟨rfl, rfl⟩ | kept
                · exact ⟨index, _, here, rfl, rfl, rfl⟩
                · have entries := settled.loaded index _ base login here
                  exact entries kept
              · exact sound.fail present unsettled

theorem mem_of_lookup {store : CredentialStore} {base : String} {login : StoredLogin}
    (found : store.servers.lookup base = some login) : (base, login) ∈ store.servers := by
  obtain ⟨before, after, same, -⟩ := List.lookup_eq_some_iff.mp found
  rw [same]
  exact List.mem_append_right before List.mem_cons_self

theorem Sound.logout (sound : Sound state) {machine : Nat} {server : Option String}
    (moved : state.step (.logout machine server) = some next) : Sound next := by
  simp only [Devices.step] at moved
  split at moved
  · cases moved
  · obtain ⟨login, listed, rfl⟩ := Option.map_eq_some_iff.mp moved
    generalize server.getD (state.stores machine).current = base at listed ⊢
    obtain ⟨index, process, present, -, rfl, settled⟩ :=
      sound.stored machine base login (mem_of_lookup listed)
    have knows := sound.phases index process present
    rw [settled] at knows
    cases knows with
    | loggedIn mine silent issued =>
      have drawn := (sound.issued _ issued.1).1
      apply (sound.request process.base drawn).start
      · intro call asked
        cases asked
      · intro other found call _ _ asked
        cases asked
      · exact .revoking rfl List.getElem?_concat_length
      · intro issue _ _ asked
        cases asked
      · rfl

theorem Sound.receiveRevoked (sound : Sound state) {index : Nat} {saves : Bool}
    (moved : state.step (.receiveRevoked index saves) = some next) : Sound next := by
  obtain ⟨process, present, moved⟩ := Option.bind_eq_some_iff.mp moved
  split at moved
  case h_2 => cases moved
  case h_1 login call phase =>
    have unsettled : ∀ login, process.phase ≠ .loggedIn login := by
      rw [phase]
      nofun
    have knows := sound.phases index process present
    rw [phase] at knows
    cases knows with
    | revoking mine listed =>
      split at moved
      case h_2 => cases moved
      case h_1 answer answered =>
        rw [listed] at answered
        obtain rfl := Option.some.inj answered
        split at moved
        case isFalse =>
          cases moved
          exact sound.fail present unsettled
        case isTrue refused =>
          split at moved <;> cases moved
          · have removed : Sound
                (state.save process.machine (process.store.remove process.base)) := by
              apply sound.save process.machine
              intro base entry member
              exact sound.loaded index process base entry present (List.mem_filter.mp member).1
            apply removed.setPhase present unsettled
            · refine .loggedOut mine listed ?_
              simpa using refused
            · intro issue _ _ asked
              rw [mine] at asked
              cases asked
          · exact sound.fail present unsettled

theorem Sound.tick (sound : Sound state) {time : Nat}
    (moved : state.step (.tick time) = some next) : Sound next := by
  simp only [Devices.step] at moved
  split at moved
  case isFalse => cases moved
  case isTrue past =>
    cases moved
    have ticks : ∀ base, (state.servers base).step (.tick time) =
        some { state.servers base with now := time } := by
      intro base
      change (if (state.servers base).now ≤ time then _ else _) = _
      rw [if_pos (by rw [sound.clocks base]; exact past)]
    have step := fun base => Auth.Pairings.step_spec (ticks base)
    refine ⟨fun _ => rfl, ?_, sound.bounds, sound.apart, ?_, sound.issued, sound.distinct, ?_,
      sound.stored, sound.loaded, ?_⟩
    · intro base
      have known := (sound.servers base).step (fresh_of_nothing rfl)
        (by intro code asked; cases asked) (ticks base)
      change ServerSound (state.drawn ++ []) _ at known
      rw [List.append_nil] at known
      exact known
    · intro index process found
      have served := (sound.phases index process found).served (sound.servers process.base)
        (step process.base) (List.append_nil state.issues).symm nofun
      exact served.elsewhere past fun _ member => member
    · intro issue member index process found based asked
      exact (sound.delivered issue member index process found based asked).served (step issue.base)
    · intro index revocation found
      obtain ⟨listed, gone⟩ := sound.revocations index revocation found
      refine ⟨listed, ?_⟩
      unfold Revocation.Sound at gone ⊢
      split
      · next revoked =>
          rw [revoked] at gone
          exact gone
      · next invalid =>
          rw [invalid] at gone
          exact gone
      · next expired =>
          rw [expired] at gone
          intro row present
          have before := gone row present
          cases expires : row.expiresAt with
          | none =>
              rw [expires] at before
              cases before
          | some expiresAt =>
              rw [expires, Option.any_some, decide_eq_true_eq] at before
              have clock := sound.clocks revocation.base
              apply decide_eq_true
              change expiresAt < time
              omega
      · exact trivial

theorem Sound.step (sound : Sound state) {action : DeviceAction}
    (moved : state.step action = some next) : Sound next := by
  cases action with
  | serve base action =>
      simp only [Devices.step] at moved
      split at moved
      · next admits => exact sound.other admits moved
      · cases moved
  | serveRevocation call addressAllowed => exact sound.serveRevocation moved
  | login machine base clientName => exact sound.login moved
  | receiveCode process => exact sound.receiveCode moved
  | poll process => exact sound.poll moved
  | throttled process => exact sound.throttled moved
  | receive process saves => exact sound.receive moved
  | logout machine server => exact sound.logout moved
  | receiveRevoked process saves => exact sound.receiveRevoked moved
  | breakOff index =>
      obtain ⟨process, present, moved⟩ := Option.bind_eq_some_iff.mp moved
      split at moved
      · next running =>
          cases moved
          refine sound.fail present fun login settled => ?_
          rw [settled] at running
          cases running
      · cases moved
  | tick time => exact sound.tick moved

theorem sound_initial : Sound {} := by
  have noCall : ∀ {index : Nat} {call : PairingCall}, ([] : List PairingCall)[index]? ≠ some call :=
    nofun
  have noRequest : ∀ {id : Uuid} {row : DeviceAuthorization},
      ({} : Pairings).requests.get? id = some row → False := by
    intro id row found
    rw [Table.get?_empty] at found
    cases found
  have noKey : ∀ {id : Uuid} {key : Auth.IssuedKey},
      ({} : Pairings).apiKeys.get? id = some key → False := by
    intro id key found
    rw [Table.get?_empty] at found
    cases found
  have server : ServerSound [] {} := by
    refine ⟨Auth.Pairings.sound_initial, ?_, ?_, ?_, ?_, ?_, ?_⟩
    · exact fun id row found => (noRequest found).elim
    · exact fun id key found => (noKey found).elim
    · exact fun id key found => (noKey found).elim
    · exact fun index code polledAt phase found => absurd found noCall
    · exact fun index code polledAt phase request found => absurd found noCall
    · exact fun index code text found => absurd found noCall
  refine ⟨fun _ => rfl, fun _ => server, ?_, ?_, ?_, nofun, List.nodup_nil, nofun, nofun, ?_, ?_⟩
  · intro index process call found
    cases found
  · intro index other process second call found
    cases found
  · intro index process found
    cases found
  · intro index process base login found
    cases found
  · intro index revocation found
    cases found

theorem sound_of_reachable {allowed : Devices → DeviceAction → Prop}
    (reached : devices.Reachable allowed state) : Sound state := by
  refine System.Invariant.holds ⟨?_, ?_⟩ reached
  · rintro state rfl
    exact sound_initial
  · intro state action next sound _ moved
    exact sound.step moved

/-! ## Results -/

/-- **A machine holds the keys of its own pairings.** However commands, servers and others
interleave and whatever gets lost: a key that a machine has stored for a server was issued by this
server to a pairing that a login on this machine has requested, by a poll before the expiry and
after the approval of somebody signed in, with the access and the lifetime that are stored with it.
No key is stored on two machines or for two servers, and a key that was issued to a login is in the
response it waits for, was stored by it, or the login has failed. -/
theorem stored_keys_paired (reached : devices.Reachable (fun _ _ => True) state) :
    (∀ machine base login, (base, login) ∈ (state.stores machine).servers →
      ∃ (index : Nat) (process : Process) (code : DeviceCode),
        state.processes[index]? = some process ∧ process.machine = machine ∧ process.base = base ∧
        process.requested = some code.call ∧ ⟨base, code, login.apiKey⟩ ∈ state.issues ∧
        ∃ key createdAt polledAt expiresAt,
          .issued code key createdAt polledAt expiresAt ∈ (state.servers base).journal ∧
          Auth.Pairings.Justified (state.servers base).journal code key createdAt polledAt
            expiresAt ∧
          key.scopes = login.access.scopes ∧ key.expiresAt = login.expiresAt) ∧
    (∀ machine other base second login entry, (base, login) ∈ (state.stores machine).servers →
      (second, entry) ∈ (state.stores other).servers → login.apiKey = entry.apiKey →
        machine = other ∧ base = second) ∧
    ∀ issue ∈ state.issues, ∀ (index : Nat) process, state.processes[index]? = some process →
      process.base = issue.base → process.requested = some issue.deviceCode.call →
        Delivered (state.servers issue.base) issue.key process.phase := by
  have sound := sound_of_reachable reached
  have origin : ∀ machine base login, (base, login) ∈ (state.stores machine).servers →
      ∃ (index : Nat) (process : Process) (code : DeviceCode),
        state.processes[index]? = some process ∧ process.machine = machine ∧ process.base = base ∧
        process.requested = some code.call ∧
        IssuedTo (state.servers base) state.issues base code login := by
    intro machine base login member
    obtain ⟨index, process, present, here, rfl, settled⟩ := sound.stored machine base login member
    have knows := sound.phases index process present
    rw [settled] at knows
    cases knows with
    | @loggedIn code _ mine _ issued =>
        exact ⟨index, process, code, present, here, rfl, mine, issued⟩
  refine ⟨?_, ?_, sound.delivered⟩
  · intro machine base login member
    obtain ⟨index, process, code, present, here, there, mine, listed, key, createdAt, polledAt,
      expiresAt, event, told⟩ := origin machine base login member
    refine ⟨index, process, code, present, here, there, mine, listed, key, createdAt, polledAt,
      expiresAt, event, ?_, told⟩
    exact (sound.servers base).sound.issued code key createdAt polledAt expiresAt event
  · intro machine other base second login entry member member' same
    obtain ⟨index, process, code, present, rfl, rfl, mine, listed, -⟩ :=
      origin machine base login member
    obtain ⟨index', process', code', present', rfl, rfl, mine', listed', -⟩ :=
      origin other second entry member'
    have equal := List.inj_on_of_nodup_map sound.distinct listed listed' same
    obtain ⟨based, rfl, -⟩ := Issue.mk.inj equal
    obtain rfl := sound.apart index index' process process' code.call present present' based mine
      mine'
    rw [present] at present'
    obtain rfl := Option.some.inj present'
    exact ⟨rfl, based⟩

/-- **A logout revokes the key.** Once a logout has ended well, the server does not accept the key
it has removed from the machine, from then on, unless the account was disabled when the server
was asked. -/
theorem logout_revokes (reached : devices.Reachable (fun _ _ => True) state) {index call : Nat}
    {process : Process} {login : StoredLogin} (present : state.processes[index]? = some process)
    (out : process.phase = .loggedOut login call) :
    (∃ refusal, fromApiKey (state.servers process.base) login.apiKey = .error refusal) ∨
      state.revocations[call]? = some ⟨process.base, login.apiKey, .answered .disabled⟩ := by
  have sound := sound_of_reachable reached
  have knows := sound.phases index process present
  rw [out] at knows
  cases knows with
  | @loggedOut _ _ answer mine listed refused =>
      have gone := (sound.revocations call _ listed).2
      have absent : (state.servers process.base).apiKeys.get? login.apiKey = none →
          ∃ refusal, fromApiKey (state.servers process.base) login.apiKey = .error refusal := by
        intro none
        unfold fromApiKey
        rw [none]
        exact ⟨.invalid, rfl⟩
      cases answer with
      | revoked | invalid => exact .inl (absent gone)
      | disabled => exact .inr listed
      | forbidden | missing =>
          rcases refused with same | same <;> cases same
      | expired =>
          refine .inl ?_
          cases found : (state.servers process.base).apiKeys.get? login.apiKey with
          | none => exact absent found
          | some row =>
              unfold fromApiKey
              rw [found]
              dsimp only
              split
              · exact ⟨.invalid, rfl⟩
              · rw [if_pos (gone row found)]
                exact ⟨.expired, rfl⟩

theorem isDisplayedCode_format {code : String} (generated : isUserCode code = true) :
    isDisplayedCode (formatUserCode code) = true := by
  simp only [isUserCode, Bool.and_eq_true, decide_eq_true_eq, List.all_eq_true,
    List.contains_iff_mem] at generated
  obtain ⟨length, letters⟩ := generated
  obtain ⟨a, b, c, d, e, f, g, h, spelled⟩ : ∃ a b c d e f g h, code.toList =
      [a, b, c, d, e, f, g, h] := by
    generalize code.toList = letters at length
    rcases letters with _ | ⟨a, _ | ⟨b, _ | ⟨c, _ | ⟨d, _ | ⟨e, _ | ⟨f, _ | ⟨g, _ | ⟨h, _ | _⟩⟩⟩⟩⟩⟩⟩⟩
    case cons.cons.cons.cons.cons.cons.cons.cons.nil => exact ⟨a, b, c, d, e, f, g, h, rfl⟩
    all_goals cases length
  rw [spelled] at letters
  unfold isDisplayedCode formatUserCode
  rw [String.toList_ofList, spelled]
  simp only [List.mem_cons, List.not_mem_nil, or_false, forall_eq_or_imp, forall_eq] at letters
  simp [letters]

/-- A login on a laptop that is approved before it polls. -/
def laptopLogin : List DeviceAction :=
  [.serve "https://amber" (.createUser 1 { email := "user@example.com" }),
    .login 0 "https://amber" "laptop",
    .serve "https://amber" (.proceed 0 { request := 5, key := 50, userCode := "BCDFGHJK" }),
    .receiveCode 0,
    .serve "https://amber" (.approve ⟨{ id := 1, isAdmin := false }, .session⟩ true
      { userCode := "bcdf-ghjk", access := .read, expiresInDays := some 30 }),
    .tick 5000, .poll 0,
    .serve "https://amber" (.proceed 1 { request := 6, key := 51 }),
    .serve "https://amber" (.proceed 1 { request := 7, key := 52 }),
    .receive 0 true]

def laptopLogout : List DeviceAction :=
  laptopLogin ++ [.logout 0 none, .serveRevocation 0 true, .serveRevocation 0 true,
    .receiveRevoked 1 true]

theorem stored_keys_paired_laptop : ∃ state : Devices,
    devices.Reachable (fun _ _ => True) state ∧
      (state.stores 0).servers.map Prod.fst = ["https://amber"] ∧
      ∀ machine other base second login entry, (base, login) ∈ (state.stores machine).servers →
        (second, entry) ∈ (state.stores other).servers → login.apiKey = entry.apiKey →
          machine = other ∧ base = second := by
  have ends : (devices.runWithin (fun _ _ => True) {} laptopLogin).any
      (fun state => (state.stores 0).servers.map Prod.fst = ["https://amber"]) = true := by
    decide +kernel
  have start : devices.initial {} := rfl
  obtain ⟨state, reached, test⟩ := System.exists_reachable start ends
  exact ⟨state, reached, of_decide_eq_true test, (stored_keys_paired reached).2.1⟩

/-- Whether the second command has ended well as a logout. -/
def loggedOutSecond (state : Devices) : Bool :=
  match (state.processes[1]?).map Process.phase with
  | some (.loggedOut ..) => true
  | _ => false

theorem logout_revokes_laptop : ∃ (state : Devices) (process : Process) (login : StoredLogin)
    (call : Nat), process.phase = .loggedOut login call ∧
      ((∃ refusal, fromApiKey (state.servers process.base) login.apiKey = .error refusal) ∨
        state.revocations[call]? = some ⟨process.base, login.apiKey, .answered .disabled⟩) := by
  have ends : (devices.runWithin (fun _ _ => True) {} laptopLogout).any loggedOutSecond = true := by
    decide +kernel
  have start : devices.initial {} := rfl
  obtain ⟨state, reached, test⟩ := System.exists_reachable start ends
  unfold loggedOutSecond at test
  split at test
  · next login call out =>
      obtain ⟨process, present, phase⟩ := Option.map_eq_some_iff.mp out
      exact ⟨state, process, login, call, phase, logout_revokes reached present phase⟩
  · cases test

end AmberBackup.Cli.Login
