import AmberBackup.Auth.Inversions

/-! # Sessions and the epoch they are issued in

A session carries the epoch that is read when it is issued. What holds of the account then,
and cannot change within an epoch, holds of it as long as the session is accepted
(`Sessions.accepted`).
-/

namespace AmberBackup.Auth

open Relational Transition

/-- Of an account still in the epoch, the fact holds. -/
def Current (accounts : Accounts) (user : Uuid) (epoch : Nat) (fact : User → Prop) : Prop :=
  ∀ row, accounts.users.get? user = some row →
    epoch ≤ row.sessionEpoch ∧ (row.sessionEpoch = epoch → fact row)

/-- The session a call has read the epoch of. -/
def Call.signing : Call → Option (Uuid × Grounds × Nat)
  | .issue user grounds (.sign generation) => some (user, grounds, generation)
  | .issue user grounds (.findUser session) => some (user, grounds, session.epoch)
  | .issue user grounds (.assertAllowed session _) => some (user, grounds, session.epoch)
  | _ => none

/-- The session of a call is for the call's account. -/
def Call.Addressed : Call → Prop
  | .issue user _ (.findUser session) => session.user = user
  | .issue user _ (.assertAllowed session _) => session.user = user
  | _ => True

structure Sessions (fact : Grounds → User → Prop) (server : Server) : Prop where
  signing : ∀ call ∈ server.calls, ∀ user grounds epoch,
    call.signing = some (user, grounds, epoch) →
    Current server.accounts user epoch (fact grounds)
  issued : ∀ session grounds, .sessionIssued session grounds ∈ server.journal →
    Current server.accounts session.user session.epoch (fact grounds)

/-- A fact about an account that cannot change within an epoch. -/
def Lasting (fact : User → Prop) : Prop :=
  ∀ before after : User, after.sessionEpoch = before.sessionEpoch →
    after.passwordHash = before.passwordHash → after.authSource = before.authSource →
    fact before → fact after

section Step

variable {settings : Settings} {server : Server} {index : Nat} {current : Call}
  {outcome : Outcome} {effect : Effect} {fact : Grounds → User → Prop}

theorem Current.after {accounts : Accounts} {user : Uuid} {epoch : Nat} {fact : User → Prop}
    (holds : Current accounts user epoch fact) (lasting : Lasting fact) (statement : Statement) :
    Current (statement.execute accounts) user epoch fact := by
  intro row present
  obtain ⟨old, found, grown, kept⟩ := Statement.epoch_le present
  obtain ⟨least, then'⟩ := holds old found
  refine ⟨Nat.le_trans least grown, fun same => ?_⟩
  have still : row.sessionEpoch = old.sessionEpoch := by omega
  exact lasting old row still (kept still).1 (kept still).2 (then' (still.symm.trans same))

theorem Call.next_addressed (steps : current.step settings server outcome = some effect)
    (addressed : current.Addressed) : effect.next.Addressed := by
  have source := Call.next_source steps
  cases next : effect.next with
  | issue user grounds phase =>
      rw [next] at source
      cases phase with
      | findUser session => exact source.1
      | assertAllowed session isAdmin =>
          have same : current = .issue user grounds (.findUser session) := source
          subst same
          exact addressed
      | readUser | epoch | sign => trivial
  | _ => trivial

theorem Entry.call_addressed (entry : Entry) : entry.call.Addressed := by
  cases entry <;> trivial

theorem addressed_of_reachable {known : Accounts → Prop} {allowed : Server → Action → Prop}
    (reached : (authServer settings known).Reachable allowed server) :
    ∀ call ∈ server.calls, call.Addressed :=
  calls_of_reachable Entry.call_addressed (fun _ _ _ _ steps => Call.next_addressed steps) reached

/-- The session of a step is one of before, or its epoch is read in the step. -/
theorem Call.signing_from (steps : current.step settings server outcome = some effect)
    {user : Uuid} {grounds : Grounds} {epoch : Nat}
    (signs : effect.next.signing = some (user, grounds, epoch)) :
    current.signing = some (user, grounds, epoch) ∨
      (current = .issue user grounds .epoch ∧ epoch = server.accounts.sessionEpoch user) := by
  have source := Call.next_source steps
  cases next : effect.next with
  | issue other grounds' phase =>
      rw [next] at source signs
      cases phase with
      | sign generation =>
          cases signs
          exact Or.inr source
      | findUser session =>
          cases signs
          obtain ⟨-, same⟩ := source
          exact Or.inl (same ▸ rfl)
      | assertAllowed session isAdmin =>
          cases signs
          have same : current = .issue user grounds (.findUser session) := source
          exact Or.inl (same ▸ rfl)
      | readUser | epoch => cases signs
  | _ =>
      rw [next] at signs
      cases signs

theorem Sessions.after (sessions : Sessions fact server) (lasting : ∀ grounds, Lasting (fact grounds))
    (addressed : ∀ call ∈ server.calls, call.Addressed)
    (present : server.calls[index]? = some current)
    (steps : current.step settings server outcome = some effect)
    (issues : ∀ user grounds row, current = .issue user grounds .epoch →
      server.accounts.users.get? user = some row → fact grounds row) :
    Sessions fact (server.after index effect) := by
  have mine := List.mem_of_getElem? present
  constructor
  · intro call member user grounds epoch signs
    rcases Pool.mem_advance member with old | same | started
    · exact (sessions.signing call old user grounds epoch signs).after (lasting grounds) _
    · subst same
      rcases Call.signing_from steps signs with before | ⟨reads, same⟩
      · exact (sessions.signing current mine user grounds epoch before).after (lasting grounds) _
      · have here : Current server.accounts user epoch (fact grounds) := by
          intro row found
          have same' : epoch = row.sessionEpoch := by
            rw [same]
            simp [Accounts.sessionEpoch, found]
          exact ⟨Nat.le_of_eq same', fun _ => issues user grounds row reads found⟩
        exact here.after (lasting grounds) _
    · cases started
  · intro session grounds listed
    rcases List.mem_append.mp listed with old | new
    · exact (sessions.issued session grounds old).after (lasting grounds) _
    · have signed : current.signing = some (session.user, grounds, session.epoch) := by
        have here := addressed current mine
        obtain ⟨user, same | ⟨isAdmin, same⟩⟩ := Call.event_source steps new
        · subst same
          have equal : session.user = user := here
          subst equal
          rfl
        · subst same
          have equal : session.user = user := here
          subst equal
          rfl
      exact (sessions.signing current mine _ _ _ signed).after (lasting grounds) _

end Step

/-- A fact that lasts, and holds of each account whose epoch is read for a session. -/
theorem sessions_of_reachable {settings : Settings} {known : Accounts → Prop}
    {allowed : Server → Action → Prop} {fact : Grounds → User → Prop}
    (lasting : ∀ grounds, Lasting (fact grounds))
    (issues : ∀ server index outcome user grounds row,
      allowed server (.resume index outcome) →
      server.calls[index]? = some (.issue user grounds .epoch) →
      server.accounts.users.get? user = some row → fact grounds row)
    {server : Server} (reached : (authServer settings known).Reachable allowed server) :
    Sessions fact server := by
  refine System.Invariant.onTopOf (fun server => ∀ call ∈ server.calls, call.Addressed) _
    (fun _ here => addressed_of_reachable here) ?_ ?_ reached
  · intro state started
    constructor
    · intro call member
      rw [Server.Started.calls started] at member
      cases member
    · intro session grounds listed
      rw [Server.Started.journal started] at listed
      cases listed
  · intro state action next addressed _ sessions permitted stepped
    rcases Server.step_cases stepped with ⟨_, -, same⟩ | ⟨_, _, -, same⟩ | ⟨entry, -, same⟩ |
      ⟨index, outcome, current, effect, resumes, present, steps, same⟩
    · subst same
      exact ⟨sessions.signing, sessions.issued⟩
    · subst same
      exact ⟨sessions.signing, sessions.issued⟩
    · subst same
      refine ⟨fun call member user grounds epoch signs => ?_, sessions.issued⟩
      rcases List.mem_append.mp member with old | new
      · exact sessions.signing call old user grounds epoch signs
      · rw [List.mem_singleton.mp new] at signs
        cases entry <;> cases signs
    · subst resumes
      subst same
      refine sessions.after lasting addressed present steps ?_
      rintro user grounds row rfl found
      exact issues state index outcome user grounds row permitted present found

theorem accepts_iff {accounts : Accounts} {now : Nat} {session : Session} :
    accounts.accepts now session = true ↔ now / 1000 < session.expiresAt ∧
      ∃ row, accounts.users.get? session.user = some row ∧ row.disabled = false ∧
        row.sessionEpoch = session.epoch := by
  unfold Accounts.accepts
  rw [Bool.and_eq_true, decide_eq_true_eq, Option.any_eq_true]
  simp only [Bool.and_eq_true, Bool.not_eq_true', decide_eq_true_eq]
  refine and_congr_right fun _ => exists_congr fun row => and_congr_right fun _ => ?_
  exact and_congr_right fun _ => eq_comm

/-- An accepted session is one of an account of which the fact holds. -/
theorem Sessions.accepted {fact : Grounds → User → Prop} {server : Server}
    (sessions : Sessions fact server) {session : Session} {grounds : Grounds}
    (listed : .sessionIssued session grounds ∈ server.journal)
    (accepted : server.accounts.accepts server.now session = true) :
    ∃ row, server.accounts.users.get? session.user = some row ∧
      row.sessionEpoch = session.epoch ∧ fact grounds row := by
  obtain ⟨-, row, found, -, same⟩ := accepts_iff.mp accepted
  exact ⟨row, found, same, (sessions.issued session grounds listed row found).2 same⟩

end AmberBackup.Auth
