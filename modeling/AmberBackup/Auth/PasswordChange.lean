import AmberBackup.Auth.LastAdmin
import AmberBackup.Auth.Sessions

/-! # Sessions after a change of the password

A login proves the password of the row it has read, but the session it is issued carries
the epoch of a later read, and so does the session issued on a challenge. In a run of the
server where the epoch read for a session is still the one in which its password was
proven, no accepted session rests on a replaced password (`sessions_of_current_password`).
A reset between the two reads leaves such a session (`replaced_password_accepted`).
-/

namespace AmberBackup.Auth

open Relational Transition

/-- What a step of a call must meet: where it reads the epoch for a session, the account is
still in the epoch in which the password was proven. -/
def Call.issuesInEpoch (server : Server) : Call → Bool
  | .issue user grounds .epoch =>
      (server.accounts.users.get? user).all fun row =>
        grounds.epoch.all fun epoch => row.sessionEpoch = epoch
  | _ => true

abbrev IssuesInEpoch (server : Server) (action : Action) : Prop :=
  onSteps (fun server call _ => call.issuesInEpoch server) server action = true

/-- The account is in the epoch in which the password was proven. -/
def provenFact (grounds : Grounds) (row : User) : Prop :=
  ∀ epoch, grounds.epoch = some epoch → row.sessionEpoch = epoch

theorem provenFact_lasting (grounds : Grounds) : Lasting (provenFact grounds) :=
  fun _ _ same _ _ proven epoch given => same.trans (proven epoch given)

theorem proven_of_reachable {settings : Settings} {known : Accounts → Prop} {server : Server}
    (reached : (authServer settings known).Reachable IssuesInEpoch server) :
    Sessions provenFact server := by
  refine sessions_of_reachable provenFact_lasting ?_ reached
  intro server index outcome user grounds row permitted present found epoch given
  have allowed := onSteps_resume permitted present
  simpa [Call.issuesInEpoch, found, given] using allowed

/-- A replaced password is of an epoch that is over. -/
def ReplacedBefore (server : Server) : Prop :=
  ∀ user epoch, .passwordReplaced user epoch ∈ server.journal →
    ∀ row, server.accounts.users.get? user = some row → epoch < row.sessionEpoch

theorem UserPatch.revokes_of_password {patch : UserPatch} (given : patch.passwordHash.isSome = true) :
    patch.revokes = true := by
  simp [revokes, given]

theorem ReplacedBefore.after {settings : Settings} {server : Server} {index : Nat}
    {current : Call} {outcome : Outcome} {effect : Effect} (before : ReplacedBefore server)
    (steps : current.step settings server outcome = some effect) :
    ReplacedBefore (server.after index effect) := by
  intro user epoch listed row present
  obtain ⟨old, found, grown, -⟩ := Statement.epoch_le present
  rcases List.mem_append.mp listed with earlier | new
  · exact Nat.lt_of_lt_of_le (before user epoch earlier old found) grown
  · obtain ⟨same, writes⟩ := Call.event_source steps new
    have here : epoch = old.sessionEpoch := by
      rw [same]
      simp [Accounts.sessionEpoch, found]
    rw [here]
    have issues : ∃ update, effect.statement = .updateUser user update ∧
        (update.set old).sessionEpoch = old.sessionEpoch + 1 := by
      rcases writes with ⟨dto, patch, writes, given⟩ | ⟨_, _, hash, writes⟩
      · subst writes
        cases outcome <;> cases steps
        refine ⟨.edit patch, rfl, ?_⟩
        simp [UserUpdate.set, UserPatch.revokes_of_password given]
      · subst writes
        cases outcome <;> cases steps
        exact ⟨.changePassword hash, rfl, rfl⟩
    obtain ⟨update, issues, bumped⟩ := issues
    have written : row = update.set old := by
      change (effect.statement.execute server.accounts).users.get? user = some row at present
      rw [issues] at present
      have edits : Statement.updateUser user update ≠ .deleteUser user := by simp
      obtain ⟨after, executed, unchanged | ⟨other, equal, changed⟩⟩ :=
        Statement.user_kept found edits
      · rw [executed] at present
        cases present
        change (server.accounts.users.update (fun key _ => key = user) update.set).get? user =
          some row at executed
        rw [Table.get?_update, found] at executed
        simpa using executed.symm
      · rw [executed] at present
        cases present
        cases equal
        exact changed
    rw [written, bumped]
    exact Nat.lt_succ_self _

theorem replacedBefore_of_reachable {settings : Settings} {known : Accounts → Prop}
    {allowed : Server → Action → Prop} {server : Server}
    (reached : (authServer settings known).Reachable allowed server) : ReplacedBefore server := by
  have invariant : (authServer settings known).Invariant allowed ReplacedBefore := by
    constructor
    · intro state started user epoch listed
      rw [Server.Started.journal started] at listed
      cases listed
    · intro state action next before _ stepped
      rcases Server.step_cases stepped with ⟨_, -, same⟩ | ⟨_, _, -, same⟩ | ⟨_, -, same⟩ |
        ⟨index, outcome, current, effect, -, present, steps, same⟩
      · exact same ▸ before
      · exact same ▸ before
      · exact same ▸ before
      · exact same ▸ before.after steps
  exact invariant.holds reached

/-- **A replaced password ends its sessions.** As long as the epoch read for a session is
still the one in which its password was proven, no session that is accepted was issued on a
password, or on a challenge signed for a password, that has been replaced. -/
theorem sessions_of_current_password {settings : Settings} {known : Accounts → Prop}
    {server : Server} (reached : (authServer settings known).Reachable IssuesInEpoch server)
    {session : Session} {grounds : Grounds} {epoch : Nat}
    (issued : .sessionIssued session grounds ∈ server.journal)
    (proven : grounds.epoch = some epoch)
    (accepted : server.accounts.accepts server.now session = true) :
    .passwordReplaced session.user epoch ∉ server.journal := by
  intro replaced
  obtain ⟨row, found, -, fact⟩ := (proven_of_reachable reached).accepted issued accepted
  have before := replacedBefore_of_reachable reached session.user epoch replaced row found
  have same := fact epoch proven
  omega

/-- An administrator resets the password between the verification of the old one and the
read of the epoch. -/
def resetDuringLogin : List Action :=
  [.begin (.login "bob@example.com" "second")] ++ returns 3 0 ++
    [.begin (.updateUser 2 { password := some "changed" })] ++ returns 3 1 ++ returns 4 0

/-- The session that is issued on the old password afterwards is accepted. -/
theorem replaced_password_accepted : ∃ server session,
    (authServer codeSettings fun _ => True).Reachable (fun _ _ => True) server ∧
      server.journal = [.passwordReplaced 2 0, .sessionIssued session (.password 0)] ∧
      session.user = 2 ∧ server.accounts.accepts server.now session = true := by
  have ends : ((authServer codeSettings fun _ => True).runWithin (fun _ _ => True) office
      resetDuringLogin).any (fun server => server.journal = [.passwordReplaced 2 0,
        .sessionIssued ⟨2, 1, 605800⟩ (.password 0)] &&
          server.accounts.accepts server.now ⟨2, 1, 605800⟩) = true := by decide
  obtain ⟨server, reached, both⟩ := System.exists_reachable (office_started trivial) ends
  rw [Bool.and_eq_true, decide_eq_true_eq] at both
  exact ⟨server, ⟨2, 1, 605800⟩, reached, both.1, rfl, both.2⟩

/-- A login that nothing interferes with. -/
theorem login_with_current_password : ∃ (server : Server) (session : Session),
    .sessionIssued session (.password 0) ∈ server.journal ∧
      .passwordReplaced session.user 0 ∉ server.journal := by
  have ends : ((authServer codeSettings fun _ => True).runWithin IssuesInEpoch office
      ([.begin (.login "bob@example.com" "second")] ++ returns 7 0)).any (fun server =>
        .sessionIssued ⟨2, 0, 605800⟩ (.password 0) ∈ server.journal &&
          server.accounts.accepts server.now ⟨2, 0, 605800⟩) = true := by decide
  obtain ⟨server, reached, both⟩ := System.exists_reachable (office_started trivial) ends
  rw [Bool.and_eq_true, decide_eq_true_eq] at both
  exact ⟨server, ⟨2, 0, 605800⟩, both.1,
    sessions_of_current_password reached both.1 rfl both.2⟩

end AmberBackup.Auth
