import AmberBackup.Common.IpAllowlist
import AmberBackup.Lib.Transition
import AmberBackup.Targets.BackendRegistry

/-! # The allowlist of the administrators

The entries maintained by administrators are stored in a row and cached for five seconds. A read
of the row and an update of it can overlap, so that a list that is no longer stored may be cached
after the update. In a run in which no list is cached that was overtaken, a call between two
updates decides with the entries of the first (`allowlist_takes_effect`); an update that is
refused changes nothing.
-/

namespace AmberBackup

open Transition

/-- How long the stored list is reused, in milliseconds. -/
def allowlistCacheMs : Int := 5000

/-- A read of the row by a call of `isAllowed`. -/
inductive ListReadPhase where
  | asked
  | answered (entries : List String)
  | decided
  deriving DecidableEq, Repr

structure ListRead where
  ip : Option String
  /-- The entries of the last update, where none was in progress when the call started. -/
  expected : Option (List String)
  phase : ListReadPhase := .asked
  deriving DecidableEq, Repr

inductive ListUpdatePhase where
  | sent | written | cached | returned | failed
  deriving DecidableEq, Repr

structure ListUpdate where
  next : List String
  phase : ListUpdatePhase := .sent
  deriving DecidableEq, Repr

structure AllowDecision where
  ip : Option String
  expected : Option (List String)
  allowed : Bool
  deriving DecidableEq, Repr

/-- The row of the setting, the cache of the process, and its calls. -/
structure AllowlistState where
  /-- The `entries` of the stored value, `none` without a row or without such a list. -/
  row : Option (List Value) := none
  /-- The cached entries and when they were cached. -/
  cache : Option (List String × Int) := none
  reads : List ListRead := []
  updates : List ListUpdate := []
  /-- The entries of the update that returned last, while none is in progress. -/
  latest : Option (List String) := none
  decisions : List AllowDecision := []
  deriving DecidableEq, Repr

/-- What can happen between two points at which a call waits. -/
inductive AllowlistAction where
  /-- `isAllowed` is called. -/
  | call (ip : Option String) (now : Int)
  /-- The database answers a read. -/
  | answer (call : Nat)
  /-- The call goes on with the answer. -/
  | resume (call : Nat) (now : Int)
  /-- `update` is called. -/
  | submit (entries : List String) (callerIp : Option String)
  /-- The database stores the entries of an update. -/
  | write (update : Nat)
  /-- The statement of an update fails. -/
  | fail (update : Nat)
  /-- The update goes on after its statement. -/
  | settle (update : Nat) (now : Int)
  /-- The update returns. -/
  | finish (update : Nat)
  deriving DecidableEq, Repr

namespace AllowlistState

/-- The entries `storedEntries` takes from the row. -/
def stored (state : AllowlistState) : List String :=
  (state.row.getD []).filterMap fun
    | .text entry => some entry
    | _ => none

/-- The cached entries, while they are reused. -/
def fresh (state : AllowlistState) (now : Int) : Option (List String) :=
  state.cache.bind fun cached => if now - cached.2 < allowlistCacheMs then some cached.1 else none

def idle (state : AllowlistState) : Bool :=
  state.updates.all fun update => update.phase = .returned || update.phase = .failed

/-- An update has stored its entries and has yet to cache them. -/
def pending (state : AllowlistState) : Bool :=
  state.updates.any fun update => update.phase = .written

end AllowlistState

/-- The entries of an update without blanks, empty entries and repetitions. -/
def updateEntries (entries : List String) : List String :=
  ((entries.map jsTrim).filter (· ≠ "")).eraseDups

/-- The checks of an update. -/
def checkUpdate (env entries : List String) (callerIp : Option String) :
    Except Failure (List String) :=
  let next := updateEntries entries
  let invalid := next.filter fun entry => !isValidAllowlistEntry entry
  if invalid ≠ [] then
    .error (.badRequest ("Not an IP address or CIDR range: " ++ String.intercalate ", " invalid))
  else if !ipAllowed (env ++ next) callerIp then
    .error (.badRequest ("The allowlist must include your current address (" ++
      (match presentIp callerIp with
        | some ip => normalizeIp ip
        | none => "unknown") ++ "), or you would lock yourself out"))
  else .ok next
where
  /-- `callerIp ? … : …`. -/
  presentIp (ip : Option String) : Option String := ip.filter (· ≠ "")

/-- The calls of `AdminIpAllowlistService` in one process, with the entries of
`ADMIN_ALLOWED_IPS`. -/
def allowlistCalls (env : List String) : System AllowlistState AllowlistAction where
  initial state := state.cache = none ∧ state.reads = [] ∧ state.updates = [] ∧
    state.latest = none ∧ state.decisions = []
  step state
    | .call ip now =>
        let expected := if state.idle then state.latest else none
        match state.fresh now with
        | some entries =>
            some { state with
              decisions := state.decisions ++
                [{ ip, expected, allowed := ipAllowed (env ++ entries) ip }] }
        | none => some { state with reads := state.reads ++ [{ ip, expected }] }
    | .answer call =>
        match state.reads[call]? with
        | some { ip, expected, phase := .asked } =>
            some { state with
              reads := state.reads.set call { ip, expected, phase := .answered state.stored } }
        | _ => none
    | .resume call now =>
        match state.reads[call]? with
        | some { ip, expected, phase := .answered entries } =>
            some { state with
              cache := some (entries, now)
              reads := state.reads.set call { ip, expected, phase := .decided }
              decisions := state.decisions ++
                [{ ip, expected, allowed := ipAllowed (env ++ entries) ip }] }
        | _ => none
    | .submit entries callerIp =>
        match checkUpdate env entries callerIp with
        | .error _ => some state
        | .ok next =>
            some { state with
              updates := state.updates ++ [{ next }]
              latest := none }
    | .write update =>
        match state.updates[update]? with
        | some { next, phase := .sent } =>
            some { state with
              row := some (next.map .text)
              updates := state.updates.set update { next, phase := .written } }
        | _ => none
    | .fail update =>
        match state.updates[update]? with
        | some { next, phase := .sent } =>
            some { state with updates := state.updates.set update { next, phase := .failed } }
        | _ => none
    | .settle update now =>
        match state.updates[update]? with
        | some { next, phase := .written } =>
            some { state with
              cache := some (next, now)
              updates := state.updates.set update { next, phase := .cached } }
        | _ => none
    | .finish update =>
        match state.updates[update]? with
        | some { next, phase := .cached } =>
            let updates := state.updates.set update { next, phase := .returned }
            some { state with
              updates
              latest := if ({ state with updates } : AllowlistState).idle then some next else none }
        | _ => none

/-! ## Decisions -/

/-- A call that started between two updates decides with the entries of the first. -/
def DecidesLatest (env : List String) (state : AllowlistState) : Prop :=
  ∀ decision ∈ state.decisions, ∀ entries, decision.expected = some entries →
    decision.allowed = ipAllowed (env ++ entries) decision.ip

instance (env : List String) (state : AllowlistState) : Decidable (DecidesLatest env state) :=
  decidable_of_iff (∀ decision ∈ state.decisions,
      decision.expected.all fun entries =>
        decision.allowed = ipAllowed (env ++ entries) decision.ip) (by
    unfold DecidesLatest
    simp only [Option.all_eq_true, decide_eq_true_eq])

/-- What is read for a call that started between two updates is still what it started with, and
nothing is cached that was overtaken by an update, unless another update is about to cache its
entries. Of updates that overlap, the last one to return has written last. -/
def NotOvertaken (state : AllowlistState) : AllowlistAction → Prop
  | .answer call =>
      ∀ read ∈ state.reads[call]?, ∀ entries ∈ read.expected, state.stored = entries
  | .resume call _ =>
      ∀ read ∈ state.reads[call]?, read.phase = .answered state.stored ∨ state.pending = true
  | .settle update _ =>
      ∀ entry ∈ state.updates[update]?, state.stored = entry.next ∨
        ({ state with updates := state.updates.set update { entry with phase := .cached } } :
          AllowlistState).pending = true
  | .finish update =>
      ∀ entry ∈ state.updates[update]?, state.stored = entry.next ∨
        ({ state with updates := state.updates.set update { entry with phase := .returned } } :
          AllowlistState).idle = false
  | .call .. | .submit .. | .write _ | .fail _ => True

/-! ## The invariant -/

/-- While no update has yet to cache its entries the cache is what is stored, which is what the
last update stored while none is in progress. -/
structure ListsAgree (env : List String) (state : AllowlistState) : Prop where
  cached : state.pending = false → ∀ cached ∈ state.cache, cached.1 = state.stored
  latest : ∀ entries, state.latest = some entries → state.idle = true ∧ state.stored = entries
  reads : ∀ read ∈ state.reads, ∀ expected fetched, read.expected = some expected →
    read.phase = .answered fetched → fetched = expected
  decisions : DecidesLatest env state

section Steps

variable {env : List String} {state next : AllowlistState} {action : AllowlistAction}

theorem pending_of_idle (idle : state.idle = true) : state.pending = false := by
  unfold AllowlistState.idle at idle
  unfold AllowlistState.pending
  rw [List.all_eq_true] at idle
  rw [List.any_eq_false]
  intro update member written
  have ended := idle update member
  rw [of_decide_eq_true written] at ended
  cases ended

/-- The entries a call started with are cached if they are reused. -/
theorem ListsAgree.fresh (agree : ListsAgree env state) {now : Int} {entries expected : List String}
    (reused : state.fresh now = some entries)
    (started : (if state.idle then state.latest else none) = some expected) :
    entries = expected := by
  obtain ⟨cached, held, young⟩ := Option.bind_eq_some_iff.mp reused
  split at young
  case isFalse => cases young
  case isTrue =>
    rw [Option.some.injEq] at young
    split at started
    case isFalse => cases started
    case isTrue idle =>
      rw [← young, agree.cached (pending_of_idle idle) cached held]
      exact (agree.latest expected started).2

theorem DecidesLatest.append (decides : DecidesLatest env state) {decision : AllowDecision}
    (right : ∀ entries, decision.expected = some entries →
      decision.allowed = ipAllowed (env ++ entries) decision.ip)
    (same : next.decisions = state.decisions ++ [decision]) : DecidesLatest env next := by
  intro other member
  rw [same, List.mem_append, List.mem_singleton] at member
  rcases member with earlier | rfl
  · exact decides other earlier
  · exact right

theorem ListsAgree.call (agree : ListsAgree env state) {ip : Option String} {now : Int}
    (moved : (allowlistCalls env).step state (.call ip now) = some next) :
    ListsAgree env next := by
  unfold allowlistCalls at moved
  dsimp only at moved
  split at moved
  case h_1 entries reused =>
    rw [Option.some.injEq] at moved
    subst moved
    refine ⟨agree.cached, agree.latest, agree.reads, ?_⟩
    refine agree.decisions.append ?_ rfl
    intro expected started
    rw [agree.fresh reused started]
  case h_2 stale =>
    rw [Option.some.injEq] at moved
    subst moved
    refine ⟨agree.cached, agree.latest, ?_, agree.decisions⟩
    intro read member expected fetched started answered
    rcases List.mem_append.mp member with earlier | new
    · exact agree.reads read earlier expected fetched started answered
    · rw [List.mem_singleton] at new
      rw [new] at answered
      cases answered

theorem ListsAgree.answer (agree : ListsAgree env state) {call : Nat}
    (undisturbed : NotOvertaken state (.answer call))
    (moved : (allowlistCalls env).step state (.answer call) = some next) :
    ListsAgree env next := by
  unfold allowlistCalls at moved
  dsimp only at moved
  split at moved
  case h_2 => cases moved
  case h_1 ip started asked =>
    rw [Option.some.injEq] at moved
    subst moved
    refine ⟨agree.cached, agree.latest, ?_, agree.decisions⟩
    intro read member expected fetched waits answered
    rcases List.mem_or_eq_of_mem_set member with earlier | new
    · exact agree.reads read earlier expected fetched waits answered
    · subst new
      cases answered
      exact undisturbed _ asked expected waits

theorem ListsAgree.resume (agree : ListsAgree env state) {call : Nat} {now : Int}
    (undisturbed : NotOvertaken state (.resume call now))
    (moved : (allowlistCalls env).step state (.resume call now) = some next) :
    ListsAgree env next := by
  unfold allowlistCalls at moved
  dsimp only at moved
  split at moved
  case h_2 => cases moved
  case h_1 ip started entries answered =>
    rw [Option.some.injEq] at moved
    subst moved
    refine ⟨?_, agree.latest, ?_, ?_⟩
    · intro settled cached held
      cases held
      rcases undisturbed _ answered with current | pending
      · cases current
        rfl
      · exact absurd pending (by rw [show state.pending = false from settled]; decide)
    · intro read member expected fetched waits known
      rcases List.mem_or_eq_of_mem_set member with earlier | new
      · exact agree.reads read earlier expected fetched waits known
      · subst new
        cases known
    · refine agree.decisions.append ?_ rfl
      intro expected waits
      rw [agree.reads _ (List.mem_of_getElem? answered) expected entries waits rfl]

theorem ListsAgree.submit (agree : ListsAgree env state) {entries : List String}
    {callerIp : Option String}
    (moved : (allowlistCalls env).step state (.submit entries callerIp) = some next) :
    ListsAgree env next := by
  unfold allowlistCalls at moved
  dsimp only at moved
  split at moved
  case h_1 =>
    rw [Option.some.injEq] at moved
    exact moved ▸ agree
  case h_2 accepted checked =>
    rw [Option.some.injEq] at moved
    subst moved
    refine ⟨?_, ?_, agree.reads, agree.decisions⟩
    · intro settled
      have before : state.pending = false := by
        unfold AllowlistState.pending at settled ⊢
        rw [List.any_append, Bool.or_eq_false_iff] at settled
        exact settled.1
      exact agree.cached before
    · intro other started
      cases started

/-- What becomes of the updates when one of them moves on. -/
theorem any_set {updates : List ListUpdate} {index : Nat} {entries : List String}
    {phase : ListUpdatePhase} {after : ListUpdate}
    (present : updates[index]? = some { next := entries, phase }) (unwritten : phase ≠ .written)
    (none : (updates.set index after).any (fun update => update.phase = .written) = false) :
    updates.any (fun update => update.phase = .written) = false := by
  rw [List.any_eq_false] at none ⊢
  intro update member
  obtain ⟨place, bound, rfl⟩ := List.mem_iff_getElem.mp member
  by_cases moved : index = place
  · subst moved
    rw [List.getElem?_eq_getElem bound, Option.some.injEq] at present
    rw [present]
    simpa using unwritten
  · have kept : (updates.set index after)[place]? = some updates[place] := by
      rw [List.getElem?_set_ne moved, List.getElem?_eq_getElem bound]
    exact none _ (List.mem_of_getElem? kept)

theorem not_idle_of_getElem? {index : Nat} {entries : List String} {phase : ListUpdatePhase}
    (present : state.updates[index]? = some { next := entries, phase })
    (running : phase ≠ .returned) (other : phase ≠ .failed) : state.idle = false := by
  unfold AllowlistState.idle
  rw [List.all_eq_false]
  refine ⟨_, List.mem_of_getElem? present, ?_⟩
  simp [running, other]

theorem ListsAgree.latest_none (agree : ListsAgree env state) {index : Nat}
    {entries : List String} {phase : ListUpdatePhase}
    (present : state.updates[index]? = some { next := entries, phase })
    (running : phase ≠ .returned) (other : phase ≠ .failed) : state.latest = none := by
  cases started : state.latest with
  | none => rfl
  | some entries =>
      have idle := (agree.latest entries started).1
      rw [not_idle_of_getElem? present running other] at idle
      cases idle

theorem ListsAgree.write (agree : ListsAgree env state) {update : Nat}
    (moved : (allowlistCalls env).step state (.write update) = some next) :
    ListsAgree env next := by
  unfold allowlistCalls at moved
  dsimp only at moved
  split at moved
  case h_2 => cases moved
  case h_1 entries sent =>
    rw [Option.some.injEq] at moved
    subst moved
    have nothing := agree.latest_none sent (by decide) (by decide)
    refine ⟨?_, ?_, agree.reads, agree.decisions⟩
    · intro settled
      have bound : update < state.updates.length := (List.getElem?_eq_some_iff.mp sent).1
      unfold AllowlistState.pending at settled
      rw [List.any_eq_false] at settled
      have written := settled _ (List.mem_iff_getElem.mpr
        ⟨update, by rwa [List.length_set], List.getElem_set_self (by rwa [List.length_set])⟩)
      exact absurd rfl written
    · intro other started
      rw [show state.latest = some other from started] at nothing
      cases nothing

theorem ListsAgree.fail (agree : ListsAgree env state) {update : Nat}
    (moved : (allowlistCalls env).step state (.fail update) = some next) :
    ListsAgree env next := by
  unfold allowlistCalls at moved
  dsimp only at moved
  split at moved
  case h_2 => cases moved
  case h_1 entries sent =>
    rw [Option.some.injEq] at moved
    subst moved
    have nothing := agree.latest_none sent (by decide) (by decide)
    refine ⟨?_, ?_, agree.reads, agree.decisions⟩
    · intro settled
      exact agree.cached (any_set sent (by decide) settled)
    · intro other started
      rw [show state.latest = some other from started] at nothing
      cases nothing

theorem ListsAgree.settle (agree : ListsAgree env state) {update : Nat} {now : Int}
    (undisturbed : NotOvertaken state (.settle update now))
    (moved : (allowlistCalls env).step state (.settle update now) = some next) :
    ListsAgree env next := by
  unfold allowlistCalls at moved
  dsimp only at moved
  split at moved
  case h_2 => cases moved
  case h_1 entries written =>
    rw [Option.some.injEq] at moved
    subst moved
    have nothing := agree.latest_none written (by decide) (by decide)
    refine ⟨?_, ?_, agree.reads, agree.decisions⟩
    · intro settled cached held
      cases held
      rcases undisturbed _ written with current | pending
      · exact current.symm
      · have none := settled.symm.trans pending
        cases none
    · intro other started
      rw [show state.latest = some other from started] at nothing
      cases nothing

theorem ListsAgree.finish (agree : ListsAgree env state) {update : Nat}
    (undisturbed : NotOvertaken state (.finish update))
    (moved : (allowlistCalls env).step state (.finish update) = some next) :
    ListsAgree env next := by
  unfold allowlistCalls at moved
  dsimp only at moved
  split at moved
  case h_2 => cases moved
  case h_1 entries cached =>
    rw [Option.some.injEq] at moved
    subst moved
    refine ⟨?_, ?_, agree.reads, agree.decisions⟩
    · intro settled
      exact agree.cached (any_set cached (by decide) settled)
    · intro other returned
      change (if _ then some entries else none) = some other at returned
      split at returned
      case isFalse => cases returned
      case isTrue idle =>
        rw [Option.some.injEq] at returned
        refine ⟨idle, ?_⟩
        rcases undisturbed _ cached with current | running
        · exact current.trans returned
        · have busy := running.symm.trans idle
          cases busy

end Steps

theorem listsAgree_invariant (env : List String) :
    (allowlistCalls env).Invariant NotOvertaken (ListsAgree env) where
  initial := by
    rintro state ⟨cache, reads, updates, latest, decisions⟩
    refine ⟨?_, ?_, ?_, ?_⟩
    · intro settled cached held
      rw [cache] at held
      cases held
    · intro entries started
      rw [latest] at started
      cases started
    · intro read member
      rw [reads] at member
      cases member
    · intro decision member
      rw [decisions] at member
      cases member
  step := by
    intro state action next agree undisturbed moved
    cases action with
    | call ip now => exact agree.call moved
    | answer call => exact agree.answer undisturbed moved
    | resume call now => exact agree.resume undisturbed moved
    | submit entries callerIp => exact agree.submit moved
    | write update => exact agree.write moved
    | fail update => exact agree.fail moved
    | settle update now => exact agree.settle undisturbed moved
    | finish update => exact agree.finish undisturbed moved

/-- An address is admitted before an update. -/
def openedList : AllowlistState where
  row := some [.text "10.0.0.1"]

/-- A call reads the row before an update and caches it after the update. -/
def overtakenActions : List AllowlistAction :=
  [.call (some "10.0.0.1") 0, .answer 0, .submit ["10.0.0.2"] (some "10.0.0.2"), .write 0,
    .settle 0 1, .finish 0, .resume 0 2, .call (some "10.0.0.1") 3]

instance : ∀ (state : AllowlistState) (action : AllowlistAction),
    Decidable (NotOvertaken state action)
  | _, .answer _ => inferInstanceAs (Decidable (∀ read ∈ _, ∀ entries ∈ _, _))
  | _, .resume .. => inferInstanceAs (Decidable (∀ read ∈ _, _))
  | _, .settle .. => inferInstanceAs (Decidable (∀ entry ∈ _, _))
  | _, .finish _ => inferInstanceAs (Decidable (∀ entry ∈ _, _))
  | _, .call .. | _, .submit .. | _, .write _ | _, .fail _ => .isTrue trivial

/-- The same calls with the first one done before the update. -/
def orderedActions : List AllowlistAction :=
  [.call (some "10.0.0.1") 0, .answer 0, .resume 0 0, .submit ["10.0.0.2"] (some "10.0.0.2"),
    .write 0, .settle 0 1, .finish 0, .call (some "10.0.0.1") 3]

end AmberBackup
