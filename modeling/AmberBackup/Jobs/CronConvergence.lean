import AmberBackup.Jobs.CronEntries

/-! # The registry and the database

A registration that finds its name in use is dropped, and one with an outdated row is not
noticed; a call that fails after its write leaves the registry behind. In runs where each
registered row is the current one, or some call has yet to unregister the job, and no call
fails past its write, a registry at rest has the entries the database asks for and no others
(`registry_converges`).
-/

namespace AmberBackup

open Relational Transition

namespace Scheduler

variable (runtime : CronRuntime) (state : Scheduler)

/-- The entry the database asks for under a name. -/
def wanted (name : CronName) : Option CronEntry :=
  ((state.jobs.get? name.job).bind fun job => job.cronExpr? name).map fun cronExpr =>
    ⟨cronExpr, state.timezone⟩

/-- A call that has yet to unregister the job. -/
def unregisters (id : Uuid) : SchedulerCall → Bool
  | .cleanUp job | .sync job => job = id
  | .getRow job => job = id && (state.jobs.get? id).isSome
  | _ => false

/-- Some call has yet to unregister the job. -/
def resyncs (id : Uuid) : Bool := state.calls.any (state.unregisters id)

/-- The registration of a row is one of the current row: under each name that is free, an
expression is accepted if and only if it is the current one. -/
def current (id : Uuid) (job : BackupJob) : Bool :=
  [CronName.backupJob id, .checkJob id].all fun name =>
    (state.registry name).isSome ||
      (job.cronExpr? name).all fun cronExpr =>
        runtime.accepts cronExpr state.timezone =
          decide (state.wanted name = some ⟨cronExpr, state.timezone⟩)

/-- What a step must meet. -/
def orderly : SchedulerAction → Bool
  | .proceed index =>
      (state.calls[index]?).all fun call =>
        match call with
        | .registerRow id row =>
            state.resyncs id || row.all fun job => !job.enabled || state.current runtime id job
        | .registerAll rows =>
            rows.all fun entry => state.resyncs entry.1 || state.current runtime entry.1 entry.2
        -- no other change of the zone has come between
        | .assignTimezone timezone changed =>
            (changed || timezone = state.timezone) &&
              (timezone = state.storedTimezone ||
                (state.calls.set index .done).any fun other =>
                  match other with
                  | .assignTimezone stored _ => stored = state.storedTimezone
                  | _ => false)
        | _ => true
  | .refuse index =>
      (state.calls[index]?).all fun call =>
        match call with
        | .insert _ | .find .. | .write .. | .writeTimezone .. => true
        | _ => false
  | _ => true

abbrev Orderly (action : SchedulerAction) : Prop := state.orderly runtime action = true

/-- The call has returned or thrown. -/
def finished : SchedulerCall → Bool
  | .done | .failed _ => true
  | _ => false

/-- The registry is what the database asks for, in the zone that is stored. -/
structure Converged : Prop where
  timezone : state.timezone = state.storedTimezone
  registry : ∀ name, state.registry name = state.wanted name

end Scheduler

/-! ## The invariant -/

namespace Scheduler

variable {runtime : CronRuntime} {state next : Scheduler} {action : SchedulerAction}
  {call after : SchedulerCall} {index : Nat} {id : Uuid} {name : CronName}

/-- A call that is past the unregistration of the job, and goes to register its current
row. -/
def Underway (state : Scheduler) (id : Uuid) : SchedulerCall → Prop
  | .readRow job => job = id
  | .registerRow job row => job = id ∧ row = state.jobs.get? id
  | .listEnabled => True
  | .registerAll rows => find id rows = (state.jobs.get? id).filter fun job => job.enabled
  | _ => False

def Complete (state : Scheduler) (id : Uuid) : Prop :=
  ∀ name, name.job = id → state.registry name = state.wanted name

def Incomplete (state : Scheduler) (id : Uuid) : Prop :=
  ∀ name, name.job = id → state.registry name = none ∨ state.registry name = state.wanted name

/-- The entries of a job are right, or will be. -/
def Settled (state : Scheduler) (id : Uuid) : Prop :=
  state.resyncs id = true ∨ state.Complete id ∨
    state.Incomplete id ∧ ∃ call ∈ state.calls, state.Underway id call

/-- What a call has looked up: the job of a write exists or has existed, the job of a removal
no longer does, and listed rows are distinct and enabled. -/
def Grounded (state : Scheduler) : SchedulerCall → Prop
  | .write id _ => id < state.nextJob
  | .cleanUp id => id < state.nextJob ∧ state.jobs.get? id = none
  | .registerAll rows => (∀ entry ∈ rows, entry.2.enabled = true) ∧ (rows.map Prod.fst).Nodup
  | _ => True

structure Sound (state : Scheduler) : Prop where
  jobs : ∀ id job, state.jobs.get? id = some job → id < state.nextJob
  calls : ∀ call ∈ state.calls, state.Grounded call
  timezone : state.timezone = state.storedTimezone ∨
    ∃ changed, .assignTimezone state.storedTimezone changed ∈ state.calls
  settled : ∀ id, state.Settled id

theorem mem_advanced (present : state.calls[index]? = some call) :
    after ∈ state.calls.set index after :=
  List.mem_set (List.getElem?_eq_some_iff.mp present).1 after

/-- The calls other than the one that moves are still there. -/
theorem mem_set_of_ne {other : SchedulerCall} (present : state.calls[index]? = some call)
    (member : other ∈ state.calls) (different : other ≠ call) :
    other ∈ state.calls.set index after := by
  obtain ⟨place, found⟩ := List.mem_iff_getElem?.mp member
  have elsewhere : index ≠ place := by
    rintro rfl
    exact different (Option.some.inj (found.symm.trans present))
  exact List.mem_iff_getElem?.mpr ⟨place, by rw [List.getElem?_set_ne elsewhere, found]⟩

theorem resyncs_iff : state.resyncs id = true ↔
    ∃ call ∈ state.calls, state.unregisters id call = true :=
  List.any_eq_true

theorem Underway.congr (underway : state.Underway id call)
    (jobs : next.jobs.get? id = state.jobs.get? id) : next.Underway id call := by
  cases call with
  | readRow job => exact underway
  | registerRow job row => exact ⟨underway.1, underway.2.trans jobs.symm⟩
  | listEnabled => trivial
  | registerAll rows => exact (show find id rows = _ from underway).trans (jobs ▸ rfl)
  | insert | find | write | cleanUp | getRow | sync | writeTimezone | assignTimezone | done
  | failed => exact underway.elim

theorem unregisters_congr (jobs : next.jobs.get? id = state.jobs.get? id) :
    next.unregisters id call = state.unregisters id call := by
  cases call with
  | getRow job =>
      by_cases same : job = id
      · subst same
        rw [unregisters, unregisters, jobs]
      · simp [unregisters, same]
  | _ => rfl

/-- A step that changes nothing about a job leaves it settled, if what was to unregister or
to register it still is. -/
theorem Settled.frame (settled : state.Settled id)
    (jobs : next.jobs.get? id = state.jobs.get? id) (timezone : next.timezone = state.timezone)
    (registry : ∀ name, name.job = id → next.registry name = state.registry name)
    (unregistering : ∀ call ∈ state.calls, state.unregisters id call = true → call ∈ next.calls)
    (registering : ∀ call ∈ state.calls, state.Underway id call →
      ∃ other ∈ next.calls, next.Underway id other) : next.Settled id := by
  have wanted : ∀ name, name.job = id → next.wanted name = state.wanted name := by
    intro name own
    rw [wanted, Scheduler.wanted, own, jobs, timezone]
  rcases settled with resyncs | complete | ⟨incomplete, call, member, underway⟩
  · obtain ⟨call, member, unregisters⟩ := resyncs_iff.mp resyncs
    exact .inl (resyncs_iff.mpr
      ⟨call, unregistering call member unregisters, (unregisters_congr jobs).trans unregisters⟩)
  · refine .inr (.inl fun name own => ?_)
    rw [registry name own, wanted name own, complete name own]
  · refine .inr (.inr ⟨fun name own => ?_, registering call member underway⟩)
    rw [registry name own, wanted name own]
    exact incomplete name own

/-- So does one of a call that is neither. -/
theorem Settled.idle (settled : state.Settled id)
    (jobs : next.jobs.get? id = state.jobs.get? id) (timezone : next.timezone = state.timezone)
    (registry : ∀ name, name.job = id → next.registry name = state.registry name)
    (calls : ∀ other ∈ state.calls, other ≠ call → other ∈ next.calls)
    (unregisters : state.unregisters id call = false) (apart : ¬state.Underway id call) :
    next.Settled id := by
  refine settled.frame jobs timezone registry ?_ ?_
  · intro other member serves
    refine calls other member ?_
    rintro rfl
    rw [unregisters] at serves
    cases serves
  · intro other member underway
    have different : other ≠ call := by
      rintro rfl
      exact apart underway
    exact ⟨other, calls other member different, underway.congr jobs⟩

/-- A job that some call has yet to unregister stays so while others move. -/
theorem Settled.of_resyncs (resyncs : state.resyncs id = true)
    (jobs : next.jobs.get? id = state.jobs.get? id)
    (calls : ∀ other ∈ state.calls, other ≠ call → other ∈ next.calls)
    (idle : state.unregisters id call = false) : next.Settled id := by
  obtain ⟨other, member, unregisters⟩ := resyncs_iff.mp resyncs
  have different : other ≠ call := by
    rintro rfl
    rw [unregisters] at idle
    cases idle
  exact .inl (resyncs_iff.mpr
    ⟨other, calls other member different, (unregisters_congr jobs).trans unregisters⟩)

/-- What a registration adds to the entries of a job. -/
structure Adds (runtime : CronRuntime) (state next : Scheduler) (id : Uuid)
    (asked : CronName → Option String) : Prop where
  jobs : next.jobs.get? id = state.jobs.get? id
  timezone : next.timezone = state.timezone
  registry : ∀ name, name.job = id → next.registry name =
    (state.registry name).or (entryFor runtime state.timezone (asked name))
  /-- Under a free name, what is accepted is what is wanted. -/
  current : ∀ name, name.job = id → state.registry name = none →
    ∀ cronExpr, asked name = some cronExpr →
      (runtime.accepts cronExpr state.timezone = true ↔
        state.wanted name = some ⟨cronExpr, state.timezone⟩)

namespace Adds

variable {asked : CronName → Option String}

theorem wanted (adds : Adds runtime state next id asked) (own : name.job = id) :
    next.wanted name = state.wanted name := by
  rw [Scheduler.wanted, Scheduler.wanted, own, adds.jobs, adds.timezone]

theorem of_taken (adds : Adds runtime state next id asked) (own : name.job = id)
    {entry : CronEntry} (taken : state.registry name = some entry) :
    next.registry name = some entry := by
  rw [adds.registry name own, taken]
  rfl

/-- What comes under a free name. -/
theorem of_free (adds : Adds runtime state next id asked) (own : name.job = id)
    (free : state.registry name = none) :
    (next.registry name = none ∧ ∀ cronExpr, asked name = some cronExpr →
        state.wanted name ≠ some ⟨cronExpr, state.timezone⟩) ∨
      next.registry name = state.wanted name := by
  have added := adds.registry name own
  rw [free, Option.none_or] at added
  have current := adds.current name own free
  cases asks : asked name with
  | none =>
      rw [asks] at added
      exact .inl ⟨added, nofun⟩
  | some cronExpr =>
      rw [asks, entryFor, Option.filter_some] at added
      by_cases accepted : runtime.accepts cronExpr state.timezone = true
      · rw [if_pos accepted] at added
        exact .inr (added.trans ((current cronExpr asks).mp accepted).symm)
      · rw [if_neg accepted] at added
        refine .inl ⟨added, ?_⟩
        rintro other ⟨⟩ wanted
        exact accepted ((current cronExpr asks).mpr wanted)

theorem complete (adds : Adds runtime state next id asked) (complete : state.Complete id) :
    next.Complete id := by
  intro name own
  rw [adds.wanted own]
  have before := complete name own
  cases taken : state.registry name with
  | some entry => rw [adds.of_taken own taken, ← before, taken]
  | none =>
      rcases adds.of_free own taken with ⟨free, -⟩ | same
      · rw [free, ← before, taken]
      · exact same

theorem incomplete (adds : Adds runtime state next id asked) (incomplete : state.Incomplete id) :
    next.Incomplete id := by
  intro name own
  rw [adds.wanted own]
  cases taken : state.registry name with
  | some entry =>
      rw [adds.of_taken own taken, ← taken]
      exact incomplete name own
  | none => exact (adds.of_free own taken).imp_left And.left

/-- A registration of the current row completes the entries. -/
theorem completes (adds : Adds runtime state next id asked) (incomplete : state.Incomplete id)
    (row : ∀ name, name.job = id →
      asked name = (state.jobs.get? id).bind fun job => job.cronExpr? name) :
    next.Complete id := by
  intro name own
  rw [adds.wanted own]
  cases taken : state.registry name with
  | some entry =>
      rw [adds.of_taken own taken, ← taken]
      refine (incomplete name own).resolve_left ?_
      rw [taken]
      nofun
  | none =>
      rcases adds.of_free own taken with ⟨free, unwanted⟩ | same
      · rw [free, Scheduler.wanted, own, ← row name own]
        cases asks : asked name with
        | none => rfl
        | some cronExpr =>
            refine absurd ?_ (unwanted cronExpr asks)
            rw [Scheduler.wanted, own, ← row name own, asks]
            rfl
      · exact same

/-- A job whose row is registered, or a stale one of it, stays settled. -/
theorem settled (adds : Adds runtime state next id asked) (settled : state.Settled id)
    (calls : ∀ other ∈ state.calls, other ≠ call → other ∈ next.calls)
    (idle : state.unregisters id call = false)
    (row : state.Underway id call → ∀ name, name.job = id →
      asked name = (state.jobs.get? id).bind fun job => job.cronExpr? name) :
    next.Settled id := by
  rcases settled with resyncs | complete | ⟨incomplete, other, member, underway⟩
  · exact .of_resyncs resyncs adds.jobs calls idle
  · exact .inr (.inl (adds.complete complete))
  · by_cases same : other = call
    · exact .inr (.inl (adds.completes incomplete (row (same ▸ underway))))
    · exact .inr (.inr ⟨adds.incomplete incomplete, other, calls other member same,
        underway.congr adds.jobs⟩)

end Adds

/-! ## A step of a call -/

theorem get?_enabledJobs : find id state.enabledJobs =
    (state.jobs.get? id).filter fun job => job.enabled := by
  have kept : state.enabledJobs = (state.jobs.delete fun _ job => !job.enabled).rows := by
    simp [enabledJobs, Table.delete]
  rw [kept]
  change (state.jobs.delete fun _ job => !job.enabled).get? id = _
  rw [Table.get?_delete]
  simp

/-- Only enabled jobs are listed, so what is not listed asks for nothing. -/
theorem cronExpr?_listed (name : CronName) :
    (((state.jobs.get? id).filter fun job => job.enabled).bind fun job => job.cronExpr? name) =
      (state.jobs.get? id).bind fun job => job.cronExpr? name := by
  cases state.jobs.get? id with
  | none => rfl
  | some job =>
      rw [Option.filter_some]
      split
      case isTrue => rfl
      case isFalse disabled => exact (cronExpr?_of_disabled (by simpa using disabled)).symm

/-- What the condition says of each name of a job. -/
theorem of_current {job : BackupJob} (current : state.current runtime id job = true)
    (own : name.job = id) (free : state.registry name = none) (cronExpr : String)
    (asks : job.cronExpr? name = some cronExpr) :
    runtime.accepts cronExpr state.timezone = true ↔
      state.wanted name = some ⟨cronExpr, state.timezone⟩ := by
  have listed : name ∈ [CronName.backupJob id, .checkJob id] := by
    subst own
    cases name <;> simp [CronName.job]
  have here := List.all_eq_true.mp current name listed
  rw [free, asks, Option.isSome_none, Bool.false_or, Option.all_some, decide_eq_true_eq] at here
  rw [here, decide_eq_true_eq]

section Advance

variable {moved : Scheduler}

theorem settled_registerRow {row : Option BackupJob} {other : Uuid} (sound : state.Sound)
    (present : state.calls[index]? = some (.registerRow id row))
    (orderly : Orderly runtime state (.proceed index))
    (jobs : next.jobs = state.jobs) (timezone : next.timezone = state.timezone)
    (registry : next.registry = registerRow runtime state.timezone state.registry id row)
    (calls : ∀ other ∈ state.calls, other ≠ .registerRow id row → other ∈ next.calls) :
    next.Settled other := by
  simp only [Orderly, Scheduler.orderly, present, Option.all_some, Bool.or_eq_true] at orderly
  by_cases same : other = id
  · subst same
    rcases orderly with resyncs | current
    · exact .of_resyncs resyncs (jobs ▸ rfl) calls rfl
    · have adds : Adds runtime state next other fun name =>
          row.bind fun job => job.cronExpr? name := {
        jobs := jobs ▸ rfl
        timezone := timezone
        registry := by
          intro name own
          rw [registry, registerRow_apply, if_pos own]
        current := by
          intro name own free cronExpr asks
          obtain ⟨job, here, asks⟩ := Option.bind_eq_some_iff.mp asks
          rw [here, Option.all_some, Bool.or_eq_true] at current
          rcases current with disabled | current
          · rw [cronExpr?_of_disabled (by simpa using disabled)] at asks
            cases asks
          · exact of_current current own free cronExpr asks }
      refine adds.settled (sound.settled other) calls rfl ?_
      rintro ⟨-, rfl⟩ name own
      rfl
  · refine (sound.settled other).idle (jobs ▸ rfl) timezone ?_ calls rfl ?_
    · intro name own
      rw [registry, registerRow_apply, if_neg fun equal => same (own.symm.trans equal)]
    · rintro ⟨equal, -⟩
      exact same equal.symm

theorem settled_registerAll {rows : List (Uuid × BackupJob)} (sound : state.Sound)
    (present : state.calls[index]? = some (.registerAll rows))
    (orderly : Orderly runtime state (.proceed index))
    (jobs : next.jobs = state.jobs) (timezone : next.timezone = state.timezone)
    (registry : next.registry = registerRows runtime state.timezone state.registry rows)
    (calls : ∀ other ∈ state.calls, other ≠ .registerAll rows → other ∈ next.calls) :
    next.Settled id := by
  obtain ⟨enabled, distinct⟩ := sound.calls _ (List.mem_of_getElem? present)
  simp only [Orderly, Scheduler.orderly, present, Option.all_some, List.all_eq_true,
    Bool.or_eq_true] at orderly
  by_cases resyncs : state.resyncs id = true
  · exact .of_resyncs resyncs (jobs ▸ rfl) calls rfl
  · have adds : Adds runtime state next id fun name =>
        (find id rows).bind fun job => job.cronExpr? name := {
      jobs := jobs ▸ rfl
      timezone := timezone
      registry := by
        rintro name rfl
        rw [registry, registerRows_apply enabled distinct]
      current := by
        intro name own free cronExpr asks
        obtain ⟨job, listed, asks⟩ := Option.bind_eq_some_iff.mp asks
        have current := (orderly (id, job) (mem_of_find listed)).resolve_left resyncs
        exact of_current current own free cronExpr asks }
    refine adds.settled (sound.settled id) calls rfl ?_
    intro underway name own
    rw [show find id rows = _ from underway]
    exact cronExpr?_listed name

/-- An update of a row is followed by the unregistration of the job, if there is one. -/
theorem settled_update {job : Uuid} {write : JobWrite} (change : BackupJob → BackupJob)
    (settled : state.Settled id)
    (jobs : next.jobs = state.jobs.update (fun key _ => key = job) change)
    (timezone : next.timezone = state.timezone) (registry : next.registry = state.registry)
    (calls : ∀ other ∈ state.calls, other ≠ .write job write → other ∈ next.calls)
    (member : .getRow job ∈ next.calls) : next.Settled id := by
  by_cases same : id = job
  · subst same
    have after : next.jobs.get? id = (state.jobs.get? id).map change := by
      rw [jobs, Table.get?_update_self]
    cases found : state.jobs.get? id with
    | some row =>
        refine .inl (resyncs_iff.mpr ⟨_, member, ?_⟩)
        simp [unregisters, after, found]
    | none =>
        rw [found] at after
        exact settled.idle (after.trans found.symm) timezone (fun _ _ => registry ▸ rfl) calls rfl
          not_false
  · refine settled.idle ?_ timezone (fun _ _ => registry ▸ rfl) calls rfl not_false
    rw [jobs, Table.get?_update_of_ne same]

/-- A read leaves the job to be registered by the call that has read it. -/
theorem Settled.passes {calls : List SchedulerCall} (settled : state.Settled id)
    (keeps : ∀ other ∈ state.calls, other ≠ call → other ∈ calls) (placed : after ∈ calls)
    (unregisters : state.unregisters id call = false)
    (passes : state.Underway id call → state.Underway id after) :
    Settled { state with calls := calls } id := by
  refine settled.frame rfl rfl (fun _ _ => rfl) ?_ ?_
  · intro other member serves
    refine keeps other member ?_
    rintro rfl
    rw [unregisters] at serves
    cases serves
  · intro other member underway
    by_cases same : other = call
    · exact ⟨after, placed, (passes (same ▸ underway)).congr rfl⟩
    · exact ⟨other, keeps other member same, underway.congr rfl⟩

/-- After an unregistration of the job that some call follows with a read of it. -/
theorem Settled.emptied (registry : ∀ name, name.job = id → next.registry name = none)
    (member : call ∈ next.calls) (underway : next.Underway id call) : next.Settled id :=
  .inr (.inr ⟨fun name own => .inl (registry name own), call, member, underway⟩)

theorem settled_advance (sound : state.Sound) (present : state.calls[index]? = some call)
    (orderly : Orderly runtime state (.proceed index))
    (advances : state.advance runtime call = some (moved, after)) (id : Uuid) :
    Settled { moved with calls := state.calls.set index after } id := by
  have keeps : ∀ other ∈ state.calls, other ≠ call → other ∈ state.calls.set index after :=
    fun other member => mem_set_of_ne present member
  have placed : after ∈ state.calls.set index after := mem_advanced present
  have member : call ∈ state.calls := List.mem_of_getElem? present
  have settled := sound.settled id
  cases call with
  | insert row =>
      obtain ⟨rfl, rfl⟩ := Prod.mk.inj (Option.some.inj advances)
      have fresh : state.jobs.get? state.nextJob = none := by
        cases found : state.jobs.get? state.nextJob with
        | none => rfl
        | some job => exact absurd (sound.jobs _ job found) (Nat.lt_irrefl _)
      by_cases same : id = state.nextJob
      · subst same
        refine .inl (resyncs_iff.mpr ⟨_, placed, ?_⟩)
        simp [unregisters, Table.get?_insert_self fresh]
      · exact settled.idle (Table.get?_insert_of_ne same) rfl (fun _ _ => rfl) keeps rfl not_false
  | find job write =>
      simp only [advance] at advances
      split at advances <;> obtain ⟨rfl, rfl⟩ := Prod.mk.inj (Option.some.inj advances)
      all_goals exact settled.idle rfl rfl (fun _ _ => rfl) keeps rfl not_false
  | write job write =>
      cases write with
      | patch patch =>
          obtain ⟨rfl, rfl⟩ := Prod.mk.inj (Option.some.inj advances)
          exact settled_update (patch.apply state.now) settled rfl rfl rfl keeps placed
      | integrityCheck config =>
          obtain ⟨rfl, rfl⟩ := Prod.mk.inj (Option.some.inj advances)
          exact settled_update
            (fun job => { job with integrityCheck := config, updatedAt := state.now })
            settled rfl rfl rfl keeps placed
      | delete =>
          obtain ⟨rfl, rfl⟩ := Prod.mk.inj (Option.some.inj advances)
          by_cases same : id = job
          · subst same
            exact .inl (resyncs_iff.mpr ⟨_, placed, by simp [unregisters]⟩)
          · exact settled.idle (Table.get?_delete_of_ne same) rfl (fun _ _ => rfl) keeps rfl
              not_false
  | cleanUp job =>
      obtain ⟨rfl, rfl⟩ := Prod.mk.inj (Option.some.inj advances)
      by_cases same : id = job
      · subst same
        have gone := (sound.calls _ member).2
        refine .inr (.inl fun name own => ?_)
        rw [Scheduler.wanted, own]
        change unregister state.registry id name = _
        rw [unregister_apply, if_pos own, gone]
        rfl
      · refine settled.idle rfl rfl ?_ keeps (by simp [unregisters, Ne.symm same]) not_false
        intro name own
        exact unregister_apply.trans (if_neg fun equal => same (own.symm.trans equal))
  | getRow job =>
      simp only [advance] at advances
      split at advances <;> obtain ⟨rfl, rfl⟩ := Prod.mk.inj (Option.some.inj advances)
      case isTrue here =>
        by_cases same : id = job
        · subst same
          exact .inl (resyncs_iff.mpr ⟨_, placed, by simp [unregisters]⟩)
        · exact settled.idle rfl rfl (fun _ _ => rfl) keeps (by simp [unregisters, Ne.symm same])
            not_false
      case isFalse gone =>
        refine settled.idle rfl rfl (fun _ _ => rfl) keeps ?_ not_false
        by_cases same : job = id
        · subst same
          simpa [unregisters] using gone
        · simp [unregisters, same]
  | sync job =>
      obtain ⟨rfl, rfl⟩ := Prod.mk.inj (Option.some.inj advances)
      by_cases same : id = job
      · subst same
        exact .emptied (fun name own => unregister_apply.trans (if_pos own)) placed rfl
      · refine settled.idle rfl rfl ?_ keeps (by simp [unregisters, Ne.symm same]) not_false
        intro name own
        exact unregister_apply.trans (if_neg fun equal => same (own.symm.trans equal))
  | readRow job =>
      obtain ⟨rfl, rfl⟩ := Prod.mk.inj (Option.some.inj advances)
      refine settled.passes keeps placed rfl ?_
      rintro rfl
      exact ⟨rfl, rfl⟩
  | registerRow job row =>
      obtain ⟨rfl, rfl⟩ := Prod.mk.inj (Option.some.inj advances)
      exact settled_registerRow sound present orderly rfl rfl rfl keeps
  | listEnabled =>
      obtain ⟨rfl, rfl⟩ := Prod.mk.inj (Option.some.inj advances)
      exact settled.passes keeps placed rfl fun _ => get?_enabledJobs
  | registerAll rows =>
      obtain ⟨rfl, rfl⟩ := Prod.mk.inj (Option.some.inj advances)
      exact settled_registerAll sound present orderly rfl rfl rfl keeps
  | writeTimezone timezone changed =>
      obtain ⟨rfl, rfl⟩ := Prod.mk.inj (Option.some.inj advances)
      exact settled.idle rfl rfl (fun _ _ => rfl) keeps rfl not_false
  | assignTimezone timezone changed =>
      simp only [advance] at advances
      split at advances <;> obtain ⟨rfl, rfl⟩ := Prod.mk.inj (Option.some.inj advances)
      case isTrue => exact .emptied (fun _ _ => rfl) placed trivial
      case isFalse unchanged =>
        simp only [Orderly, Scheduler.orderly, present, Option.all_some, Bool.and_eq_true] at orderly
        have same : timezone = state.timezone := by simpa [unchanged] using orderly.1
        exact settled.idle rfl same (fun _ _ => rfl) keeps rfl not_false
  | done | failed => cases advances

end Advance

/-! ## A run -/

/-- What a step leaves of the table of jobs: no id is drawn twice, and no job comes back. -/
structure Keeps (state next : Scheduler) : Prop where
  jobs : ∀ id job, next.jobs.get? id = some job → id < next.nextJob
  grows : state.nextJob ≤ next.nextJob
  absent : ∀ id, id < state.nextJob → state.jobs.get? id = none → next.jobs.get? id = none

theorem Keeps.of_same (sound : state.Sound) (jobs : next.jobs = state.jobs)
    (nextJob : next.nextJob = state.nextJob) : Keeps state next where
  jobs := by
    rw [jobs, nextJob]
    exact sound.jobs
  grows := Nat.le_of_eq nextJob.symm
  absent := by
    rw [jobs]
    exact fun _ _ absent => absent

theorem Keeps.update (hit : Uuid → BackupJob → Bool) (change : BackupJob → BackupJob)
    (sound : state.Sound) (jobs : next.jobs = state.jobs.update hit change)
    (nextJob : next.nextJob = state.nextJob) : Keeps state next where
  jobs := by
    intro id job found
    rw [jobs, Table.get?_update] at found
    obtain ⟨before, present, -⟩ := Option.map_eq_some_iff.mp found
    exact nextJob ▸ sound.jobs id before present
  grows := Nat.le_of_eq nextJob.symm
  absent := by
    intro id _ absent
    rw [jobs, Table.get?_update, absent]
    rfl

theorem Grounded.keeps (grounded : state.Grounded call) (keeps : Keeps state next) :
    next.Grounded call := by
  cases call with
  | write id write => exact Nat.lt_of_lt_of_le grounded keeps.grows
  | cleanUp id =>
      exact ⟨Nat.lt_of_lt_of_le grounded.1 keeps.grows, keeps.absent id grounded.1 grounded.2⟩
  | registerAll rows => exact grounded
  | insert | find | getRow | sync | readRow | registerRow | listEnabled | writeTimezone
  | assignTimezone | done | failed => trivial

theorem advance_keeps (sound : state.Sound) (member : call ∈ state.calls)
    (advances : state.advance runtime call = some (next, after)) :
    Keeps state next ∧ next.Grounded after := by
  cases call with
  | insert row =>
      obtain ⟨rfl, rfl⟩ := Prod.mk.inj (Option.some.inj advances)
      refine ⟨⟨?_, Nat.le_succ _, ?_⟩, trivial⟩
      · intro id job found
        by_cases same : id = state.nextJob
        · exact same ▸ Nat.lt_succ_self _
        · refine Nat.lt_succ_of_lt (sound.jobs id job ?_)
          rw [← found]
          exact (Table.get?_insert_of_ne same).symm
      · intro id below absent
        exact (Table.get?_insert_of_ne (Nat.ne_of_lt below)).trans absent
  | find id write =>
      simp only [advance] at advances
      split at advances <;> obtain ⟨rfl, rfl⟩ := Prod.mk.inj (Option.some.inj advances)
      case isTrue here =>
        obtain ⟨job, found⟩ := Option.isSome_iff_exists.mp here
        exact ⟨.of_same sound rfl rfl, sound.jobs id job found⟩
      case isFalse => exact ⟨.of_same sound rfl rfl, trivial⟩
  | write id write =>
      have below : id < state.nextJob := sound.calls _ member
      cases write with
      | patch patch =>
          obtain ⟨rfl, rfl⟩ := Prod.mk.inj (Option.some.inj advances)
          exact ⟨.update (fun key _ => key = id) (patch.apply state.now) sound rfl rfl, trivial⟩
      | integrityCheck config =>
          obtain ⟨rfl, rfl⟩ := Prod.mk.inj (Option.some.inj advances)
          exact ⟨.update (fun key _ => key = id)
            (fun job => { job with integrityCheck := config, updatedAt := state.now })
            sound rfl rfl, trivial⟩
      | delete =>
          obtain ⟨rfl, rfl⟩ := Prod.mk.inj (Option.some.inj advances)
          refine ⟨⟨?_, Nat.le_refl _, ?_⟩, below, Table.get?_delete_self⟩
          · intro other job found
            change (state.jobs.delete fun key _ => key = id).get? other = some job at found
            rw [Table.get?_delete, Option.filter_eq_some_iff] at found
            exact sound.jobs other job found.1
          · intro other _ absent
            change (state.jobs.delete fun key _ => key = id).get? other = none
            rw [Table.get?_delete, absent]
            rfl
  | getRow id =>
      simp only [advance] at advances
      split at advances <;> obtain ⟨rfl, rfl⟩ := Prod.mk.inj (Option.some.inj advances)
      all_goals exact ⟨.of_same sound rfl rfl, trivial⟩
  | listEnabled =>
      obtain ⟨rfl, rfl⟩ := Prod.mk.inj (Option.some.inj advances)
      refine ⟨.of_same sound rfl rfl, ?_, ?_⟩
      · intro entry listed
        exact (List.mem_filter.mp listed).2
      · exact state.jobs.distinct.sublist (List.filter_sublist.map Prod.fst)
  | assignTimezone timezone changed =>
      simp only [advance] at advances
      split at advances <;> obtain ⟨rfl, rfl⟩ := Prod.mk.inj (Option.some.inj advances)
      all_goals exact ⟨.of_same sound rfl rfl, trivial⟩
  | cleanUp | sync | readRow | registerRow | registerAll | writeTimezone =>
      obtain ⟨rfl, rfl⟩ := Prod.mk.inj (Option.some.inj advances)
      exact ⟨.of_same sound rfl rfl, trivial⟩
  | done | failed => cases advances

/-- Every call after a step is one of before, or grounded in its new phase. -/
theorem Sound.grounded (sound : state.Sound) (keeps : Keeps state next)
    (moved : next.Grounded after) {other : SchedulerCall}
    (member : other ∈ state.calls.set index after) : next.Grounded other := by
  rcases List.mem_or_eq_of_mem_set member with old | rfl
  · exact (sound.calls other old).keeps keeps
  · exact moved

/-- The cached zone is the stored one, or a call has yet to assign that. -/
def Zoned (state : Scheduler) (calls : List SchedulerCall) : Prop :=
  state.timezone = state.storedTimezone ∨
    ∃ changed, .assignTimezone state.storedTimezone changed ∈ calls

theorem advance_zoned (sound : state.Sound) (present : state.calls[index]? = some call)
    (orderly : Orderly runtime state (.proceed index))
    (advances : state.advance runtime call = some (next, after)) :
    next.Zoned (state.calls.set index after) := by
  have kept : next.timezone = state.timezone → next.storedTimezone = state.storedTimezone →
      (∀ stored changed, call ≠ .assignTimezone stored changed) →
      next.Zoned (state.calls.set index after) := by
    intro timezone stored other
    rw [Zoned, timezone, stored]
    refine sound.timezone.imp_right ?_
    rintro ⟨changed, member⟩
    exact ⟨changed, mem_set_of_ne present member (Ne.symm (other _ _))⟩
  cases call with
  | writeTimezone timezone changed =>
      obtain ⟨rfl, rfl⟩ := Prod.mk.inj (Option.some.inj advances)
      exact .inr ⟨changed, mem_advanced present⟩
  | assignTimezone timezone changed =>
      simp only [Orderly, Scheduler.orderly, present, Option.all_some, Bool.and_eq_true,
        Bool.or_eq_true, decide_eq_true_eq] at orderly
      have assigned : next.timezone = timezone ∧ next.storedTimezone = state.storedTimezone := by
        simp only [advance] at advances
        split at advances <;> obtain ⟨rfl, rfl⟩ := Prod.mk.inj (Option.some.inj advances)
        all_goals exact ⟨rfl, rfl⟩
      rw [Zoned, assigned.1, assigned.2]
      refine orderly.2.imp_right ?_
      intro pending
      obtain ⟨other, member, stored⟩ := List.any_eq_true.mp pending
      obtain ⟨place, found⟩ := List.mem_iff_getElem?.mp member
      cases other with
      | assignTimezone zone flag =>
          obtain rfl : zone = state.storedTimezone := by simpa using stored
          have elsewhere : index ≠ place := by
            rintro rfl
            rw [List.getElem?_set_self (List.getElem?_eq_some_iff.mp present).1] at found
            cases found
          refine ⟨flag, List.mem_iff_getElem?.mpr ⟨place, ?_⟩⟩
          rw [List.getElem?_set_ne elsewhere] at found ⊢
          exact found
      | _ => cases stored
  | insert | cleanUp | sync | readRow | registerRow | listEnabled | registerAll =>
      obtain ⟨rfl, rfl⟩ := Prod.mk.inj (Option.some.inj advances)
      exact kept rfl rfl (by simp)
  | find | getRow =>
      simp only [advance] at advances
      split at advances <;> obtain ⟨rfl, rfl⟩ := Prod.mk.inj (Option.some.inj advances)
      all_goals exact kept rfl rfl (by simp)
  | write id write =>
      cases write <;> obtain ⟨rfl, rfl⟩ := Prod.mk.inj (Option.some.inj advances)
      all_goals exact kept rfl rfl (by simp)
  | done | failed => cases advances

theorem Sound.advance (sound : state.Sound) (present : state.calls[index]? = some call)
    (orderly : Orderly runtime state (.proceed index))
    (advances : state.advance runtime call = some (next, after)) :
    Sound { next with calls := state.calls.set index after } := by
  obtain ⟨keeps, grounded⟩ := advance_keeps sound (List.mem_of_getElem? present) advances
  have zoned := advance_zoned sound present orderly advances
  refine ⟨keeps.jobs, ?_, zoned, settled_advance sound present orderly advances⟩
  intro other member
  have moved := sound.grounded keeps grounded member
  exact moved.keeps ⟨keeps.jobs, Nat.le_refl _, fun _ _ absent => absent⟩

/-- A call that begins, or one that is refused before its write, leaves the others. -/
theorem Sound.calls_changed (call : SchedulerCall) {calls : List SchedulerCall}
    (sound : state.Sound)
    (kept : ∀ other ∈ state.calls, other ≠ call → other ∈ calls)
    (grounded : ∀ other ∈ calls, state.Grounded other)
    (zone : ∀ stored changed, call ≠ .assignTimezone stored changed)
    (idle : ∀ id, state.unregisters id call = false ∧ ¬state.Underway id call) :
    Sound { state with calls := calls } where
  jobs := sound.jobs
  calls := by
    intro other member
    exact (grounded other member).keeps (.of_same sound rfl rfl)
  timezone := by
    refine sound.timezone.imp_right ?_
    rintro ⟨changed, member⟩
    exact ⟨changed, kept _ member (Ne.symm (zone _ _))⟩
  settled := fun id =>
    (sound.settled id).idle rfl rfl (fun _ _ => rfl) kept (idle id).1 (idle id).2

theorem Sound.begin (sound : state.Sound) (grounded : state.Grounded call) :
    (state.begin call).Sound := by
  refine sound.calls_changed .done ?_ ?_ nofun fun _ => ⟨rfl, not_false⟩
  · intro other member _
    exact List.mem_append_left _ member
  · intro other member
    rcases List.mem_append.mp member with old | new
    · exact sound.calls other old
    · exact List.mem_singleton.mp new ▸ grounded

theorem Sound.refused (sound : state.Sound) (present : state.calls[index]? = some call)
    (orderly : Orderly runtime state (.refuse index)) (refuses : refused call = some after) :
    Sound { state with calls := state.calls.set index after } := by
  have keeps : ∀ other ∈ state.calls, other ≠ call → other ∈ state.calls.set index after :=
    fun other member => mem_set_of_ne present member
  have failed : state.Grounded after → ∀ other ∈ state.calls.set index after,
      state.Grounded other := by
    intro grounded other member
    rcases List.mem_or_eq_of_mem_set member with old | rfl
    · exact sound.calls other old
    · exact grounded
  simp only [Orderly, Scheduler.orderly, present, Option.all_some] at orderly
  cases call with
  | insert | find | write | writeTimezone =>
      obtain rfl := Option.some.inj refuses
      exact sound.calls_changed _ keeps (failed trivial) nofun fun _ => ⟨rfl, not_false⟩
  | cleanUp | getRow | sync | readRow | registerRow | listEnabled | registerAll
  | assignTimezone | done | failed => cases orderly

theorem Sound.step (sound : state.Sound) (orderly : Orderly runtime state action)
    (moved : Scheduler.step runtime state action = some next) : next.Sound := by
  cases action with
  | create dto repository =>
      simp only [Scheduler.step] at moved
      split at moved
      case isTrue =>
        obtain rfl := Option.some.inj moved
        exact sound.begin trivial
      case isFalse => cases moved
  | update id patch =>
      simp only [Scheduler.step] at moved
      split at moved
      case isTrue =>
        obtain rfl := Option.some.inj moved
        exact sound.begin trivial
      case isFalse => cases moved
  | setIntegrityCheck id dto =>
      simp only [Scheduler.step] at moved
      split at moved
      case isTrue =>
        obtain rfl := Option.some.inj moved
        exact sound.begin trivial
      case isFalse => cases moved
  | remove id =>
      obtain rfl := Option.some.inj moved
      exact sound.begin trivial
  | syncAll =>
      obtain rfl := Option.some.inj moved
      have begun : (state.begin .listEnabled).Sound := sound.begin trivial
      refine ⟨begun.jobs, begun.calls, begun.timezone, fun id => ?_⟩
      exact .emptied (fun _ _ => rfl) (List.mem_append_right _ (List.mem_singleton_self _)) trivial
  | setTimezone timezone =>
      simp only [Scheduler.step] at moved
      split at moved
      case isTrue =>
        obtain rfl := Option.some.inj moved
        exact sound.begin trivial
      case isFalse => cases moved
  | proceed index =>
      obtain ⟨call, present, ran⟩ := Option.bind_eq_some_iff.mp moved
      obtain ⟨⟨changed, after⟩, advances, rfl⟩ := Option.map_eq_some_iff.mp ran
      exact sound.advance present orderly advances
  | refuse index =>
      obtain ⟨call, present, ran⟩ := Option.bind_eq_some_iff.mp moved
      obtain ⟨after, refuses, rfl⟩ := Option.map_eq_some_iff.mp ran
      exact sound.refused present orderly refuses
  | tick time =>
      simp only [Scheduler.step] at moved
      split at moved
      case isTrue =>
        obtain rfl := Option.some.inj moved
        refine ⟨sound.jobs, ?_, sound.timezone, fun id => ?_⟩
        · intro call member
          exact (sound.calls call member).keeps (.of_same sound rfl rfl)
        · exact (sound.settled id).frame rfl rfl (fun _ _ => rfl) (fun _ member _ => member)
            fun call member underway => ⟨call, member, underway.congr rfl⟩
      case isFalse => cases moved

theorem sound_of_reachable (reached : (scheduling runtime).Reachable (Orderly runtime) state) :
    state.Sound :=
  System.Invariant.holds {
    initial := by
      rintro state ⟨jobs, timezone, registry, calls⟩
      have member : .listEnabled ∈ state.calls := calls ▸ List.mem_singleton_self _
      refine ⟨jobs, ?_, .inl timezone, fun id => .emptied ?_ member trivial⟩
      · intro call listed
        rw [calls, List.mem_singleton] at listed
        exact listed ▸ trivial
      · intro name _
        rw [registry]
    step := fun _ _ _ sound orderly moved => sound.step orderly moved } reached

/-- A call at its end neither unregisters nor registers anything. -/
theorem idle_of_finished (rests : finished call = true) :
    state.unregisters id call = false ∧ ¬state.Underway id call := by
  cases call with
  | done | failed => exact ⟨rfl, not_false⟩
  | _ => cases rests

end Scheduler

open Scheduler

/-- Expressions of five fields, and every time zone. -/
def fiveFields : CronRuntime where
  validCron expr := (expr.toList.count ' ') = 4
  accepts expr _ := (expr.toList.count ' ') = 4
  isValidTimezone _ := true

def nightly : CreateJobDto where
  name := "nightly"
  location := .«local»
  paths := ["/srv"]
  repoPassword := "secret"
  cronExpr := "0 3 * * *"

/-- A job is created and scheduled. -/
def scheduled : List SchedulerAction :=
  [.proceed 0, .proceed 0, .create nightly 0, .proceed 1, .proceed 1, .proceed 1, .proceed 1,
    .proceed 1]

end AmberBackup
