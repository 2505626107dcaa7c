import AmberBackup.GoAgent.Types
import AmberBackup.Lib.Transition
import Mathlib.Data.List.Perm.Basic

/-! # The agent's poll loop and its worker

The poll loop accepts tasks, one goroutine for each hands it to the worker through a
channel, and the worker executes one at a time. They share the set of task ids in flight
and a counter the poll loop reads before it updates the agent. Every accepted task is in one
place: with the poll loop, its sender, the channel, or the worker, or it was executed
(`AgentProcess.Sound`). So every task that arrives is executed once, unless one of its id is
in flight, and the agent only updates itself while it has nothing to do
(`agent_loses_no_task`).
-/

namespace AmberBackup.GoAgent

/-- A task the poll loop accepted, numbered in the order of acceptance. -/
structure Accepted where
  number : Nat
  task : Task
  deriving DecidableEq, Repr

/-- `worker`, between its statements. -/
inductive WorkerPhase where
  | receiving
  | running (accepted : Accepted)
  /-- `runTask` has returned. -/
  | returned (accepted : Accepted)
  /-- The id is no longer in flight, the counter still counts the task. -/
  | cleared (accepted : Accepted)
  deriving DecidableEq, Repr

/-- `pollLoop` and the `enqueue` it calls, between their statements. -/
inductive LoopPhase where
  | polling
  | enqueuing (rest : List Task) (latest : String)
  /-- `enqueue` has marked the task's id and unlocked. -/
  | counting (accepted : Accepted) (rest : List Task) (latest : String)
  /-- It has counted the task and is about to start its sender. -/
  | sending (accepted : Accepted) (rest : List Task) (latest : String)
  | reading (latest : String)
  | updating (latest : String)
  | sleeping
  /-- The process was replaced by the new binary, or has exited. -/
  | replaced
  deriving DecidableEq, Repr

/-- What became of a task when `enqueue` returned. -/
inductive Arrival where
  | enqueued (accepted : Accepted)
  /-- Dropped, next to the accepted task of the same id that is in flight, if any. -/
  | dropped (task : Task) (inFlight : Option Accepted)
  deriving DecidableEq, Repr

def Arrival.task : Arrival → Task
  | .enqueued accepted => accepted.task
  | .dropped task _ => task

/-- The beginnings and the ends of `runTask`. -/
inductive WorkEvent where
  | started (accepted : Accepted)
  | finished (accepted : Accepted)
  deriving DecidableEq, Repr

/-- The capacity of the channel `tasks`. -/
def channelCapacity : Nat := 64

/-- The running agent. `active` counts goroutines and tasks the process holds in memory,
far fewer than an `int32` counts up to. -/
structure AgentProcess where
  inflight : Uuid → Bool := fun _ => false
  active : Int := 0
  /-- Goroutines at `a.tasks <- t`; any of them may go on next. -/
  senders : List Accepted := []
  tasks : List Accepted := []
  worker : WorkerPhase := .receiving
  loop : LoopPhase := .polling
  /-- How many tasks were accepted so far. -/
  accepted : Nat := 0
  /-- The tasks of all responses. -/
  received : List Task := []
  arrivals : List Arrival := []
  journal : List WorkEvent := []

/-- The task the poll loop is handing over. -/
def LoopPhase.handing : LoopPhase → List Accepted
  | .counting accepted _ _ | .sending accepted _ _ => [accepted]
  | _ => []

/-- The tasks of the response that are still to be handed over. -/
def LoopPhase.pending : LoopPhase → List Task
  | .enqueuing rest _ => rest
  | .counting accepted rest _ | .sending accepted rest _ => accepted.task :: rest
  | _ => []

/-- `maybeSelfUpdate` has been entered. -/
def LoopPhase.updates : LoopPhase → Bool
  | .updating _ | .replaced => true
  | _ => false

/-- The task the worker has in flight. -/
def WorkerPhase.inFlight : WorkerPhase → List Accepted
  | .running accepted | .returned accepted => [accepted]
  | .receiving | .cleared _ => []

/-- The execution of the worker. -/
def WorkerPhase.execution : WorkerPhase → Option Accepted
  | .running accepted => some accepted
  | _ => none

def WorkerPhase.counts : WorkerPhase → Nat
  | .receiving => 0
  | _ => 1

def LoopPhase.counts : LoopPhase → Nat
  | .sending .. => 1
  | _ => 0

/-- The tasks in flight. -/
def AgentProcess.held (process : AgentProcess) : List Accepted :=
  process.loop.handing ++ (process.senders ++ (process.tasks ++ process.worker.inFlight))

inductive AgentAction where
  /-- `poll` returns tasks and the latest version, or an error. -/
  | poll (response : Option (List Task × String))
  | enqueue
  /-- A sender's send goes through. -/
  | send (sender : Nat)
  | receive
  | finish
  | clear
  | discount
  | read
  | update (replaces : Bool)
  | wake
  deriving DecidableEq, Repr

/-- `pollLoop` and `enqueue`. -/
def AgentProcess.enqueue (process : AgentProcess) : Option AgentProcess :=
  match process.loop with
  | .enqueuing [] latest => some { process with loop := .reading latest }
  | .enqueuing (task :: rest) latest =>
      if process.inflight task.taskId then
        some { process with
          loop := .enqueuing rest latest
          arrivals := process.arrivals ++ [.dropped task
            (process.held.find? fun other => other.task.taskId = task.taskId)] }
      else
        some { process with
          inflight := fun id => id = task.taskId || process.inflight id
          loop := .counting ⟨process.accepted, task⟩ rest latest
          accepted := process.accepted + 1 }
  | .counting accepted rest latest =>
      some { process with active := process.active + 1, loop := .sending accepted rest latest }
  | .sending accepted rest latest =>
      some { process with
        senders := process.senders ++ [accepted]
        loop := .enqueuing rest latest
        arrivals := process.arrivals ++ [.enqueued accepted] }
  | _ => none

/-- One step of a goroutine; a replaced process takes none. -/
def AgentProcess.step (process : AgentProcess) (action : AgentAction) : Option AgentProcess :=
  if process.loop = .replaced then none
  else
    match action, process.loop, process.worker with
    | .poll none, .polling, _ => some { process with loop := .sleeping }
    | .poll (some (tasks, latest)), .polling, _ =>
        some { process with
          loop := .enqueuing tasks latest, received := process.received ++ tasks }
    | .enqueue, _, _ => process.enqueue
    | .send sender, _, _ =>
        (process.senders[sender]?).bind fun accepted =>
          if process.tasks.length < channelCapacity then
            some { process with
              senders := process.senders.eraseIdx sender
              tasks := process.tasks ++ [accepted] }
          else none
    | .receive, _, .receiving =>
        match process.tasks with
        | [] => none
        | accepted :: rest =>
            some { process with
              tasks := rest
              worker := .running accepted
              journal := process.journal ++ [.started accepted] }
    | .finish, _, .running accepted =>
        some { process with
          worker := .returned accepted, journal := process.journal ++ [.finished accepted] }
    | .clear, _, .returned accepted =>
        some { process with
          worker := .cleared accepted
          inflight := fun id => id ≠ accepted.task.taskId && process.inflight id }
    | .discount, _, .cleared _ =>
        some { process with worker := .receiving, active := process.active - 1 }
    | .read, .reading latest, _ =>
        some { process with
          loop := if process.active = 0 then .updating latest else .sleeping }
    | .update replaces, .updating _, _ =>
        some { process with loop := if replaces then .replaced else .sleeping }
    | .wake, .sleeping, _ => some { process with loop := .polling }
    | _, _, _ => none

/-- The agent, from its start on. -/
def agentProcess : Transition.System AgentProcess AgentAction where
  initial := fun process => process = {}
  step := AgentProcess.step

/-- What follows an event, from the execution that is going on; executions do not
overlap. -/
def WorkEvent.next : Option Accepted → WorkEvent → Option (Option Accepted)
  | none, .started accepted => some (some accepted)
  | some running, .finished accepted => if accepted = running then some none else none
  | _, _ => none

/-- The execution going on after a journal; nothing if executions overlapped. -/
def executing (journal : List WorkEvent) : Option (Option Accepted) :=
  journal.foldlM WorkEvent.next none

def WorkEvent.start : WorkEvent → Option Nat
  | .started accepted => some accepted.number
  | .finished _ => none

namespace AgentProcess

variable (process : AgentProcess)

/-- The numbers of the tasks whose execution has begun. -/
def starts : List Nat := process.journal.filterMap WorkEvent.start

/-- The accepted tasks that are not executed yet. -/
def waiting : List Accepted :=
  process.loop.handing ++ (process.senders ++ process.tasks)

/-- The accepted tasks whose execution has not ended. -/
def unfinished : List Accepted :=
  process.waiting ++ process.worker.execution.toList

/-- What the counter counts. -/
def counted : Nat :=
  process.loop.counts + (process.senders.length + (process.tasks.length + process.worker.counts))

/-- What becomes of an arrival: its task has been handed on, or one of its id was in
flight. -/
def Handled : Arrival → Prop
  | .enqueued accepted =>
      accepted.number ∈ (process.senders ++ process.tasks).map Accepted.number ++ process.starts
  | .dropped task inFlight => ∃ other, inFlight = some other ∧ other.task.taskId = task.taskId

/-- What is to become of an arrival once the agent has nothing to do: its task was run
once, unless one of its id was in flight. -/
def RunOnce : Arrival → Prop
  | .enqueued accepted => process.starts.count accepted.number = 1
  | .dropped task inFlight => ∃ other, inFlight = some other ∧ other.task.taskId = task.taskId

/-- Every accepted task is in one place, and what the goroutines share says where. -/
structure Sound : Prop where
  inflight : ∀ id, process.inflight id = true ↔ ∃ other ∈ process.held, other.task.taskId = id
  distinct : (process.held.map fun other => other.task.taskId).Nodup
  places : (process.waiting.map Accepted.number ++ process.starts).Perm
    (List.range process.accepted)
  active : process.active = process.counted
  journal : executing process.journal = some process.worker.execution
  arrivals : ∀ arrival ∈ process.arrivals, process.Handled arrival
  received : process.received = process.arrivals.map Arrival.task ++ process.loop.pending
  updating : process.loop.updates = true →
    process.senders = [] ∧ process.tasks = [] ∧ process.worker = .receiving

variable {process} {next : AgentProcess}

/-- The numbers of the accepted tasks that have left the poll loop. -/
def handedOn (process : AgentProcess) : List Nat :=
  (process.senders ++ process.tasks).map Accepted.number ++ process.starts

theorem handled_iff {arrival : Arrival} : process.Handled arrival ↔
    (∃ accepted, arrival = .enqueued accepted ∧ accepted.number ∈ process.handedOn) ∨
      ∃ task other, arrival = .dropped task (some other) ∧ other.task.taskId = task.taskId := by
  cases arrival with
  | enqueued accepted => simp [Handled, handedOn]
  | dropped task inFlight =>
      constructor
      · rintro ⟨other, rfl, same⟩
        exact .inr ⟨task, other, rfl, same⟩
      · rintro (⟨_, ⟨⟩, _⟩ | ⟨_, other, ⟨⟩, same⟩)
        exact ⟨other, rfl, same⟩

/-- An arrival stays handled as long as no task is taken back. -/
theorem Handled.mono (kept : process.handedOn ⊆ next.handedOn) {arrival : Arrival}
    (handled : process.Handled arrival) : next.Handled arrival := by
  rw [handled_iff] at handled ⊢
  rcases handled with ⟨accepted, here, member⟩ | dropped
  · exact .inl ⟨accepted, here, kept member⟩
  · exact .inr dropped

/-- A step that only moves accepted tasks from one place to another. -/
theorem Sound.moved (sound : process.Sound) (inflight : next.inflight = process.inflight)
    (held : next.held.Perm process.held)
    (places : (next.waiting.map Accepted.number ++ next.starts).Perm
      (process.waiting.map Accepted.number ++ process.starts))
    (accepted : next.accepted = process.accepted)
    (active : next.active - next.counted = process.active - process.counted)
    (journal : executing next.journal = some next.worker.execution)
    (handed : process.handedOn ⊆ next.handedOn)
    (arrivals : ∀ arrival ∈ next.arrivals, arrival ∈ process.arrivals ∨ next.Handled arrival)
    (received : next.received = next.arrivals.map Arrival.task ++ next.loop.pending)
    (updating : next.loop.updates = true →
      next.senders = [] ∧ next.tasks = [] ∧ next.worker = .receiving) : next.Sound where
  inflight := by
    intro id
    rw [inflight, sound.inflight]
    simp only [held.mem_iff]
  distinct := ((held.map _).nodup_iff).mpr sound.distinct
  places := by
    rw [accepted]
    exact places.trans sound.places
  active := by
    have before := sound.active
    omega
  journal := journal
  arrivals := by
    intro arrival member
    rcases arrivals arrival member with old | handled
    · exact (sound.arrivals arrival old).mono handed
    · exact handled
  received := received
  updating := updating

theorem executing_append {journal : List WorkEvent} {event : WorkEvent} :
    executing (journal ++ [event]) = (executing journal).bind fun running =>
      WorkEvent.next running event := by
  simp [executing, List.foldlM_append]

theorem sound_initial : AgentProcess.Sound {} where
  inflight := by simp [held, LoopPhase.handing, WorkerPhase.inFlight]
  distinct := by simp [held, LoopPhase.handing, WorkerPhase.inFlight]
  places := by simp [waiting, starts, LoopPhase.handing]
  active := rfl
  journal := rfl
  arrivals := by simp
  received := rfl
  updating := by simp [LoopPhase.updates]

/-- The poll loop goes from one phase without a task in hand to another. -/
theorem Sound.loop (sound : process.Sound) {phase : LoopPhase} {received : List Task}
    (fromIdle : process.loop.handing = []) (toIdle : phase.handing = [])
    (pending : received = process.arrivals.map Arrival.task ++ phase.pending)
    (updating : phase.updates = true →
      process.senders = [] ∧ process.tasks = [] ∧ process.worker = .receiving) :
    Sound { process with loop := phase, received := received } := by
  refine sound.moved rfl ?_ ?_ rfl ?_ sound.journal (List.Subset.refl _)
    (fun arrival member => .inl member) pending updating
  · simp [held, fromIdle, toIdle]
  · simp [waiting, starts, fromIdle, toIdle]
  · have counts : ∀ {phase : LoopPhase}, phase.handing = [] → phase.counts = 0 := by
      intro phase idle
      cases phase <;> simp_all [LoopPhase.handing, LoopPhase.counts]
    simp only [counted, counts fromIdle, counts toIdle]

/-- An accepted task is marked before it is counted. -/
theorem Sound.accept (sound : process.Sound) {task : Task} {rest : List Task} {latest : String}
    (here : process.loop = .enqueuing (task :: rest) latest)
    (fresh : process.inflight task.taskId = false) :
    Sound { process with
      inflight := fun id => id = task.taskId || process.inflight id
      loop := .counting ⟨process.accepted, task⟩ rest latest
      accepted := process.accepted + 1 } where
  inflight := by
    intro id
    have before := sound.inflight id
    simp only [held, here, LoopPhase.handing, List.nil_append] at before
    simp only [held, LoopPhase.handing, List.cons_append, List.nil_append, Bool.or_eq_true,
      decide_eq_true_eq, before, List.exists_mem_cons_iff, eq_comm (a := id)]
  distinct := by
    have before := sound.distinct
    have absent : ¬ ∃ other ∈ process.held, other.task.taskId = task.taskId := by
      rw [← sound.inflight, fresh]
      exact Bool.false_ne_true
    simp only [held, here, LoopPhase.handing, List.nil_append] at before absent
    simp only [held, LoopPhase.handing, List.cons_append, List.nil_append, List.map_cons,
      List.nodup_cons]
    refine ⟨?_, before⟩
    rintro member
    obtain ⟨other, inHeld, same⟩ := List.mem_map.mp member
    exact absent ⟨other, inHeld, same⟩
  places := by
    have before := sound.places
    simp only [waiting, here, LoopPhase.handing, List.nil_append] at before
    rw [List.range_succ]
    simp only [waiting, LoopPhase.handing, List.cons_append, List.nil_append, List.map_cons]
    exact (before.cons _).trans (List.perm_append_singleton _ _).symm
  active := by
    have before := sound.active
    simp only [counted, here, LoopPhase.counts] at before
    simp only [counted, LoopPhase.counts, before]
  journal := sound.journal
  arrivals := fun arrival member => (sound.arrivals arrival member).mono (List.Subset.refl _)
  received := by
    rw [sound.received, here]
    rfl
  updating := by simp [LoopPhase.updates]

/-- A task that is dropped has one of its id in flight. -/
theorem Sound.drop (sound : process.Sound) {task : Task} {rest : List Task} {latest : String}
    (here : process.loop = .enqueuing (task :: rest) latest)
    (taken : process.inflight task.taskId = true) :
    Sound { process with
      loop := .enqueuing rest latest
      arrivals := process.arrivals ++ [.dropped task
        (process.held.find? fun other => other.task.taskId = task.taskId)] } := by
  obtain ⟨other, inHeld, same⟩ := (sound.inflight _).mp taken
  refine sound.moved rfl ?_ ?_ rfl ?_ sound.journal (List.Subset.refl _) ?_ ?_ ?_
  · simp [held, here, LoopPhase.handing]
  · simp [waiting, starts, here, LoopPhase.handing]
  · simp [counted, here, LoopPhase.counts]
  · intro arrival member
    rcases List.mem_append.mp member with old | new
    · exact .inl old
    · obtain rfl := List.mem_singleton.mp new
      cases found : process.held.find? fun other => other.task.taskId = task.taskId with
      | none =>
          have none := List.find?_eq_none.mp found other inHeld
          simp only [same, decide_true, not_true_eq_false] at none
      | some first =>
          have first_same := List.find?_some found
          exact .inr ⟨first, rfl, by simpa using first_same⟩
  · simp [sound.received, here, LoopPhase.pending, Arrival.task]
  · simp [LoopPhase.updates]

theorem Sound.count (sound : process.Sound) {accepted : Accepted} {rest : List Task}
    {latest : String} (here : process.loop = .counting accepted rest latest) :
    Sound { process with active := process.active + 1, loop := .sending accepted rest latest } := by
  refine sound.moved rfl ?_ ?_ rfl ?_ sound.journal (List.Subset.refl _)
    (fun arrival member => .inl member) ?_ ?_
  · simp [held, here, LoopPhase.handing]
  · simp [waiting, starts, here, LoopPhase.handing]
  · simp only [counted, here, LoopPhase.counts]
    omega
  · simp [sound.received, here, LoopPhase.pending]
  · simp [LoopPhase.updates]

/-- The sender of a counted task is started. -/
theorem Sound.spawn (sound : process.Sound) {accepted : Accepted} {rest : List Task}
    {latest : String} (here : process.loop = .sending accepted rest latest) :
    Sound { process with
      senders := process.senders ++ [accepted]
      loop := .enqueuing rest latest
      arrivals := process.arrivals ++ [.enqueued accepted] } := by
  refine sound.moved rfl ?_ ?_ rfl ?_ sound.journal ?_ ?_ ?_ ?_
  · simp only [held, here, LoopPhase.handing, List.nil_append, List.append_assoc]
    exact List.perm_append_comm_assoc _ _ _
  · refine List.Perm.append_right _ (List.Perm.map _ ?_)
    simp only [waiting, here, LoopPhase.handing, List.nil_append, List.append_assoc]
    exact List.perm_append_comm_assoc _ _ _
  · simp only [counted, here, LoopPhase.counts, List.length_append, List.length_singleton]
    omega
  · intro number member
    simp only [handedOn, starts, List.mem_append, List.mem_map] at member ⊢
    grind
  · intro arrival member
    rcases List.mem_append.mp member with old | new
    · exact .inl old
    · obtain rfl := List.mem_singleton.mp new
      exact .inr (by simp [Handled])
  · simp [sound.received, here, LoopPhase.pending, Arrival.task]
  · simp [LoopPhase.updates]

/-- Whichever sender goes on, its task reaches the channel. -/
theorem Sound.send (sound : process.Sound) {accepted : Accepted} {sender : Nat}
    (found : process.senders[sender]? = some accepted) :
    Sound { process with
      senders := process.senders.eraseIdx sender
      tasks := process.tasks ++ [accepted] } := by
  obtain ⟨below, entry⟩ := List.getElem?_eq_some_iff.mp found
  have taken : (accepted :: process.senders.eraseIdx sender).Perm process.senders :=
    entry ▸ List.getElem_cons_eraseIdx_perm below
  have handed : (process.senders.eraseIdx sender ++ (process.tasks ++ [accepted])).Perm
      (process.senders ++ process.tasks) := by
    calc
      (process.senders.eraseIdx sender ++ (process.tasks ++ [accepted])).Perm
          (accepted :: (process.senders.eraseIdx sender ++ process.tasks)) := by
        rw [← List.append_assoc]
        exact List.perm_append_singleton _ _
      List.Perm _ (process.senders ++ process.tasks) := taken.append_right process.tasks
  refine sound.moved rfl ?_ ?_ rfl ?_ sound.journal ?_ (fun arrival member => .inl member)
    sound.received ?_
  · refine List.Perm.append_left _ ?_
    have := handed.append_right process.worker.inFlight
    simpa only [List.append_assoc] using this
  · exact List.Perm.append_right _ (List.Perm.map _ (handed.append_left _))
  · have lengths := handed.length_eq
    simp only [List.length_append] at lengths
    simp only [counted, List.length_append]
    omega
  · intro number member
    exact ((handed.map Accepted.number).append_right process.starts).mem_iff.mpr member
  · intro updates
    obtain ⟨none, -⟩ := sound.updating updates
    rw [none] at found
    cases found

theorem Sound.receive (sound : process.Sound) {accepted : Accepted} {rest : List Accepted}
    (idle : process.worker = .receiving) (here : process.tasks = accepted :: rest) :
    Sound { process with
      tasks := rest
      worker := .running accepted
      journal := process.journal ++ [.started accepted] } := by
  refine sound.moved rfl ?_ ?_ rfl ?_ ?_ ?_ (fun arrival member => .inl member)
    sound.received ?_
  · refine List.Perm.append_left _ (List.Perm.append_left _ ?_)
    rw [here, idle]
    simp only [WorkerPhase.inFlight, List.append_nil]
    exact List.perm_append_singleton _ _
  · simp only [waiting, starts, here, List.map_append, List.map_cons, List.filterMap_append,
      List.append_assoc, List.cons_append]
    refine List.Perm.append_left _ (List.Perm.append_left _ ?_)
    rw [← List.append_assoc]
    exact List.perm_append_singleton _ _
  · simp only [counted, here, idle, WorkerPhase.counts, List.length_cons, Nat.add_assoc,
      Nat.add_comm 1]
  · rw [executing_append, sound.journal, idle]
    rfl
  · intro number member
    simp only [handedOn, starts, here, List.mem_append, List.map_append, List.map_cons,
      List.mem_cons, List.filterMap_append, List.filterMap_cons, WorkEvent.start,
      List.filterMap_nil, List.not_mem_nil, or_false] at member ⊢
    grind
  · intro updates
    obtain ⟨-, none, -⟩ := sound.updating updates
    rw [none] at here
    cases here

theorem Sound.finish (sound : process.Sound) {accepted : Accepted}
    (here : process.worker = .running accepted) :
    Sound { process with
      worker := .returned accepted, journal := process.journal ++ [.finished accepted] } := by
  have starts : (process.journal ++ [WorkEvent.finished accepted]).filterMap WorkEvent.start =
      process.journal.filterMap WorkEvent.start := by
    simp [WorkEvent.start]
  refine sound.moved rfl ?_ ?_ rfl ?_ ?_ ?_ (fun arrival member => .inl member)
    sound.received ?_
  · simp [held, here, WorkerPhase.inFlight]
  · simp only [AgentProcess.starts, starts]
    exact List.Perm.refl _
  · simp only [counted, here, WorkerPhase.counts]
  · rw [executing_append, sound.journal, here]
    simp [WorkerPhase.execution, WorkEvent.next]
  · intro number member
    simp only [handedOn, AgentProcess.starts, starts] at member ⊢
    exact member
  · intro updates
    obtain ⟨-, -, idle⟩ := sound.updating updates
    rw [here] at idle
    cases idle

/-- The id of an executed task is in flight no more, and no other is taken out. -/
theorem Sound.clear (sound : process.Sound) {accepted : Accepted}
    (here : process.worker = .returned accepted) :
    Sound { process with
      worker := .cleared accepted
      inflight := fun id => id ≠ accepted.task.taskId && process.inflight id } := by
  have before := sound.inflight
  have distinct := sound.distinct
  simp only [held, here, WorkerPhase.inFlight, ← List.append_assoc] at before distinct
  rw [List.map_append, List.nodup_append] at distinct
  obtain ⟨others, -, apart⟩ := distinct
  refine ⟨?_, ?_, sound.places, ?_, ?_, ?_, sound.received, ?_⟩
  · intro id
    simp only [held, WorkerPhase.inFlight, List.append_nil, ← List.append_assoc, before,
      Bool.and_eq_true, decide_eq_true_eq]
    constructor
    · rintro ⟨different, other, member, rfl⟩
      rcases List.mem_append.mp member with inHeld | last
      · exact ⟨other, inHeld, rfl⟩
      · exact absurd (congrArg (·.task.taskId) (List.mem_singleton.mp last)) different
    · rintro ⟨other, member, rfl⟩
      refine ⟨?_, other, List.mem_append_left _ member, rfl⟩
      exact apart _ (List.mem_map_of_mem member) _ (List.mem_map_of_mem (List.mem_singleton_self _))
  · simpa only [held, WorkerPhase.inFlight, List.append_nil, ← List.append_assoc] using others
  · have active := sound.active
    simp only [counted, here, WorkerPhase.counts] at active ⊢
    exact active
  · have journal := sound.journal
    rw [here] at journal
    exact journal
  · exact fun arrival member => (sound.arrivals arrival member).mono (List.Subset.refl _)
  · intro updates
    obtain ⟨-, -, idle⟩ := sound.updating updates
    rw [here] at idle
    cases idle

theorem Sound.discount (sound : process.Sound) {accepted : Accepted}
    (here : process.worker = .cleared accepted) :
    Sound { process with worker := .receiving, active := process.active - 1 } := by
  refine sound.moved rfl ?_ (List.Perm.refl _) rfl ?_ ?_ (List.Subset.refl _)
    (fun arrival member => .inl member) sound.received ?_
  · simp [held, here, WorkerPhase.inFlight]
  · simp only [counted, here, WorkerPhase.counts]
    omega
  · rw [sound.journal, here]
    rfl
  · intro updates
    obtain ⟨senders, tasks, -⟩ := sound.updating updates
    exact ⟨senders, tasks, rfl⟩

/-- A counter that reads zero shows that nothing was accepted that is not executed. -/
theorem Sound.nothing_counted (sound : process.Sound) (zero : process.active = 0) :
    process.senders = [] ∧ process.tasks = [] ∧ process.worker = .receiving := by
  have counted := sound.active
  simp only [zero, AgentProcess.counted] at counted
  refine ⟨List.length_eq_zero_iff.mp (by omega), List.length_eq_zero_iff.mp (by omega), ?_⟩
  cases here : process.worker with
  | receiving => rfl
  | running _ | returned _ | cleared _ =>
      rw [here] at counted
      simp only [WorkerPhase.counts] at counted
      omega

theorem Sound.enqueue (sound : process.Sound) (moved : process.enqueue = some next) :
    next.Sound := by
  unfold AgentProcess.enqueue at moved
  split at moved
  case h_1 latest here =>
    obtain rfl := Option.some.inj moved
    exact sound.loop (by rw [here]; rfl) rfl (by rw [sound.received, here]; rfl) nofun
  case h_2 task rest latest here =>
    split at moved
    case isTrue taken =>
      obtain rfl := Option.some.inj moved
      exact sound.drop here taken
    case isFalse fresh =>
      obtain rfl := Option.some.inj moved
      exact sound.accept here (Bool.eq_false_iff.mpr fresh)
  case h_3 accepted rest latest here =>
    obtain rfl := Option.some.inj moved
    exact sound.count here
  case h_4 accepted rest latest here =>
    obtain rfl := Option.some.inj moved
    exact sound.spawn here
  case h_5 => cases moved

/-- Every step of a goroutine keeps each accepted task in one place. -/
theorem Sound.step (sound : process.Sound) {action : AgentAction}
    (moved : process.step action = some next) : next.Sound := by
  unfold AgentProcess.step at moved
  split at moved
  case isTrue => cases moved
  case isFalse alive =>
    split at moved
    case h_1 here =>
      obtain rfl := Option.some.inj moved
      exact sound.loop (by rw [here]; rfl) rfl (by rw [sound.received, here]; rfl) nofun
    case h_2 tasks latest here =>
      obtain rfl := Option.some.inj moved
      refine sound.loop (by rw [here]; rfl) rfl ?_ nofun
      simp [sound.received, here, LoopPhase.pending]
    case h_3 => exact sound.enqueue moved
    case h_4 sender =>
      obtain ⟨accepted, found, sent⟩ := Option.bind_eq_some_iff.mp moved
      split at sent
      case isFalse => cases sent
      case isTrue =>
        obtain rfl := Option.some.inj sent
        exact sound.send found
    case h_5 idle =>
      split at moved
      case h_1 => cases moved
      case h_2 accepted rest here =>
        obtain rfl := Option.some.inj moved
        exact sound.receive idle here
    case h_6 accepted here =>
      obtain rfl := Option.some.inj moved
      exact sound.finish here
    case h_7 accepted here =>
      obtain rfl := Option.some.inj moved
      exact sound.clear here
    case h_8 accepted here =>
      obtain rfl := Option.some.inj moved
      exact sound.discount here
    case h_9 latest here =>
      obtain rfl := Option.some.inj moved
      split
      case isTrue zero =>
        exact sound.loop (by rw [here]; rfl) rfl (by rw [sound.received, here]; rfl)
          fun _ => sound.nothing_counted zero
      case isFalse =>
        exact sound.loop (by rw [here]; rfl) rfl (by rw [sound.received, here]; rfl) nofun
    case h_10 replaces latest here =>
      obtain rfl := Option.some.inj moved
      have idle := sound.updating (by rw [here]; rfl)
      cases replaces with
      | true =>
          exact sound.loop (by rw [here]; rfl) rfl (by rw [sound.received, here]; rfl) fun _ => idle
      | false =>
          exact sound.loop (by rw [here]; rfl) rfl (by rw [sound.received, here]; rfl) nofun
    case h_11 here =>
      obtain rfl := Option.some.inj moved
      exact sound.loop (by rw [here]; rfl) rfl (by rw [sound.received, here]; rfl) nofun
    case h_12 => cases moved

theorem sound_of_reachable (reached : agentProcess.Reachable (fun _ _ => True) process) :
    process.Sound := by
  refine Transition.System.Invariant.holds ⟨?_, ?_⟩ reached
  · rintro process rfl
    exact sound_initial
  · intro process action next sound _ moved
    exact sound.step moved

theorem Sound.starts_nodup (sound : process.Sound) : process.starts.Nodup := by
  have numbers : (process.waiting.map Accepted.number ++ process.starts).Nodup :=
    sound.places.nodup_iff.mpr List.nodup_range
  exact (List.nodup_append.mp numbers).2.1

/-- With no sender and nothing in the channel, what was handed on has been started. -/
theorem Sound.run_once (sound : process.Sound) (senders : process.senders = [])
    (tasks : process.tasks = []) {arrival : Arrival} (member : arrival ∈ process.arrivals) :
    process.RunOnce arrival := by
  have handled := sound.arrivals arrival member
  cases arrival with
  | enqueued accepted =>
      simp only [Handled, senders, tasks, List.append_nil, List.map_nil, List.nil_append] at handled
      exact List.count_eq_one_of_mem sound.starts_nodup handled
  | dropped task inFlight => exact handled

theorem Sound.unfinished_le_active (sound : process.Sound) {latest : String}
    (here : process.loop = .reading latest) : (process.unfinished.length : Int) ≤ process.active := by
  have execution : process.worker.execution.toList.length ≤ process.worker.counts := by
    cases process.worker <;> simp [WorkerPhase.execution, WorkerPhase.counts]
  rw [sound.active]
  simp only [unfinished, waiting, here, LoopPhase.handing, counted, LoopPhase.counts,
    List.length_append, List.length_nil]
  omega

theorem Sound.unfinished_of_updates (sound : process.Sound) (updates : process.loop.updates = true) :
    process.unfinished = [] := by
  obtain ⟨senders, tasks, idle⟩ := sound.updating updates
  have handing : process.loop.handing = [] := by
    cases here : process.loop <;> rw [here] at updates <;> first | rfl | cases updates
  simp [unfinished, waiting, senders, tasks, idle, handing, WorkerPhase.execution]

theorem Sound.active_of_finished (sound : process.Sound) (waiting : process.waiting = [])
    (idle : process.worker = .receiving) : process.active = 0 := by
  simp only [AgentProcess.waiting, List.append_eq_nil_iff] at waiting
  obtain ⟨handing, senders, tasks⟩ := waiting
  have counts : process.loop.counts = 0 := by
    cases here : process.loop <;> rw [here] at handing <;> first | rfl | cases handing
  rw [sound.active]
  simp [counted, senders, tasks, idle, counts, WorkerPhase.counts]

end AgentProcess

open AgentProcess in
/-- **The agent loses and duplicates no task.** However the goroutines are scheduled: once
no sender, channel or worker holds a task, each task that arrived was run once unless one of
its id was in flight, and those still to arrive are with the poll loop; no accepted task is
run twice; no two executions overlap; the counter the poll loop reads is no less than the
accepted tasks that are not finished, and zero once all are finished and discounted; and the
agent updates itself only when no accepted task is unfinished. -/
theorem agent_loses_no_task {process : AgentProcess}
    (reached : agentProcess.Reachable (fun _ _ => True) process) :
    (process.senders = [] → process.tasks = [] → process.worker = .receiving →
      process.received = process.arrivals.map Arrival.task ++ process.loop.pending ∧
        ∀ arrival ∈ process.arrivals, process.RunOnce arrival) ∧
    process.starts.Nodup ∧
    executing process.journal ≠ none ∧
    (∀ latest, process.loop = .reading latest →
      (process.unfinished.length : Int) ≤ process.active) ∧
    (process.waiting = [] → process.worker = .receiving → process.active = 0) ∧
    (process.loop.updates = true → process.unfinished = []) := by
  have sound := sound_of_reachable reached
  refine ⟨?_, sound.starts_nodup, ?_, ?_, sound.active_of_finished, sound.unfinished_of_updates⟩
  · intro senders tasks _
    exact ⟨sound.received, fun arrival member => sound.run_once senders tasks member⟩
  · rw [sound.journal]
    exact Option.some_ne_none _
  · intro latest here
    exact sound.unfinished_le_active here

/-- A response that carries one task twice, until the agent has nothing to do again. -/
def repeatedTask : List AgentAction :=
  let task : Task := { type := .stats, taskId := 7 }
  [.poll (some ([task, task], "")), .enqueue, .enqueue, .enqueue, .enqueue, .send 0, .receive,
    .enqueue, .finish, .clear, .read, .discount]

def AgentProcess.ranOnceOfTwo (process : AgentProcess) : Bool :=
  process.senders = [] ∧ process.tasks = [] ∧ process.worker = .receiving ∧
    process.received.length = 2 ∧ process.starts = [0]

theorem repeated_task_runs_once : ∃ process : AgentProcess,
    agentProcess.Reachable (fun _ _ => True) process ∧
    (process.received.length = 2 ∧ process.starts = [0]) ∧
    ∀ arrival ∈ process.arrivals, process.RunOnce arrival := by
  have ends : (agentProcess.runWithin (fun _ _ => True) {} repeatedTask).any
      AgentProcess.ranOnceOfTwo = true := by decide
  obtain ⟨process, reached, test⟩ := Transition.System.exists_reachable rfl ends
  obtain ⟨senders, tasks, idle, shape⟩ := of_decide_eq_true test
  exact ⟨process, reached, shape, ((agent_loses_no_task reached).1 senders tasks idle).2⟩

end AmberBackup.GoAgent
