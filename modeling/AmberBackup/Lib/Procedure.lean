import Mathlib.Tactic.Common

/-! # Procedures

A procedure reads and writes a state and either returns or throws. What it has
written before it throws stays written, as with a service whose statements are not
part of one transaction. A sequence of procedures returns exactly when each of them
does (`Procedure.bind_returns`), and it throws in the state its first throwing
procedure leaves (`Procedure.bind_throws`).
-/

/-- A procedure over the state `σ` that throws failures of type `ε`. -/
structure Procedure (σ ε α : Type) where
  run : σ → Except ε α × σ

namespace Procedure

variable {σ ε α β ι : Type}

instance : Monad (Procedure σ ε) where
  pure value := ⟨fun state => (.ok value, state)⟩
  bind first next := ⟨fun state =>
    match first.run state with
    | (.ok value, middle) => (next value).run middle
    | (.error failure, middle) => (.error failure, middle)⟩

/-- A value computed from the state, which stays as it is. -/
def read (value : σ → α) : Procedure σ ε α := ⟨fun state => (.ok (value state), state)⟩

/-- A computation on the state that may fail and writes nothing. -/
def lift (value : σ → Except ε α) : Procedure σ ε α := ⟨fun state => (value state, state)⟩

/-- A write without a result. -/
def write (change : σ → σ) : Procedure σ ε Unit := ⟨fun state => (.ok (), change state)⟩

def raise (failure : ε) : Procedure σ ε α := ⟨fun state => (.error failure, state)⟩

/-- Runs the body and passes over the failure it throws. -/
def ignoring (body : Procedure σ ε Unit) : Procedure σ ε Unit :=
  ⟨fun state => (.ok (), (body.run state).2)⟩

/-- Runs the body on each item in turn and collects the values it yields; an item the
body passes over yields none. -/
def collect (body : ι → Procedure σ ε (Option α)) : List ι → Procedure σ ε (List α)
  | [] => pure []
  | item :: rest => do
      let value ← body item
      let values ← collect body rest
      return value.toList ++ values

variable {first : Procedure σ ε α} {next : α → Procedure σ ε β} {state final : σ}

@[simp] theorem run_pure (value : α) :
    (pure value : Procedure σ ε α).run state = (.ok value, state) := rfl

@[simp] theorem run_read (value : σ → α) :
    (read value : Procedure σ ε α).run state = (.ok (value state), state) := rfl

@[simp] theorem run_lift (value : σ → Except ε α) :
    (lift value : Procedure σ ε α).run state = (value state, state) := rfl

@[simp] theorem run_write (change : σ → σ) :
    (write change : Procedure σ ε Unit).run state = (.ok (), change state) := rfl

@[simp] theorem run_raise (failure : ε) :
    (raise failure : Procedure σ ε α).run state = (.error failure, state) := rfl

@[simp] theorem run_ignoring (body : Procedure σ ε Unit) :
    (ignoring body).run state = (.ok (), (body.run state).2) := rfl

theorem run_bind :
    (first >>= next).run state =
      match first.run state with
      | (.ok value, middle) => (next value).run middle
      | (.error failure, middle) => (.error failure, middle) := rfl

theorem run_bind_of_ok {value : α} {middle : σ}
    (returned : first.run state = (.ok value, middle)) :
    (first >>= next).run state = (next value).run middle := by
  rw [run_bind, returned]

theorem run_bind_of_error {failure : ε} {middle : σ}
    (threw : first.run state = (.error failure, middle)) :
    (first >>= next).run state = (.error failure, middle) := by
  rw [run_bind, threw]

@[simp] theorem run_bind_read (value : σ → α) :
    ((read value : Procedure σ ε α) >>= next).run state = (next (value state)).run state := rfl

@[simp] theorem run_bind_write (change : σ → σ) (after : Unit → Procedure σ ε β) :
    ((write change : Procedure σ ε Unit) >>= after).run state =
      (after ()).run (change state) := rfl

/-- A sequence of sequences is one sequence. -/
theorem bind_bind {γ : Type} (last : β → Procedure σ ε γ) :
    (first >>= next) >>= last = first >>= fun value => next value >>= last := by
  refine congrArg Procedure.mk (funext fun state => ?_)
  rw [run_bind]
  rcases first.run state with ⟨result, middle⟩
  cases result with
  | ok value => rfl
  | error failure => rfl

/-- A sequence returns when both of its procedures do. -/
theorem bind_returns {value : β} :
    (first >>= next).run state = (.ok value, final) ↔
      ∃ inner middle, first.run state = (.ok inner, middle) ∧
        (next inner).run middle = (.ok value, final) := by
  rw [run_bind]
  rcases first.run state with ⟨result, middle⟩
  cases result with
  | ok inner => simp
  | error failure => simp

/-- A sequence throws where its first throwing procedure does. -/
theorem bind_throws {failure : ε} :
    (first >>= next).run state = (.error failure, final) ↔
      first.run state = (.error failure, final) ∨
        ∃ inner middle, first.run state = (.ok inner, middle) ∧
          (next inner).run middle = (.error failure, final) := by
  rw [run_bind]
  rcases first.run state with ⟨result, middle⟩
  cases result with
  | ok inner => simp
  | error other => simp

/-- A failing computation ends a sequence; any other hands its value on. -/
theorem run_bind_lift (value : σ → Except ε α) (next : α → Procedure σ ε β) (state : σ) :
    (∃ failure, value state = .error failure ∧
        (lift value >>= next).run state = (.error failure, state)) ∨
      ∃ result, value state = .ok result ∧
        (lift value >>= next).run state = (next result).run state := by
  cases here : value state with
  | error failure =>
      refine Or.inl ⟨failure, rfl, run_bind_of_error ?_⟩
      rw [run_lift, here]
  | ok result =>
      refine Or.inr ⟨result, rfl, run_bind_of_ok ?_⟩
      rw [run_lift, here]

/-- What follows a procedure starts in the state it leaves, if it returns. -/
theorem run_bind_state (first : Procedure σ ε α) (next : α → Procedure σ ε β) (state : σ) :
    ((first >>= next).run state).2 = (first.run state).2 ∨
      ∃ value, (first.run state).1 = .ok value ∧
        ((first >>= next).run state).2 = ((next value).run (first.run state).2).2 := by
  rw [run_bind]
  rcases first.run state with ⟨result, middle⟩
  cases result with
  | ok value => exact Or.inr ⟨value, rfl, rfl⟩
  | error failure => exact Or.inl rfl

/-- Every run relates the state before it to the state after it. -/
def Within (relation : σ → σ → Prop) (body : Procedure σ ε α) : Prop :=
  ∀ state, relation state (body.run state).2

namespace Within

variable {relation : σ → σ → Prop} [Std.Refl relation]

theorem pure (value : α) : Within relation (Pure.pure value : Procedure σ ε α) :=
  fun state => Std.Refl.refl state

theorem read (value : σ → α) : Within relation (read value : Procedure σ ε α) :=
  fun state => Std.Refl.refl state

theorem lift (value : σ → Except ε α) : Within relation (lift value) :=
  fun state => Std.Refl.refl state

theorem raise (failure : ε) : Within relation (raise failure : Procedure σ ε α) :=
  fun state => Std.Refl.refl state

omit [Std.Refl relation] in
theorem bind [IsTrans σ relation] {first : Procedure σ ε α} {next : α → Procedure σ ε β}
    (before : Within relation first) (after : ∀ value, Within relation (next value)) :
    Within relation (first >>= next) := by
  intro state
  rcases run_bind_state first next state with stays | ⟨value, _, moves⟩
  · rw [stays]
    exact before state
  · rw [moves]
    exact IsTrans.trans _ _ _ (before state) (after value _)

end Within

/-- Every value the procedure returns meets the predicate. -/
def Yields (holds : α → Prop) (body : Procedure σ ε α) : Prop :=
  ∀ state value, (body.run state).1 = .ok value → holds value

theorem Yields.pure {holds : α → Prop} {value : α} (here : holds value) :
    Yields holds (Pure.pure value : Procedure σ ε α) := by
  rintro state _ ⟨⟩
  exact here

/-- A sequence returns what its second procedure does. -/
theorem Yields.bind {holds : β → Prop} {first : Procedure σ ε α} {next : α → Procedure σ ε β}
    (after : ∀ value, Yields holds (next value)) : Yields holds (first >>= next) := by
  intro state value returned
  rcases ran : first.run state with ⟨result, middle⟩
  rw [run_bind, ran] at returned
  cases result with
  | ok inner => exact after inner middle value returned
  | error failure => cases returned

/-- A sequence that begins by reading goes on in the state it began in. -/
theorem run_bind_quiet {first : Procedure σ ε α} (quiet : first.Within Eq)
    (next : α → Procedure σ ε β) (state : σ) :
    ((first >>= next).run state).2 = state ∨
      ∃ value, (first.run state).1 = .ok value ∧
        ((first >>= next).run state).2 = ((next value).run state).2 := by
  have same : (first.run state).2 = state := (quiet state).symm
  rcases run_bind_state first next state with stays | ⟨value, returned, moves⟩
  · exact Or.inl (stays.trans same)
  · rw [same] at moves
    exact Or.inr ⟨value, returned, moves⟩

/-- A sequence that begins by reading and returns. -/
theorem bind_returns_quiet {value : β} (quiet : first.Within Eq)
    (returned : (first >>= next).run state = (.ok value, final)) :
    ∃ inner, (first.run state).1 = .ok inner ∧ (next inner).run state = (.ok value, final) := by
  obtain ⟨inner, middle, ran, after⟩ := bind_returns.mp returned
  have same : state = (first.run state).2 := quiet state
  rw [ran] at same
  subst same
  exact ⟨inner, congrArg Prod.fst ran, after⟩

/-- The items a run over the list gets to: all of them, or those up to and including the
first one that fails. -/
def attempted (outcome : ι → Except ε α) : List ι → List ι
  | [] => []
  | item :: rest =>
      match outcome item with
      | .ok _ => item :: attempted outcome rest
      | .error _ => [item]

theorem attempted_sublist (outcome : ι → Except ε α) (items : List ι) :
    (attempted outcome items).Sublist items := by
  induction items with
  | nil => exact List.Sublist.refl []
  | cons item rest ih =>
      unfold attempted
      cases outcome item with
      | ok value => exact ih.cons_cons item
      | error failure => exact (List.nil_sublist rest).cons_cons item

theorem attempted_ne_nil (outcome : ι → Except ε α) {items : List ι} (some : items ≠ []) :
    attempted outcome items ≠ [] := by
  cases items with
  | nil => exact absurd rfl some
  | cons item rest =>
      unfold attempted
      cases outcome item with
      | ok value => exact List.cons_ne_nil _ _
      | error failure => exact List.cons_ne_nil _ _

/-- The outcomes of a list of items: the values of all of them, or the first failure. -/
def outcomes (outcome : ι → Except ε α) : List ι → Except ε (List α)
  | [] => .ok []
  | item :: rest =>
      match outcome item with
      | .error failure => .error failure
      | .ok value =>
          match outcomes outcome rest with
          | .error failure => .error failure
          | .ok values => .ok (value :: values)

/-- All items succeed, and all of them are attempted, or one fails and some item was
attempted. -/
theorem outcomes_cases (outcome : ι → Except ε α) (items : List ι) :
    (∃ values, outcomes outcome items = .ok values ∧ attempted outcome items = items ∧
        List.Forall₂ (fun item value => outcome item = .ok value) items values) ∨
      ∃ failure item, outcomes outcome items = .error failure ∧ item ∈ items ∧
        outcome item = .error failure ∧ attempted outcome items ≠ [] := by
  induction items with
  | nil => exact Or.inl ⟨[], rfl, rfl, .nil⟩
  | cons item rest ih =>
      unfold outcomes attempted
      cases here : outcome item with
      | error failure =>
          exact Or.inr ⟨failure, item, rfl, List.mem_cons_self, here, List.cons_ne_nil _ _⟩
      | ok value =>
          rcases ih with ⟨values, all, reached, each⟩ | ⟨failure, other, fails, listed, bad, _⟩
          · rw [all, reached]
            exact Or.inl ⟨value :: values, rfl, rfl, .cons here each⟩
          · rw [fails]
            exact Or.inr ⟨failure, other, rfl, List.mem_cons_of_mem _ listed, bad,
              List.cons_ne_nil _ _⟩

/-- A body that marks the state and then yields the item's outcome: the run marks every
attempted item and yields the outcomes. -/
theorem run_collect (body : ι → Procedure σ ε (Option α)) (outcome : ι → Except ε α)
    (mark : ι → σ → σ) (valid : List ι → σ → Prop)
    (step : ∀ item rest state, valid (item :: rest) state →
      (body item).run state = ((outcome item).map some, mark item state) ∧
        valid rest (mark item state))
    (items : List ι) (state : σ) (here : valid items state) :
    (collect body items).run state =
      (outcomes outcome items,
        (attempted outcome items).foldl (fun state item => mark item state) state) := by
  induction items generalizing state with
  | nil => rfl
  | cons item rest ih =>
      obtain ⟨ran, kept⟩ := step item rest state here
      unfold collect outcomes attempted
      cases yielded : outcome item with
      | error failure =>
          rw [yielded] at ran
          rw [run_bind_of_error ran]
          rfl
      | ok value =>
          rw [yielded] at ran
          rw [run_bind_of_ok ran, run_bind, ih (mark item state) kept]
          cases outcomes outcome rest with
          | error failure => rfl
          | ok values => rfl

end Procedure
