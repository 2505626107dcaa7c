import Mathlib.Tactic.Common

/-! # Labelled transitions under a step condition

A system takes partial steps labelled by actions. Its runs are considered under a
condition on the state before a step and the step's action, so that a law can be
stated for exactly the runs whose steps all meet the condition. An invariant is
proved from its initial and its step obligation (`System.Invariant.holds`), possibly
on top of one that is already known (`System.Invariant.onTopOf`); a fact that no
step undoes holds from the state it is reached in to the end of the run
(`System.Steps.stable`). Listed actions are executed by `System.runWithin`.
-/

namespace Transition

/-- Initial states, and the effect of an action where it is enabled. -/
structure System (σ α : Type) where
  initial : σ → Prop
  step : σ → α → Option σ

namespace System

variable {σ α : Type} (system : System σ α) (allowed : σ → α → Prop)

/-- The runs from a state whose steps all meet the condition. -/
inductive Steps : σ → σ → Prop where
  | refl (state : σ) : Steps state state
  | tail {source middle target : σ} {action : α} :
      Steps source middle → allowed middle action →
      system.step middle action = some target → Steps source target

/-- A state reached from an initial one by steps that all meet the condition. -/
def Reachable (state : σ) : Prop :=
  ∃ source, system.initial source ∧ system.Steps allowed source state

/-- A predicate that holds initially and is kept by every step that meets the
condition. -/
structure Invariant (holds : σ → Prop) : Prop where
  initial : ∀ state, system.initial state → holds state
  step : ∀ state action next, holds state → allowed state action →
    system.step state action = some next → holds next

variable {system allowed}

theorem Steps.trans {source middle target : σ} (first : system.Steps allowed source middle)
    (second : system.Steps allowed middle target) : system.Steps allowed source target := by
  induction second with
  | refl => exact first
  | tail _ permitted moved ih => exact ih.tail permitted moved

/-- A run under a condition is a run under every weaker one. -/
theorem Steps.weaken {other : σ → α → Prop} (weaker : ∀ state action,
      allowed state action → other state action)
    {source target : σ} (steps : system.Steps allowed source target) :
    system.Steps other source target := by
  induction steps with
  | refl => exact .refl _
  | tail _ permitted moved ih => exact ih.tail (weaker _ _ permitted) moved

theorem Reachable.initial {state : σ} (start : system.initial state) :
    system.Reachable allowed state := ⟨state, start, .refl state⟩

theorem Reachable.steps {source target : σ} (reached : system.Reachable allowed source)
    (steps : system.Steps allowed source target) : system.Reachable allowed target := by
  obtain ⟨start, initial, before⟩ := reached
  exact ⟨start, initial, before.trans steps⟩

theorem Reachable.step {state next : σ} {action : α} (reached : system.Reachable allowed state)
    (permitted : allowed state action) (moved : system.step state action = some next) :
    system.Reachable allowed next :=
  reached.steps (.tail (.refl state) permitted moved)

theorem Reachable.weaken {other : σ → α → Prop} (weaker : ∀ state action,
      allowed state action → other state action)
    {state : σ} (reached : system.Reachable allowed state) : system.Reachable other state := by
  obtain ⟨start, initial, steps⟩ := reached
  exact ⟨start, initial, steps.weaken weaker⟩

theorem Invariant.holds {holds : σ → Prop} (invariant : system.Invariant allowed holds)
    {state : σ} (reached : system.Reachable allowed state) : holds state := by
  obtain ⟨start, initial, steps⟩ := reached
  induction steps with
  | refl => exact invariant.initial start initial
  | tail _ permitted moved ih => exact invariant.step _ _ _ ih permitted moved

/-- Proves an invariant whose step obligation may use what is already known of
every reachable state. -/
theorem Invariant.onTopOf (known holds : σ → Prop)
    (base : ∀ state, system.Reachable allowed state → known state)
    (initial : ∀ state, system.initial state → holds state)
    (step : ∀ state action next, known state → known next → holds state → allowed state action →
      system.step state action = some next → holds next)
    {state : σ} (reached : system.Reachable allowed state) : holds state := by
  obtain ⟨start, starts, steps⟩ := reached
  induction steps with
  | refl => exact initial start starts
  | tail before permitted moved ih =>
      have here : system.Reachable allowed _ := ⟨start, starts, before⟩
      exact step _ _ _ (base _ here) (base _ (here.step permitted moved)) ih permitted moved

/-- What no step undoes in a reachable state stays true to the end of the run. -/
theorem Steps.stable {source target : σ} (holds : σ → Prop)
    (steps : system.Steps allowed source target) (reached : system.Reachable allowed source)
    (step : ∀ state action next, system.Reachable allowed state → holds state →
      allowed state action → system.step state action = some next → holds next)
    (here : holds source) : holds target := by
  induction steps with
  | refl => exact here
  | tail before permitted moved ih =>
      exact step _ _ _ (reached.steps before) ih permitted moved

/-- Executes the listed actions, as long as each is enabled and meets the
condition. -/
def runWithin (system : System σ α) (allowed : σ → α → Prop)
    [∀ state action, Decidable (allowed state action)] : σ → List α → Option σ
  | state, [] => some state
  | state, action :: rest =>
      if allowed state action then
        match system.step state action with
        | some next => runWithin system allowed next rest
        | none => none
      else none

theorem steps_of_runWithin [∀ state action, Decidable (allowed state action)]
    {source target : σ} {actions : List α}
    (ran : system.runWithin allowed source actions = some target) :
    system.Steps allowed source target := by
  induction actions generalizing source with
  | nil =>
      simp only [runWithin, Option.some.injEq] at ran
      exact ran ▸ .refl source
  | cons action rest ih =>
      unfold runWithin at ran
      split at ran
      case isFalse => cases ran
      case isTrue permitted =>
        split at ran
        case h_2 => cases ran
        case h_1 next moved =>
          exact (Steps.tail (.refl source) permitted moved).trans (ih ran)

theorem reachable_of_runWithin [∀ state action, Decidable (allowed state action)]
    {source target : σ} {actions : List α} (start : system.initial source)
    (ran : system.runWithin allowed source actions = some target) :
    system.Reachable allowed target := ⟨source, start, steps_of_runWithin ran⟩

/-- A listed run that ends where a test holds reaches such a state. -/
theorem exists_reachable [∀ state action, Decidable (allowed state action)] {source : σ}
    {actions : List α} {test : σ → Bool} (start : system.initial source)
    (ends : (system.runWithin allowed source actions).any test = true) :
    ∃ target, system.Reachable allowed target ∧ test target = true := by
  cases ran : system.runWithin allowed source actions with
  | none => simp [ran] at ends
  | some target =>
      rw [ran] at ends
      exact ⟨target, reachable_of_runWithin start ran, ends⟩

end System

end Transition
