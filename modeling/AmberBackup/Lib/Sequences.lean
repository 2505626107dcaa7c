import AmberBackup.Lib.Procedure
import AmberBackup.Lib.Transition

/-! # Sequences of calls

Calls that are made one after the other, each from where the one before it has left the
state. A sequence goes on only with calls that return, so that what a call does when it
returns is all there is to say about a step (`Procedure.step_eq_some`).
-/

open Transition

namespace Procedure

variable {σ ε α : Type}

/-- The sequences of calls that return, from the states given. -/
def sequences (initial : σ → Prop) (call : α → Procedure σ ε Unit) : System σ α where
  initial
  step := fun state action =>
    match (call action).run state with
    | (.ok _, next) => some next
    | (.error _, _) => none

variable {initial : σ → Prop} {call : α → Procedure σ ε Unit} {state next : σ} {action : α}

theorem step_eq_some :
    (sequences initial call).step state action = some next ↔
      (call action).run state = (.ok (), next) := by
  unfold sequences
  dsimp only
  rcases (call action).run state with ⟨result, after⟩
  cases result with
  | ok value => simp
  | error failure => simp

end Procedure
