import Mathlib.Tactic.Common

/-! # Rotations over a divided whole

A whole is read part by part, and it may be kept at one place or another and divided one
way or another. A history lists the readings, the newest first; a reading of part 1
restarts the rotation. Reading the parts of one division in order, at one place, covers
the whole (`Covers.restart`, `Covers.next`).
-/

namespace Rotation

/-- One part that was read back, of a division into `parts`, at a place. -/
structure Reading (π : Type) where
  place : π
  part : Nat
  parts : Nat
  deriving DecidableEq, Repr

variable {π : Type}

/-- The readings since the rotation last restarted at part 1, that reading included. -/
def sinceRestart : List (Reading π) → List (Reading π)
  | [] => []
  | reading :: older =>
      if reading.part = 1 then [reading] else reading :: sinceRestart older

/-- The first parts of a division, up to the given one, were read at the place since the
rotation last restarted. -/
def Covers (history : List (Reading π)) (place : π) (parts upTo : Nat) : Prop :=
  ∀ part, 1 ≤ part → part ≤ upTo → ⟨place, part, parts⟩ ∈ sinceRestart history

variable {history : List (Reading π)} {place : π} {parts : Nat}

theorem Covers.zero : Covers history place parts 0 := by
  intro part positive none
  omega

theorem Covers.restart : Covers (⟨place, 1, parts⟩ :: history) place parts 1 := by
  intro part positive bounded
  have first : part = 1 := by omega
  subst first
  unfold sinceRestart
  rw [if_pos rfl]
  exact List.mem_singleton.mpr rfl

theorem Covers.next {upTo : Nat} (before : Covers history place parts upTo) :
    Covers (⟨place, upTo + 1, parts⟩ :: history) place parts (upTo + 1) := by
  cases upTo with
  | zero => exact Covers.restart
  | succ last =>
      intro part positive bounded
      have later : ¬ last + 1 + 1 = 1 := by omega
      unfold sinceRestart
      rw [if_neg later]
      rcases Nat.lt_or_ge last.succ part with new | old
      · have same : part = last + 1 + 1 := by omega
        subst same
        exact List.mem_cons_self
      · exact List.mem_cons_of_mem _ (before part positive old)

end Rotation
