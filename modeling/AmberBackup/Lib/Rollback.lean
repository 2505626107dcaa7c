import AmberBackup.Lib.Procedure

/-! # All or nothing

A procedure rolls back if a run of it that throws leaves what can be seen of the state as it
was given. The rules go through a procedure from its first statement on: what comes before the
first write rolls back by itself, and each later statement that can throw asks that the writes
before it have changed nothing that can be seen (`rollsBack_bind`, `rollsBack_bind_lift`,
`rollsBack_bind_failing`).
-/

namespace Procedure

variable {σ ε α β ι ν : Type}

/-- A run that throws leaves what is seen of the state as given. -/
def RollsBack (view : σ → ν) (before : ν) (body : Procedure σ ε α) (state : σ) : Prop :=
  ∀ failure final, body.run state = (.error failure, final) → view final = before

/-- The state a run that throws ends in. -/
def thrown (body : Procedure σ ε α) (state : σ) : Option σ :=
  match body.run state with
  | (.error _, final) => some final
  | (.ok _, _) => none

/-- A statement that fails if a fault is given for it. -/
def failing (faults : ι → Option ε) (statement : ι) : Procedure σ ε Unit :=
  .lift fun _ =>
    match faults statement with
    | none => .ok ()
    | some failure => .error failure

variable {view : σ → ν} {before : ν} {state : σ} {first : Procedure σ ε α}
  {next : α → Procedure σ ε β}

theorem thrown_eq_some {final : σ} :
    first.thrown state = some final ↔ ∃ failure, first.run state = (.error failure, final) := by
  unfold thrown
  rcases first.run state with ⟨result, last⟩
  cases result with
  | ok value => simp
  | error failure => simp

theorem rollsBack_of_returns {value : α} {final : σ}
    (returned : first.run state = (.ok value, final)) : first.RollsBack view before state := by
  intro failure other threw
  rw [returned] at threw
  cases threw

theorem rollsBack_of_throws {failure : ε} {final : σ}
    (threw : first.run state = (.error failure, final)) :
    first.RollsBack view before state ↔ view final = before := by
  constructor
  · intro rolls
    exact rolls failure final threw
  · intro same other last threw'
    rw [threw] at threw'
    exact (Prod.mk.inj threw').2 ▸ same

theorem rollsBack_bind_of_returns {value : α} {middle : σ}
    (returned : first.run state = (.ok value, middle)) :
    (first >>= next).RollsBack view before state ↔ (next value).RollsBack view before middle := by
  unfold RollsBack
  rw [run_bind_of_ok returned]

theorem rollsBack_bind_of_throws {failure : ε} {final : σ}
    (threw : first.run state = (.error failure, final)) :
    (first >>= next).RollsBack view before state ↔ view final = before :=
  rollsBack_of_throws (run_bind_of_error threw)

theorem rollsBack_pure (value : α) :
    (pure value : Procedure σ ε α).RollsBack view before state :=
  rollsBack_of_returns rfl

theorem rollsBack_lift {value : σ → Except ε α} :
    (lift value).RollsBack view before state ↔
      ∀ failure, value state = .error failure → view state = before := by
  constructor
  · intro rolls failure threw
    exact rolls failure state (by rw [run_lift, threw])
  · intro same failure final threw
    obtain ⟨fails, rfl⟩ := Prod.mk.inj threw
    exact same failure fails

/-- A sequence rolls back if its first procedure does, and what follows it does from where
the first one has left the state. -/
theorem rollsBack_bind :
    (first >>= next).RollsBack view before state ↔
      first.RollsBack view before state ∧
        ∀ value middle, first.run state = (.ok value, middle) →
          (next value).RollsBack view before middle := by
  constructor
  · intro rolls
    refine ⟨?_, ?_⟩
    · intro failure final threw
      exact rolls failure final (bind_throws.mpr (.inl threw))
    · intro value middle returned failure final threw
      exact rolls failure final (bind_throws.mpr (.inr ⟨value, middle, returned, threw⟩))
  · rintro ⟨leading, following⟩ failure final threw
    rcases bind_throws.mp threw with threw | ⟨value, middle, returned, threw⟩
    · exact leading failure final threw
    · exact following value middle returned failure final threw

theorem rollsBack_bind_lift {value : σ → Except ε α} :
    (lift value >>= next).RollsBack view before state ↔
      (∀ failure, value state = .error failure → view state = before) ∧
        ∀ result, value state = .ok result → (next result).RollsBack view before state := by
  rw [rollsBack_bind, rollsBack_lift]
  refine and_congr_right fun _ => ⟨?_, ?_⟩
  · intro following result returned
    exact following result state (by rw [run_lift, returned])
  · intro following result middle returned
    obtain ⟨here, rfl⟩ := Prod.mk.inj returned
    exact following result here

theorem rollsBack_bind_failing {faults : ι → Option ε} {statement : ι}
    {next : Unit → Procedure σ ε β} :
    (failing faults statement >>= next).RollsBack view before state ↔
      (faults statement ≠ none → view state = before) ∧
        (faults statement = none → (next ()).RollsBack view before state) := by
  rw [failing, rollsBack_bind_lift]
  cases faults statement with
  | none =>
      constructor
      · intro rolls
        exact ⟨fun fails => absurd rfl fails, fun _ => rolls.2 () rfl⟩
      · intro rolls
        refine ⟨?_, fun _ _ => rolls.2 rfl⟩
        intro failure threw
        cases threw
  | some failure => simp

/-- What only reads leaves the state for what follows. -/
theorem rollsBack_bind_quiet (quiet : first.Within Eq) :
    (first >>= next).RollsBack view before state ↔
      (∀ failure, (first.run state).1 = .error failure → view state = before) ∧
        ∀ value, (first.run state).1 = .ok value → (next value).RollsBack view before state := by
  have same : (first.run state).2 = state := (quiet state).symm
  rw [rollsBack_bind]
  constructor
  · rintro ⟨leading, following⟩
    refine ⟨?_, ?_⟩
    · intro failure threw
      exact leading failure state (Prod.ext threw same)
    · intro value returned
      exact following value state (Prod.ext returned same)
  · rintro ⟨leading, following⟩
    refine ⟨?_, ?_⟩
    · intro failure final threw
      rw [threw] at leading same
      obtain rfl : final = state := same
      exact leading failure rfl
    · intro value middle returned
      rw [returned] at following same
      obtain rfl : middle = state := same
      exact following value rfl

/-- A statement fails, or it is passed over. -/
theorem failing_cases (faults : ι → Option ε) (statement : ι) (state : σ) :
    faults statement = none ∧
        (failing faults statement : Procedure σ ε Unit).run state = (.ok (), state) ∨
      faults statement ≠ none ∧
        ∃ failure, (failing faults statement).run state = (.error failure, state) := by
  rw [failing, run_lift]
  cases faults statement with
  | none => exact .inl ⟨rfl, rfl⟩
  | some failure => exact .inr ⟨Option.some_ne_none failure, failure, rfl⟩

theorem failing_within {relation : σ → σ → Prop} [Std.Refl relation] (faults : ι → Option ε)
    (statement : ι) : (failing faults statement).Within relation :=
  Within.lift _

end Procedure
