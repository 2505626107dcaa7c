import AmberBackup.Lib.Procedure

/-! # Postconditions of procedures

What holds of a procedure's end, whether it returns or throws, follows from what holds of its parts.
A procedure with a cleanup runs it when it ends, unless it was cut off.
-/

namespace Procedure

variable {σ ε α β : Type}

/-- Begun in a state that meets `pre`, the procedure ends as `post` says. -/
structure Ends (pre : σ → Prop) (body : Procedure σ ε α) (post : Except ε α → σ → Prop) : Prop where
  run : ∀ state, pre state → post (body.run state).1 (body.run state).2

/-- A postcondition by cases: one for what is returned, one for what is thrown. -/
def ending (returns : α → σ → Prop) (throws : ε → σ → Prop) : Except ε α → σ → Prop
  | .ok value, state => returns value state
  | .error failure, state => throws failure state

/-- Runs the cleanup when the body has ended, and ends as the body did. -/
def deferring (cutOff : ε → Bool) (cleanup : Procedure σ ε Unit) (body : Procedure σ ε α) :
    Procedure σ ε α := ⟨fun state =>
  match body.run state with
  | (.error failure, middle) =>
      if cutOff failure then (.error failure, middle)
      else
        match cleanup.run middle with
        | (.ok _, final) => (.error failure, final)
        | (.error other, final) => (.error other, final)
  | (.ok value, middle) =>
      match cleanup.run middle with
      | (.ok _, final) => (.ok value, final)
      | (.error other, final) => (.error other, final)⟩

/-- Runs the handler when the body has thrown, and throws what the body threw. -/
def onFailure (cutOff : ε → Bool) (handler : Procedure σ ε Unit) (body : Procedure σ ε α) :
    Procedure σ ε α := ⟨fun state =>
  match body.run state with
  | (.error failure, middle) =>
      if cutOff failure then (.error failure, middle)
      else
        match handler.run middle with
        | (.ok _, final) => (.error failure, final)
        | (.error other, final) => (.error other, final)
  | (.ok value, middle) => (.ok value, middle)⟩

/-- The failures that are thrown, renamed. -/
def mapError (rename : ε → ε) (body : Procedure σ ε α) : Procedure σ ε α := ⟨fun state =>
  match body.run state with
  | (.error failure, final) => (.error (rename failure), final)
  | (.ok value, final) => (.ok value, final)⟩

namespace Ends

variable {pre : σ → Prop} {post : Except ε α → σ → Prop} {returns mid : α → σ → Prop}
  {throws : ε → σ → Prop} {body first : Procedure σ ε α}

theorem mono {strong : σ → Prop} {weak : Except ε α → σ → Prop} (ends : body.Ends pre post)
    (before : ∀ state, strong state → pre state)
    (after : ∀ result state, post result state → weak result state) : body.Ends strong weak :=
  ⟨fun state holds => after _ _ (ends.run state (before state holds))⟩

theorem imp {weakReturns : α → σ → Prop} {weakThrows : ε → σ → Prop}
    (ends : body.Ends pre (ending returns throws))
    (returned : ∀ value state, returns value state → weakReturns value state)
    (threw : ∀ failure state, throws failure state → weakThrows failure state) :
    body.Ends pre (ending weakReturns weakThrows) := by
  refine ends.mono (fun _ holds => holds) fun result state final => ?_
  cases result with
  | ok value => exact returned value state final
  | error failure => exact threw failure state final

theorem pure {value : α} (holds : ∀ state, pre state → returns value state) :
    (Pure.pure value : Procedure σ ε α).Ends pre (ending returns throws) := ⟨holds⟩

theorem raise {failure : ε} (holds : ∀ state, pre state → throws failure state) :
    (Procedure.raise failure : Procedure σ ε α).Ends pre (ending returns throws) := ⟨holds⟩

/-- What is computed is known of what comes after. -/
theorem lift {value : Except ε α} (threw : ∀ failure state, pre state → throws failure state) :
    (Procedure.lift fun _ : σ => value).Ends pre
      (ending (fun result state => value = .ok result ∧ pre state) throws) := by
  constructor
  intro state holds
  change ending _ throws value state
  cases value with
  | ok result => exact ⟨rfl, holds⟩
  | error failure => exact threw failure state holds

theorem exists_pre {ι : Sort*} {choices : ι → σ → Prop}
    (each : ∀ choice, body.Ends (choices choice) post) :
    body.Ends (fun state => ∃ choice, choices choice state) post :=
  ⟨fun state ⟨choice, holds⟩ => (each choice).run state holds⟩

theorem assuming {fact : Prop} (given : fact → body.Ends pre post) :
    body.Ends (fun state => fact ∧ pre state) post :=
  ⟨fun state ⟨known, holds⟩ => (given known).run state holds⟩

theorem bind {after : β → σ → Prop} {next : α → Procedure σ ε β}
    (before : first.Ends pre (ending mid throws))
    (rest : ∀ value, (next value).Ends (mid value) (ending after throws)) :
    (first >>= next).Ends pre (ending after throws) := by
  constructor
  intro state holds
  have middle := before.run state holds
  rw [run_bind]
  generalize first.run state = ended at middle ⊢
  obtain ⟨result, reached⟩ := ended
  cases result with
  | ok value => exact (rest value).run reached middle
  | error failure => exact middle

theorem onFailure {cutOff : ε → Bool} {handler : Procedure σ ε Unit} {between : ε → σ → Prop}
    (main : body.Ends pre (ending returns between))
    (cut : ∀ failure state, cutOff failure = true → between failure state → throws failure state)
    (handled : ∀ failure, handler.Ends (between failure) (ending (fun _ => throws failure) throws)) :
    (Procedure.onFailure cutOff handler body).Ends pre (ending returns throws) := by
  constructor
  intro state holds
  have middle := main.run state holds
  unfold Procedure.onFailure
  dsimp only
  generalize body.run state = ended at middle ⊢
  obtain ⟨result, reached⟩ := ended
  cases result with
  | ok value => exact middle
  | error failure =>
      dsimp only
      split
      case isTrue stopped => exact cut failure reached stopped middle
      case isFalse =>
        have final := (handled failure).run reached middle
        generalize handler.run reached = cleaned at final ⊢
        obtain ⟨outcome, last⟩ := cleaned
        cases outcome <;> exact final

theorem mapError {rename : ε → ε} (ends : body.Ends pre
      (ending returns fun failure state => throws (rename failure) state)) :
    (Procedure.mapError rename body).Ends pre (ending returns throws) := by
  constructor
  intro state holds
  have final := ends.run state holds
  unfold Procedure.mapError
  dsimp only
  generalize body.run state = ended at final ⊢
  obtain ⟨result, reached⟩ := ended
  cases result <;> exact final

theorem ite {condition : Prop} [Decidable condition] {other : Procedure σ ε α}
    (yes : condition → body.Ends pre post) (no : ¬ condition → other.Ends pre post) :
    (if condition then body else other).Ends pre post := by
  split
  · exact yes ‹_›
  · exact no ‹_›

/-- What the cleanup keeps holds after it. -/
theorem deferring {cutOff : ε → Bool} {cleanup : Procedure σ ε Unit} {ends : Except ε α → σ → Prop}
    (main : body.Ends pre ends)
    (kept : ∀ result, cleanup.Ends (ends result)
      (ending (fun _ => ends result) fun failure => ends (.error failure))) :
    (Procedure.deferring cutOff cleanup body).Ends pre ends := by
  constructor
  intro state holds
  have middle := main.run state holds
  unfold Procedure.deferring
  dsimp only
  generalize body.run state = ended at middle ⊢
  obtain ⟨result, reached⟩ := ended
  have final := (kept result).run reached middle
  cases result with
  | ok value =>
      dsimp only
      generalize cleanup.run reached = cleaned at final ⊢
      obtain ⟨outcome, last⟩ := cleaned
      cases outcome <;> exact final
  | error failure =>
      dsimp only
      split
      · exact middle
      · generalize cleanup.run reached = cleaned at final ⊢
        obtain ⟨outcome, last⟩ := cleaned
        cases outcome <;> exact final

end Ends

end Procedure
