import AuthorityLedger.Action

/-!
# Outcomes of sequences

A sequence of computations succeeds exactly if each of them does, and a
sequence of actions moreover passes the state from one to the next.
-/

namespace AuthorityLedger

/-- A sequence of two computations succeeds exactly if both do. -/
theorem Except.bind_eq_ok_iff {ε α β : Type} {first : Except ε α} {next : α → Except ε β} {b : β} :
    (first >>= next) = .ok b ↔ ∃ a, first = .ok a ∧ next a = .ok b := by
  cases first with
  | error cause => simp [bind, Except.bind]
  | ok a => simp [bind, Except.bind]

/-- A computation that succeeds has a result. -/
theorem Except.exists_eq_ok_of_isOk {ε α : Type} {outcome : Except ε α} (h : outcome.isOk = true) :
    ∃ a, outcome = .ok a := by
  cases outcome with
  | error cause => cases h
  | ok a => exact ⟨a, rfl⟩

theorem Except.mapError_ok {ε ε' α : Type} (rename : ε → ε') (a : α) :
    (Except.ok a : Except ε α).mapError rename = .ok a := rfl

/-- Renaming failures keeps the successes of a computation and adds none. -/
@[simp] theorem Except.mapError_eq_ok_iff {ε ε' α : Type} {rename : ε → ε'} {outcome : Except ε α}
    {a : α} : outcome.mapError rename = .ok a ↔ outcome = .ok a := by
  cases outcome with
  | error cause => exact ⟨nofun, nofun⟩
  | ok b => rw [mapError_ok, Except.ok.injEq, Except.ok.injEq]

/-- A sequence of two actions succeeds exactly if both do, the second where the first one leads. -/
theorem Action.on_bind_eq_ok_iff {σ ε α β : Type} {action : Action σ ε α}
    {next : α → Action σ ε β} {state final : σ} {b : β} :
    (action >>= next).on state = (.ok b, final) ↔
      ∃ a middle, action.on state = (.ok a, middle) ∧ (next a).on middle = (.ok b, final) := by
  rw [Action.on_bind]
  rcases action.on state with ⟨outcome, middle⟩
  cases outcome with
  | error cause => simp
  | ok a =>
      constructor
      · exact fun h => ⟨a, middle, rfl, h⟩
      · rintro ⟨_, _, hfirst, h⟩
        cases hfirst
        exact h

/-- A sequence of two actions fails where one of them does, the second where the first one leads. -/
theorem Action.on_bind_eq_error_iff {σ ε α β : Type} {action : Action σ ε α}
    {next : α → Action σ ε β} {state final : σ} {cause : ε} :
    (action >>= next).on state = (.error cause, final) ↔
      action.on state = (.error cause, final) ∨
        ∃ a middle, action.on state = (.ok a, middle) ∧
          (next a).on middle = (.error cause, final) := by
  rw [Action.on_bind]
  rcases action.on state with ⟨outcome, middle⟩
  cases outcome with
  | error refusal => simp
  | ok a =>
      constructor
      · intro h
        exact Or.inr ⟨a, middle, rfl, h⟩
      · rintro (h | ⟨_, _, hfirst, h⟩)
        · cases h
        · cases hfirst
          exact h

/-- What becomes of a state when an action is followed by a cleanup if it fails. -/
theorem Action.on_undoing {σ ε ε' α β : Type} (cleanup : Action σ ε' β) (action : Action σ ε α)
    (state : σ) :
    (undoing cleanup action).on state =
      match action.on state with
      | (.ok value, next) => (.ok value, next)
      | (.error cause, next) => (.error cause, (cleanup.on next).2) := rfl

/-- Ignoring an answer does not change where an action leads. -/
theorem Action.snd_on_ignore {σ ε α : Type} (action : Action σ ε α) (state : σ) :
    ((do let _ ← action : Action σ ε Unit).on state).2 = (action.on state).2 := by
  rw [Action.on_bind]
  cases action.on state with
  | mk outcome next => cases outcome <;> rfl

end AuthorityLedger
