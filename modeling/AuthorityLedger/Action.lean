/-!
# Actions on a state

An action may read and change a state and may fail.  What it had changed
before it failed stays changed, so that "a failed action changes nothing" is
something to be shown of an action and not a property of the notation.
-/

namespace AuthorityLedger

/-- A step on a state of type `σ` that answers with an `α` or fails with an `ε`. -/
abbrev Action (σ ε α : Type) := ExceptT ε (StateM σ) α

namespace Action

variable {σ ε α : Type}

/-- The action with the given outcome and next state for each state. -/
def ofStep (step : σ → Except ε α × σ) : Action σ ε α :=
  ExceptT.mk step

/-- The outcome and the next state. -/
def on (action : Action σ ε α) (state : σ) : Except ε α × σ :=
  ExceptT.run action state

/-- The action that has a fixed outcome and leaves the state alone. -/
def ofExcept (outcome : Except ε α) : Action σ ε α :=
  ofStep fun state => (outcome, state)

/-- The action that goes on to a next state, or fails and leaves the state alone. -/
def advance (step : σ → Except ε σ) : Action σ ε Unit :=
  ofStep fun state =>
    match step state with
    | .ok next => (.ok (), next)
    | .error cause => (.error cause, state)

/-- An action on one part of a larger state. -/
def focus {τ : Type} (part : τ → σ) (update : σ → τ → τ) (action : Action σ ε α) :
    Action τ ε α :=
  ofStep fun whole =>
    let (outcome, next) := action.on (part whole)
    (outcome, update next whole)

/-- The same action with its failures renamed. -/
def wrapping {ε' : Type} (rename : ε → ε') (action : Action σ ε α) : Action σ ε' α :=
  ofStep fun state =>
    let (outcome, next) := action.on state
    (outcome.mapError rename, next)

/-- The action, followed after a failure by a second one whose outcome does not matter. -/
def undoing {ε' β : Type} (cleanup : Action σ ε' β) (action : Action σ ε α) : Action σ ε α :=
  ofStep fun state =>
    match action.on state with
    | (.ok value, next) => (.ok value, next)
    | (.error cause, next) => (.error cause, (cleanup.on next).2)

/-! ## Running an action -/

@[simp] theorem on_ofStep (step : σ → Except ε α × σ) (state : σ) :
    (ofStep step).on state = step state := rfl

@[simp] theorem on_ofExcept (outcome : Except ε α) (state : σ) :
    (ofExcept outcome).on state = (outcome, state) := rfl

/-- An action that goes on to a next state does so exactly if there is one. -/
theorem on_advance (step : σ → Except ε σ) (state : σ) :
    (advance step).on state =
      match step state with
      | .ok next => (.ok (), next)
      | .error cause => (.error cause, state) := rfl

@[simp] theorem on_pure (value : α) (state : σ) :
    (pure value : Action σ ε α).on state = (.ok value, state) := rfl

@[simp] theorem on_throw (cause : ε) (state : σ) :
    (throw cause : Action σ ε α).on state = (.error cause, state) := rfl

@[simp] theorem on_get (state : σ) :
    (get : Action σ ε σ).on state = (.ok state, state) := rfl

@[simp] theorem on_set (next state : σ) :
    (set next : Action σ ε PUnit).on state = (.ok ⟨⟩, next) := rfl

@[simp] theorem on_modify (change : σ → σ) (state : σ) :
    (modify change : Action σ ε PUnit).on state = (.ok ⟨⟩, change state) := rfl

/-- A sequence goes on from the state that its first part leaves, unless that part fails. -/
theorem on_bind {β : Type} (action : Action σ ε α) (next : α → Action σ ε β) (state : σ) :
    (action >>= next).on state =
      match action.on state with
      | (.ok value, middle) => (next value).on middle
      | (.error cause, middle) => (.error cause, middle) := by
  change (ExceptT.bindCont next (action.on state).1 |>.run (action.on state).2) = _
  rcases action.on state with ⟨_ | _, _⟩ <;> rfl

/-- Renaming failures changes neither the state nor the success of an action. -/
@[simp] theorem on_wrapping {ε' : Type} (rename : ε → ε') (action : Action σ ε α) (state : σ) :
    (wrapping rename action).on state =
      ((action.on state).1.mapError rename, (action.on state).2) := rfl

/-- An action on a part leaves the rest of the state to its update. -/
@[simp] theorem on_focus {τ : Type} (part : τ → σ) (update : σ → τ → τ) (action : Action σ ε α)
    (whole : τ) :
    (focus part update action).on whole =
      ((action.on (part whole)).1, update (action.on (part whole)).2 whole) := rfl

end Action

end AuthorityLedger
