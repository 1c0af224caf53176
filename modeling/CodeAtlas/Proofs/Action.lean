import CodeAtlas.Action

/-!
# Results and actions

What a result tells, and what it is to perform an action that is made of others: the second part of
a sequence starts where the first one ended, and is left out if that failed.
-/

namespace CodeAtlas

theorem eq_ok_of_toOption {α : Type} {result : Result α} {value : α}
    (h : result.toOption = some value) : result = .ok value := by
  cases result with
  | error error => cases h
  | ok other => exact congrArg Except.ok (Option.some.inj h)

/-- What a result that is an error tells the user. -/
def message? {α : Type} : Result α → Option String
  | .error error => some error.message
  | .ok _ => none

namespace Action

variable {σ α β : Type}

theorem perform_pure (value : α) (state : σ) :
    (pure value : Action σ α).perform state = (.ok value, state) := rfl

theorem perform_update (change : σ → Result (α × σ)) (state : σ) :
    (update change).perform state =
      match change state with
      | .ok (value, state) => (.ok value, state)
      | .error error => (.error error, state) := rfl

theorem perform_bind (action : Action σ α) (next : α → Action σ β) (state : σ) :
    (action >>= next).perform state =
      match action.perform state with
      | (.ok value, state) => (next value).perform state
      | (.error error, state) => (.error error, state) := by
  show (ExceptT.bindCont next (action.perform state).1) (action.perform state).2 = _
  rcases action.perform state with ⟨_ | value, last⟩ <;> rfl

def forget (action : Action σ α) : Action σ Unit := do
  let _ ← action

theorem perform_forget (action : Action σ α) (state : σ) :
    action.forget.perform state =
      ((action.perform state).1.map fun _ => (), (action.perform state).2) := by
  rw [forget, perform_bind]
  rcases action.perform state with ⟨_ | value, last⟩ <;> rfl

theorem perform_attempt (action : Action σ α) (state : σ) :
    action.attempt.perform state = (.ok (action.perform state).1, (action.perform state).2) := rfl

end Action

end CodeAtlas
