import CodeAtlas.Error

/-!
# Actions

A computation on a state that may fail. What it did to the state before it failed stays done.
-/

namespace CodeAtlas

abbrev Action (σ α : Type) := ExceptT Error (StateM σ) α

namespace Action

variable {σ τ α : Type}

/-- A result that leaves the state alone. -/
def ofResult (result : Result α) : Action σ α := ExceptT.mk (pure result)

/-- The state it reads and the result that comes of it. -/
def inspect (read : σ → Result α) : Action σ α := ExceptT.mk fun state => (read state, state)

/-- A change that may fail, and then changes nothing. -/
def update (change : σ → Result (α × σ)) : Action σ α := ExceptT.mk fun state =>
  match change state with
  | .ok (value, state) => (.ok value, state)
  | .error error => (.error error, state)

def within (get : τ → σ) (set : τ → σ → τ) (action : Action σ α) : Action τ α :=
  ExceptT.mk fun state =>
    let (result, part) := action.run.run (get state)
    (result, set state part)

/-- The outcome of an action, which does not fail itself. -/
def attempt (action : Action σ α) : Action σ (Result α) := ExceptT.mk fun state =>
  let (result, state) := action.run.run state
  (.ok result, state)

def perform (action : Action σ α) (state : σ) : Result α × σ := action.run.run state

end Action

end CodeAtlas
