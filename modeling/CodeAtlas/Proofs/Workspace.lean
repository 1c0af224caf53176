import CodeAtlas.Proofs.Action
import CodeAtlas.Workspace

/-!
# Databases of a workspace

A question to a database is one to the graph in it, and a change of this graph is what the database
holds afterwards, whether it has a file or not.
-/

namespace CodeAtlas.Workspace

open CodeAtlas.Graph

theorem store_stored_eq_ok_iff {workspace : Workspace} {number : Nat} {store : Store} :
    workspace.store (.stored number) = .ok store ↔
      workspace.databases[number]? = some (some store) := by
  rw [Workspace.store]
  split
  · next present hp => simp [hp]
  · next hn => simpa using hn store

variable {database : Database} {workspace : Workspace} {store : Store} {α : Type}

theorem eq_of_store_eq_error {error : Error} (h : workspace.store database = .error error) :
    error = .database .notDatabase := by
  cases database with
  | transient present => cases h
  | stored number =>
      rw [Workspace.store] at h
      split at h
      · cases h
      · exact (Except.error.inj h).symm

theorem perform_ask (question : Store → Result α) (h : workspace.store database = .ok store) :
    (ask question).perform (database, workspace) = (question store, database, workspace) := by
  change ((workspace.store database >>= question), database, workspace) = _
  rw [h]
  rfl

/-! ## Changes -/

/-- An open database, with another graph in it. -/
def holding (store : Store) : Opened → Opened
  | (.transient _, workspace) => (.transient store, workspace)
  | (.stored number, workspace) =>
      (.stored number, { workspace with databases := workspace.databases.set number (some store) })

section

variable {opened : Opened} {new : Store}

@[simp] theorem files_holding (store : Store) (opened : Opened) :
    (holding store opened).2.files = opened.2.files := by
  rcases opened with ⟨number | present, workspace⟩ <;> rfl

theorem store_holding (h : opened.2.store opened.1 = .ok store) (new : Store) :
    (holding new opened).2.store (holding new opened).1 = .ok new := by
  obtain ⟨number | present, workspace⟩ := opened
  · have hl := (List.getElem?_eq_some_iff.1 (store_stored_eq_ok_iff.1 h)).1
    exact store_stored_eq_ok_iff.2 (List.getElem?_set_self hl)
  · rfl

@[simp] theorem holding_holding (store new : Store) (opened : Opened) :
    holding new (holding store opened) = holding new opened := by
  obtain ⟨number | present, workspace⟩ := opened
  · simp [holding]
  · rfl

theorem holding_self (h : opened.2.store opened.1 = .ok store) : holding store opened = opened := by
  obtain ⟨number | present, workspace⟩ := opened
  · obtain ⟨hl, hg⟩ := List.getElem?_eq_some_iff.1 (store_stored_eq_ok_iff.1 h)
    rw [holding, ← hg, List.set_getElem_self]
  · obtain rfl := Except.ok.inj h
    rfl

theorem perform_change {action : Store → Result (α × Store)} {value : α}
    (h : opened.2.store opened.1 = .ok store) (ha : action store = .ok (value, new)) :
    (change action).perform opened = (.ok value, holding new opened) := by
  obtain ⟨database, workspace⟩ := opened
  rw [change, Action.perform_update]
  simp only [h, ha, bind, Except.bind, pure, Except.pure]
  cases database <;> rfl

theorem perform_change_of_error {action : Store → Result (α × Store)} {error : Error}
    (h : opened.2.store opened.1 = .error error) :
    (change action).perform opened = (.error error, opened) := by
  rw [change, Action.perform_update]
  simp only [h, bind, Except.bind]

end

end CodeAtlas.Workspace

namespace CodeAtlas.Engine

open CodeAtlas.Graph CodeAtlas.Workspace

/-- The engine carries out whatever it is asked, as it does while there is room for the database,
nobody else holds it, and no text is too long for it. -/
def IsReliable (engine : Engine) : Prop :=
  ∀ statement store, engine.refusal? statement store = none

theorem isReliable_reliable : reliable.IsReliable := fun _ _ => rfl

variable {engine : Engine} {opened : Opened} {store : Store}

theorem perform_execute {statement : Statement} (next : Store → Store)
    (h : opened.2.store opened.1 = .ok store) (hp : engine.refusal? statement store = none) :
    (engine.execute statement next).perform opened = (.ok (), holding (next store) opened) := by
  refine perform_change h ?_
  rw [permit, hp]
  rfl

theorem perform_execute_of_refusal {statement : Statement} {cause : DatabaseError}
    (next : Store → Store) (h : opened.2.store opened.1 = .ok store)
    (hp : engine.refusal? statement store = some cause) :
    (engine.execute statement next).perform opened = (.error (.database cause), opened) := by
  obtain ⟨database, workspace⟩ := opened
  rw [execute, change, Action.perform_update]
  simp only [h, permit, hp, bind, Except.bind]

theorem perform_load (h : opened.2.store opened.1 = .ok store) {edges : List Edge}
    {strategy : Strategy} (hp : engine.refusal? (.insert strategy edges) store = none) :
    (engine.load strategy edges).perform opened =
      (.ok ⟨edges.length, strategy⟩, holding (store.load strategy edges) opened) := by
  rw [load, Action.perform_bind, perform_execute _ h hp]
  rfl

theorem perform_load_of_refusal (h : opened.2.store opened.1 = .ok store) {edges : List Edge}
    {strategy : Strategy} {cause : DatabaseError}
    (hp : engine.refusal? (.insert strategy edges) store = some cause) :
    (engine.load strategy edges).perform opened = (.error (.database cause), opened) := by
  rw [load, Action.perform_bind, perform_execute_of_refusal _ h hp]

theorem perform_clear_cases (engine : Engine) (h : opened.2.store opened.1 = .ok store) :
    engine.clear.perform opened = (.ok (), holding .empty opened) ∨
      ∃ cause left, engine.clear.perform opened = (.error (.database cause), holding left opened) ∧
        (engine.refusal? .deleteEdges store = some cause ∧ left = store ∨
          engine.refusal? .deleteFiles store.deleteEdges = some cause ∧ left = store.deleteEdges ∨
          engine.refusal? .resetNumbers store.deleteEdges.deleteFiles = some cause ∧
            left = store.deleteEdges.deleteFiles) := by
  have hedges := store_holding h store.deleteEdges
  have hfiles := store_holding hedges store.deleteEdges.deleteFiles
  rw [clear, Action.perform_bind]
  cases he : engine.refusal? .deleteEdges store with
  | some cause =>
      rw [perform_execute_of_refusal _ h he]
      exact .inr ⟨cause, store, by rw [holding_self h], .inl ⟨rfl, rfl⟩⟩
  | none =>
      rw [perform_execute _ h he]
      dsimp only
      rw [Action.perform_bind]
      cases hf : engine.refusal? .deleteFiles store.deleteEdges with
      | some cause =>
          rw [perform_execute_of_refusal _ hedges hf]
          exact .inr ⟨cause, _, rfl, .inr (.inl ⟨rfl, rfl⟩)⟩
      | none =>
          rw [perform_execute _ hedges hf]
          dsimp only
          cases hn : engine.refusal? .resetNumbers store.deleteEdges.deleteFiles with
          | some cause =>
              rw [perform_execute_of_refusal _ hfiles hn, holding_holding]
              exact .inr ⟨cause, _, rfl, .inr (.inr ⟨rfl, rfl⟩)⟩
          | none =>
              rw [perform_execute _ hfiles hn, holding_holding, holding_holding]
              exact .inl rfl

theorem perform_clear (hr : engine.IsReliable) (h : opened.2.store opened.1 = .ok store) :
    engine.clear.perform opened = (.ok (), holding .empty opened) := by
  obtain hdone | ⟨cause, left, -, hleft⟩ := engine.perform_clear_cases h
  · exact hdone
  · simp [hr _ _] at hleft

theorem perform_stats (h : opened.2.store opened.1 = .ok store)
    (hp : engine.refusal? .count store = none) :
    engine.stats.perform opened = (.ok store.stats, opened) := by
  rw [stats, perform_ask _ h, permit, hp]
  rfl

theorem perform_stats_of_refusal (h : opened.2.store opened.1 = .ok store) {cause : DatabaseError}
    (hp : engine.refusal? .count store = some cause) :
    engine.stats.perform opened = (.error (.database cause), opened) := by
  rw [stats, perform_ask _ h, permit, hp]
  rfl

/-! ### No graph -/

variable {error : Error}

theorem perform_load_of_error (engine : Engine) (h : opened.2.store opened.1 = .error error)
    (edges : List Edge) (strategy : Strategy) :
    (engine.load strategy edges).perform opened = (.error error, opened) := by
  rw [load, Action.perform_bind, execute, perform_change_of_error h]

theorem perform_clear_of_error (engine : Engine) (h : opened.2.store opened.1 = .error error) :
    engine.clear.perform opened = (.error error, opened) := by
  rw [clear, Action.perform_bind, execute, perform_change_of_error h]

end CodeAtlas.Engine
