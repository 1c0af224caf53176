import CodeAtlas.Graph.Access
import CodeAtlas.Proofs.Graph.Loading
import CodeAtlas.Proofs.Workspace

/-!
# Operations on a graph

What may be done with a graph that has been opened, in any order and number. What is told of a run
of operations is what it leaves of the graph, and for a local graph how each one ends.
-/

namespace CodeAtlas.Graph

/-- Something done with an open graph. -/
inductive Operation where
  | load (edges : List Edge) (strategy : Strategy)
  | loadWithFallback (edges : List Edge)
  | clear
  | neighbors (file : String) (direction : Direction)
  | stats
  | close
deriving DecidableEq

namespace Operation

def action : Operation → Action Handle.Opened Unit
  | load edges strategy => (Handle.load edges strategy).forget
  | loadWithFallback edges => (Graph.loadWithFallback (Handle.load edges)).forget
  | clear => Handle.clear
  | neighbors file direction => (Handle.neighbors file direction).forget
  | stats => Handle.stats.forget
  | close => Handle.close

def after (opened : Handle.Opened) (operation : Operation) : Handle.Opened :=
  (operation.action.perform opened).2

/-- What is left of an open graph by one operation after the other. -/
def afterAll (operations : List Operation) (opened : Handle.Opened) : Handle.Opened :=
  operations.foldl after opened

end Operation

/-! ## Local graphs -/

namespace Handle

/-- An open graph is a local one, in which the store is. -/
def HasStore (opened : Opened) (store : Store) : Prop :=
  ∃ database, opened.1 = .database database ∧ opened.2.store database = .ok store

variable {opened : Opened} {store : Store}

theorem perform_either_database {α : Type} (onDatabase : Action Workspace.Opened α)
    (onServer : Action Remote.Client α) (database : Database) (workspace : Workspace) :
    (either onDatabase onServer).perform (.database database, workspace) =
      ((onDatabase.perform (database, workspace)).1,
        .database (onDatabase.perform (database, workspace)).2.1,
        (onDatabase.perform (database, workspace)).2.2) := rfl

theorem perform_either_server {α : Type} (onDatabase : Action Workspace.Opened α)
    (onServer : Action Remote.Client α) (client : Remote.Client) (workspace : Workspace) :
    (either onDatabase onServer).perform (.server client, workspace) =
      ((onServer.perform client).1, .server (onServer.perform client).2, workspace) := rfl

theorem perform_neighbors (h : HasStore opened store) (file : String) (direction : Direction) :
    (neighbors file direction).perform opened = (store.neighbors file direction, opened) := by
  obtain ⟨handle, workspace⟩ := opened
  obtain ⟨database, rfl, hstore⟩ := h
  have hask : (Workspace.ask fun store => store.neighbors file direction).perform
      (database, workspace) = (store.neighbors file direction, database, workspace) :=
    Workspace.perform_ask _ hstore
  rw [neighbors, perform_either_database, hask]

theorem perform_stats (h : HasStore opened store) :
    stats.perform opened = (.ok store.stats, opened) := by
  obtain ⟨handle, workspace⟩ := opened
  obtain ⟨database, rfl, hstore⟩ := h
  rw [stats, statsWith, perform_either_database, Engine.perform_stats hstore rfl]

/-! ### Changes -/

def ofDatabase (opened : Workspace.Opened) : Opened := (.database opened.1, opened.2)

theorem perform_either_ofDatabase {α : Type} (onDatabase : Action Workspace.Opened α)
    (onServer : Action Remote.Client α) (opened : Workspace.Opened) :
    (either onDatabase onServer).perform (ofDatabase opened) =
      ((onDatabase.perform opened).1, ofDatabase (onDatabase.perform opened).2) := rfl

theorem HasStore.exists_ofDatabase (h : HasStore opened store) :
    ∃ base, opened = ofDatabase base ∧ base.2.store base.1 = .ok store := by
  obtain ⟨handle, workspace⟩ := opened
  obtain ⟨database, rfl, hstore⟩ := h
  exact ⟨(database, workspace), rfl, hstore⟩

variable {base : Workspace.Opened}

theorem hasStore_ofDatabase (h : base.2.store base.1 = .ok store) :
    HasStore (ofDatabase base) store := ⟨base.1, rfl, h⟩

theorem perform_load_ofDatabase (h : base.2.store base.1 = .ok store) (edges : List Edge)
    (strategy : Strategy) : (load edges strategy).perform (ofDatabase base) =
      (.ok ⟨edges.length, strategy⟩,
        ofDatabase (Workspace.holding (store.load strategy edges) base)) := by
  rw [load, loadWith, perform_either_ofDatabase, Engine.perform_load h rfl]

theorem perform_clear_ofDatabase (h : base.2.store base.1 = .ok store) :
    clear.perform (ofDatabase base) = (.ok (), ofDatabase (Workspace.holding .empty base)) := by
  rw [clear, clearWith, perform_either_ofDatabase,
    Engine.perform_clear Engine.isReliable_reliable h]

theorem perform_load (h : HasStore opened store) (edges : List Edge) (strategy : Strategy) :
    ∃ next, (load edges strategy).perform opened = (.ok ⟨edges.length, strategy⟩, next) ∧
      HasStore next (store.load strategy edges) := by
  obtain ⟨base, rfl, hstore⟩ := h.exists_ofDatabase
  exact ⟨_, perform_load_ofDatabase hstore edges strategy,
    hasStore_ofDatabase (Workspace.store_holding hstore _)⟩

theorem perform_clear (h : HasStore opened store) :
    ∃ next, clear.perform opened = (.ok (), next) ∧ HasStore next .empty := by
  obtain ⟨base, rfl, hstore⟩ := h.exists_ofDatabase
  exact ⟨_, perform_clear_ofDatabase hstore, hasStore_ofDatabase (Workspace.store_holding hstore _)⟩

end Handle

namespace Operation

/-- The operation loads edges, in whatever way. -/
inductive Loads (edges : List Edge) : Operation → Prop where
  | load (strategy : Strategy) : Loads edges (load edges strategy)
  | loadWithFallback : Loads edges (loadWithFallback edges)

theorem Loads.perform_action {edges : List Edge} {operation : Operation}
    (h : operation.Loads edges) {opened : Handle.Opened} {store : Store}
    (hs : Handle.HasStore opened store) : ∃ strategy next,
      operation.action.perform opened = (.ok (), next) ∧
      Handle.HasStore next (store.load strategy edges) := by
  cases h with
  | load strategy =>
      obtain ⟨next, hp, hn⟩ := Handle.perform_load hs edges strategy
      refine ⟨strategy, next, ?_, hn⟩
      rw [action, Action.perform_forget, hp]
      rfl
  | loadWithFallback =>
      obtain ⟨next, hp, hn⟩ := Handle.perform_load hs edges .generic
      refine ⟨.generic, next, ?_, hn⟩
      rw [action, Action.perform_forget, perform_loadWithFallback, hp]
      rfl

end Operation

end CodeAtlas.Graph
