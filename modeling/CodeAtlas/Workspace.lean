import CodeAtlas.Graph.Store
import CodeAtlas.Publication

/-!
# Workspaces

A workspace is a file tree with the graph databases in it. A database is kept under a number beside
the tree, and its file holds the number: one who has opened a database keeps it when its file is
moved or removed, and loses it when its file is written over.
-/

namespace CodeAtlas

structure Workspace where
  files : FileTree := {}
  /-- The databases by their numbers; one that was written over is gone. -/
  databases : List (Option Graph.Store) := []
deriving DecidableEq, Repr

inductive Database where
  | stored (number : Nat)
  /-- A database without a file, which nobody else can open. -/
  | transient (store : Graph.Store)
deriving DecidableEq, Repr

namespace Workspace

/-! ## Files -/

def onFiles {α : Type} (action : FileTree → Except SystemError α × FileTree) : Action Workspace α :=
  ExceptT.mk fun workspace =>
    let (result, files) := action workspace.files
    (result.mapError .system, { workspace with files })

def databaseNumber? (workspace : Workspace) (path : String) : Option Nat :=
  match workspace.files.find? path with
  | some (.file (.graph number)) => some number
  | _ => none

/-- Writes a file; a database in it is lost. -/
def write (path : String) (content : Content) : Action Workspace Unit :=
  Action.update fun workspace => do
    let files ← (workspace.files.write path content).mapError .system
    let databases :=
      match workspace.databaseNumber? path with
      | some number => workspace.databases.set number none
      | none => workspace.databases
    return ((), { files, databases })

def remove (path : String) : Action Workspace Unit :=
  Action.update fun workspace => do
    return ((), { workspace with files := ← (workspace.files.remove path).mapError .system })

def publish (path text : String) : Action Workspace Unit :=
  onFiles fun files => files.publish path text

/-! ## Databases -/

/-- Paths that name a database without a file. -/
def transientPaths : List String := ["", ":memory:"]

def isEmptyContent : Content → Bool
  | .text value => value.isEmpty
  | .bytes value => value.isEmpty
  | .graph _ => false

def createDatabase (trail : Trail) (workspace : Workspace) : Database × Workspace :=
  let number := workspace.databases.length
  (.stored number, {
    files := workspace.files.put trail (.file (.graph number))
    databases := workspace.databases ++ [some .empty] })

def cannotOpen {α : Type} (path : String) : Result α :=
  .error (.datastoreUnavailable path s!"unable to open database file: {path}"
    "Check that graph.db_path (or CODECOMPASS_GRAPH_DB) is writable.")

/-- Opens the database in a file, which is made if it is missing or empty. -/
def openDatabase (path : String) : Action Workspace Database :=
  Action.update fun workspace =>
    if transientPaths.contains path then .ok (.transient .empty, workspace)
    else
      match workspace.files.locate path with
      | .error _ => cannotOpen path
      | .ok trail =>
          match workspace.files.get? trail with
          | none => .ok (workspace.createDatabase trail)
          | some .directory => cannotOpen path
          | some (.file (.graph number)) => .ok (.stored number, workspace)
          | some (.file content) =>
              if isEmptyContent content then .ok (workspace.createDatabase trail)
              else .error (.database .notDatabase)

def store (database : Database) (workspace : Workspace) : Result Graph.Store :=
  match database with
  | .transient store => .ok store
  | .stored number =>
      match workspace.databases[number]? with
      | some (some store) => .ok store
      | _ => .error (.database .notDatabase)

/-- A database and the workspace, where the first is open. -/
abbrev Opened := Database × Workspace

def ask {α : Type} (question : Graph.Store → Result α) : Action Opened α :=
  Action.inspect fun (database, workspace) => do question (← workspace.store database)

def change {α : Type} (action : Graph.Store → Result (α × Graph.Store)) : Action Opened α :=
  Action.update fun (database, workspace) => do
    let (value, store) ← action (← workspace.store database)
    match database with
    | .transient _ => return (value, .transient store, workspace)
    | .stored number =>
        let databases := workspace.databases.set number (some store)
        return (value, database, { workspace with databases })

end Workspace

/-! ## Engines -/

/-- What the engine that keeps a database is asked to do as a whole or not at all. -/
inductive Statement where
  | deleteEdges
  | deleteFiles
  | resetNumbers
  /-- All edges of a load, in one transaction. -/
  | insert (strategy : Graph.Strategy) (edges : List Graph.Edge)
  | count
deriving DecidableEq

/-- An engine may refuse a statement, be it that a disk is full, that another program holds the
database or that a text is too long for it. -/
structure Engine where
  refusal? : Statement → Graph.Store → Option DatabaseError

namespace Engine

/-- The engine that carries out whatever it is asked. -/
def reliable : Engine := ⟨fun _ _ => none⟩

def permit (engine : Engine) (statement : Statement) (store : Graph.Store) : Result Unit :=
  match engine.refusal? statement store with
  | some cause => .error (.database cause)
  | none => .ok ()

/-- A change of the graph by one statement. -/
def execute (engine : Engine) (statement : Statement) (next : Graph.Store → Graph.Store) :
    Action Workspace.Opened Unit :=
  Workspace.change fun store => do
    engine.permit statement store
    return ((), next store)

def load (engine : Engine) (strategy : Graph.Strategy) (edges : List Graph.Edge) :
    Action Workspace.Opened Graph.LoadSummary := do
  engine.execute (.insert strategy edges) fun store => store.load strategy edges
  return ⟨edges.length, strategy⟩

/-- Clears a graph by three statements, each of which is done for good before the next is tried. -/
def clear (engine : Engine) : Action Workspace.Opened Unit := do
  engine.execute .deleteEdges Graph.Store.deleteEdges
  engine.execute .deleteFiles Graph.Store.deleteFiles
  engine.execute .resetNumbers Graph.Store.resetNumbers

def stats (engine : Engine) : Action Workspace.Opened Graph.Stats :=
  Workspace.ask fun store => do
    engine.permit .count store
    return store.stats

end Engine

end CodeAtlas
