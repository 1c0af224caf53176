import CodeAtlas.Remote.Client
import CodeAtlas.Workspace

/-!
# Access to graphs

A graph that has been opened is a local database or the client of a server. Both answer the same
questions and take the same changes. Where no engine is named, a local database is kept by one that
refuses nothing.
-/

namespace CodeAtlas.Graph

/-- A graph that has been opened. -/
inductive Handle where
  | database (value : Database)
  | server (client : Remote.Client)

namespace Handle

abbrev Opened := Handle × Workspace

/-- Does one thing with a local database and another with a server. -/
def either {α : Type} (onDatabase : Action Workspace.Opened α) (onServer : Action Remote.Client α) :
    Action Opened α :=
  ExceptT.mk fun (handle, workspace) =>
    match handle with
    | .database opened =>
        let (result, opened, workspace) := onDatabase.perform (opened, workspace)
        (result, .database opened, workspace)
    | .server opened =>
        let (result, opened) := onServer.perform opened
        (result, .server opened, workspace)

def backendName : Handle → String
  | database _ => "sqlite"
  | server _ => "falkordb"

def neighbors (file : String) (direction : Direction) : Action Opened (List Neighbor) :=
  either (Workspace.ask fun store => store.neighbors file direction)
    (Remote.Client.neighbors file direction)

def statsWith (engine : Engine) : Action Opened Stats := either engine.stats Remote.Client.stats

def loadWith (engine : Engine) (edges : List Edge) (strategy : Strategy) :
    Action Opened LoadSummary :=
  either (engine.load strategy edges) (Remote.Client.load strategy edges)

def clearWith (engine : Engine) : Action Opened Unit := either engine.clear Remote.Client.clear

def stats : Action Opened Stats := statsWith .reliable

def load : List Edge → Strategy → Action Opened LoadSummary := loadWith .reliable

def clear : Action Opened Unit := clearWith .reliable

/-- Lets go of a graph. A local database needs nothing for that. -/
def close : Action Opened Unit := either (pure ()) Remote.Client.close

end Handle

def openWith (settings : GraphSettings) (dial : Remote.Client.Dialer) : Action Workspace Handle :=
  match settings.backend with
  | .sqlite => do return .database (← Workspace.openDatabase settings.databasePath)
  | .falkor => do return .server (← Action.ofResult (Remote.Client.connect settings dial).outcome)

end CodeAtlas.Graph
