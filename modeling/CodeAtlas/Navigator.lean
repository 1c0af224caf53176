import CodeAtlas.Graph.Access
import CodeAtlas.Search.Artifact

/-!
# Navigator

Answers questions about neighbours, matching files and statistics from a graph and an index, which
it opens when they are first needed and keeps. A graph that is not available is let go, so that the
next question opens it again; reloading lets go of both.
-/

namespace CodeAtlas

/-- Where a navigator gets its graph and its index: `σ` is the world around it, and `η` an open
graph. -/
structure Surroundings (σ η : Type) where
  files : σ → FileTree
  openGraph : Action σ η
  neighbors : String → Graph.Direction → Action (η × σ) (List Graph.Neighbor)
  stats : Action (η × σ) Graph.Stats
  close : Action (η × σ) Unit

/-- The surroundings of a navigator in a workspace. -/
def Surroundings.ofSettings (settings : GraphSettings) (dial : Remote.Client.Dialer) :
    Surroundings Workspace Graph.Handle where
  files := Workspace.files
  openGraph := Graph.openWith settings dial
  neighbors := Graph.Handle.neighbors
  stats := Graph.Handle.stats
  close := Graph.Handle.close

structure Navigator (η : Type) where
  indexPath : String
  graph : Option η := none
  index : Option (Search.Index Float) := none

namespace Navigator

/-- A path as the graph has it: without blanks around it, with slashes alone, and from the root. -/
def normalize (path : String) : String :=
  let chars := (Text.trimChars path.toList).map fun char => if char = '\\' then '/' else char
  let rec strip : List Char → List Char
    | '.' :: '/' :: rest => strip rest
    | rest => rest
  String.ofList (strip chars)

variable {σ η α : Type}

abbrev Situated (σ η : Type) := Navigator η × σ

/-- An error after which a graph is let go. -/
def losesGraph : Result α → Bool
  | .error (.datastoreUnavailable ..) => true
  | _ => false

/-- The open graph, or one that is opened now. -/
def acquire (around : Surroundings σ η) : Action (Situated σ η) η :=
  ExceptT.mk fun (navigator, world) =>
    match navigator.graph with
    | some graph => (.ok graph, navigator, world)
    | none =>
        let (result, world) := around.openGraph.perform world
        (result, navigator, world)

def withGraph (around : Surroundings σ η) (question : Action (η × σ) α) :
    Action (Situated σ η) α := ExceptT.mk fun situated =>
  match (acquire around).perform situated with
  | (.error error, situated) => (.error error, situated)
  | (.ok graph, navigator, world) =>
      let (result, graph, world) := question.perform (graph, world)
      (result, { navigator with graph := if losesGraph result then none else some graph }, world)

def neighbors (around : Surroundings σ η) (path : String) (direction : Graph.Direction) :
    Action (Situated σ η) (List Graph.Neighbor) :=
  let path := normalize path
  if path = "" then throw (.invalidArgument "file path is required")
  else withGraph around (around.neighbors path direction)

def stats (around : Surroundings σ η) : Action (Situated σ η) Graph.Stats :=
  withGraph around around.stats

/-- The index, which is read if there is none yet. -/
def loadedIndex (around : Surroundings σ η) : Action (Situated σ η) (Search.Index Float) :=
  Action.update fun (navigator, world) =>
    match navigator.index with
    | some index => .ok (index, navigator, world)
    | none => do
        let index ← Search.Index.load (around.files world) navigator.indexPath
        return (index, { navigator with index := some index }, world)

/-- The best files for a query, up to a number that is not zero. -/
def search (around : Surroundings σ η) (query : String) (limit : Nat) :
    Action (Situated σ η) (List (Search.Scored Float)) := do
  if Text.isBlankText query then throw (.invalidArgument "query is required")
  if limit = 0 then throw (.invalidArgument "top_n must be at least 1")
  return (← loadedIndex around).search .float query limit

def closeGraph (around : Surroundings σ η) : Action (Situated σ η) Unit :=
  ExceptT.mk fun (navigator, world) =>
    match navigator.graph with
    | none => (.ok (), navigator, world)
    | some graph =>
        let (result, _, world) := around.close.perform (graph, world)
        (result, { navigator with graph := none }, world)

/-- Lets go of graph and index. What closing the graph says is passed on. -/
def reload (around : Surroundings σ η) : Action (Situated σ η) Unit := ExceptT.mk fun situated =>
  let (result, navigator, world) := (closeGraph around).perform situated
  (result, { navigator with index := none }, world)

def close (around : Surroundings σ η) : Action (Situated σ η) Unit := reload around

end Navigator

end CodeAtlas
