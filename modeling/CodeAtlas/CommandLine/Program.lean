import CodeAtlas.Assistant
import CodeAtlas.Chunking
import CodeAtlas.CommandLine.Invocation
import CodeAtlas.Graph.EdgeList
import CodeAtlas.Search.Legacy

/-!
# Program

What the program does in a workspace for each of its commands, with what it prints and its exit
code: zero where something was found or done, one where nothing was found, and two for an error.
-/

namespace CodeAtlas.CommandLine

/-- What surrounds a run of the program. -/
structure Setting where
  environment : Environment := []
  /-- The time in milliseconds. -/
  time : Nat := 0
  dial : Remote.Client.Dialer := Remote.Client.offline
  /-- What keeps the database that a load goes into. -/
  engine : Engine := .reliable

structure Output where
  code : Nat
  printed : String := ""
  complaint : String := ""
deriving DecidableEq, Repr

/-- Why a command fails. -/
inductive Failure where
  | configuration (error : ConfigurationError)
  | operation (error : Error)
  | configExists (path : String)
  /-- An assistant left before it introduced itself. -/
  | noAssistant

namespace Failure

/-- Errors at the boundary say all there is to say; the others are marked as errors. -/
def text : Failure → String
  | configuration error => s!"Error: {error.message}"
  | operation error => if error.isBoundary then error.message else s!"Error: {error.fullMessage}"
  | configExists path => s!"Error: {path} already exists (use --force to overwrite)"
  | noAssistant =>
      "Error: MCP Server encountered an error during stdio transport: " ++
        "connection closed: initialized request"

end Failure

/-- What a command that does not fail has to say. -/
structure Answer where
  lines : List String := []
  /-- What is said where nothing was found. -/
  nothing : Option String := none
deriving DecidableEq, Repr

namespace Answer

def output (answer : Answer) : Output :=
  let printed := "".intercalate (answer.lines.map (· ++ "\n"))
  match answer.nothing with
  | none => { code := 0, printed }
  | some text => { code := 1, printed, complaint := text ++ "\n" }

end Answer

namespace Program

variable (setting : Setting) (configuration : Configuration)

def sourceTree (workspace : Workspace) (root : String) : SourceTree :=
  ⟨workspace.files, root, .python⟩

def extract (root output : String) : Action Workspace Answer := do
  let batch ← Action.inspect fun workspace =>
    (sourceTree workspace root).extractAll Convention.capitalized
  let list := Graph.EdgeList.merge batch.results
  Workspace.onFiles fun files => list.save files output
  let { files, parsed, skipped } := batch.summary
  return { lines :=
    [s!"Parsed {parsed} of {files} files ({skipped} skipped)",
      s!"Extracted {list.size} edges -> {output}"] ++
    list.counts.map fun (relation, count) =>
      "  " ++ Report.alignLeft 15 relation.name ++ " " ++ Report.alignRight 4 (toString count) }

/-- Runs an action with a graph that is opened for it. -/
def withOpened {α : Type} (graph : Graph.Handle) (action : Action Graph.Handle.Opened α) :
    Action Workspace α := ExceptT.mk fun workspace =>
  let (result, _, workspace) := action.perform (graph, workspace)
  (result, workspace)

def load (edges : String) (clear perRelation : Bool) : Action Workspace Answer := do
  let list ← Action.inspect fun workspace => Graph.EdgeList.load workspace.files edges
  let graph ← Graph.openWith configuration.graph setting.dial
  withOpened graph do
    if clear then Graph.Handle.clearWith setting.engine
    let summary ←
      if perRelation then Graph.Handle.loadWith setting.engine list.edges .perRelation
      else Graph.loadWithFallback (Graph.Handle.loadWith setting.engine list.edges)
    let stats ← Graph.Handle.statsWith setting.engine
    Graph.Handle.close
    return { lines := [s!"Loaded {summary.submitted} edges: graph now has {stats.files} files " ++
      s!"and {stats.totalEdges} relationships"] }

def index (root output : String) (query : Option String) : Action Workspace Answer := do
  let batch ← Action.inspect fun workspace =>
    (sourceTree workspace root).chunkAll configuration.index.moduleLength
  let index := Search.Index.build .float configuration.parameters root setting.time
    batch.results.flatten
  Workspace.onFiles fun files => index.save files output
  let line := s!"Indexed {index.size} chunks from {index.fileCount} files -> {output} " ++
    s!"({batch.summary.skipped} skipped)"
  match query with
  | none => return { lines := [line] }
  | some query =>
      let hits := index.search .float query configuration.searchLimit
      if hits.isEmpty then return { lines := [line], nothing := some (Report.noResults query) }
      else return { lines := [line, Report.search query hits] }

def migrate (list output : String) : Action Workspace Answer := do
  let index ← Action.inspect fun workspace =>
    Search.Index.ofLegacy configuration.parameters setting.time workspace.files list
  Workspace.onFiles fun files => index.save files output
  return { lines := [s!"Migrated {index.size} chunks ({index.fileCount} files) to {output}"] }

def surroundings : Surroundings Workspace Graph.Handle :=
  Surroundings.ofSettings configuration.graph setting.dial

/-- A navigator that has opened nothing yet. -/
def navigator : Navigator Graph.Handle := { indexPath := configuration.index.path }

/-- Runs an action with a navigator of its own. -/
def withNavigator {α : Type}
    (action : Surroundings Workspace Graph.Handle →
      Action (Navigator.Situated Workspace Graph.Handle) α) : Action Workspace α :=
  ExceptT.mk fun workspace =>
    let (result, _, workspace) :=
      (action (surroundings setting configuration)).perform (navigator configuration, workspace)
    (result, workspace)

/-- Rows as JSON or as text; without rows there is no text. -/
def rowsAnswer {α : Type} (json : Bool) (rows : List α) (toJson : α → Json.Value)
    (text nothing : String) : Answer where
  lines :=
    if json then [(Json.Value.array (rows.map toJson)).pretty]
    else if rows.isEmpty then []
    else [text]
  nothing := if rows.isEmpty then some nothing else none

def neighbors (file : String) (direction : Graph.Direction) (json : Bool) :
    Action Workspace Answer := do
  let rows ← withNavigator setting configuration fun around => do
    let rows ← Navigator.neighbors around file direction
    Navigator.close around
    return rows
  return rowsAnswer json rows Graph.Neighbor.toJson (Report.neighbors file rows)
    (Report.noNeighbors file)

def hitJson (scored : Search.Scored Float) : Json.Value :=
  .object [("file", .string scored.chunk.file), ("score", .real scored.score),
    ("chunk_kind", scored.chunk.kind.toJson), ("chunk_name", .string scored.chunk.name),
    ("chunk_text", .string scored.chunk.source)]

def search (query : String) (limit : Option Nat) (json : Bool) : Action Workspace Answer := do
  let hits ← withNavigator setting configuration fun around =>
    Navigator.search around query (limit.getD configuration.searchLimit)
  return rowsAnswer json hits hitJson (Report.search query hits) (Report.noResults query)

def stats (json : Bool) : Action Workspace Answer := do
  let stats ← withNavigator setting configuration fun around => do
    let stats ← Navigator.stats around
    Navigator.close around
    return stats
  return { lines := [if json then stats.toJson.pretty else Report.stats stats] }

/-- Writes the configuration without its password. -/
def init (path : String) (force : Bool) (workspace : Workspace) :
    Except Failure Answer × Workspace :=
  if !force && workspace.files.contains path then (.error (.configExists path), workspace)
  else
    let written := { configuration with graph.password := none }
    match written.save workspace.files path with
    | .error error => (.error (.configuration error), workspace)
    | .ok files => (.ok { lines := [s!"Wrote {path}"] }, { workspace with files })

def operation (action : Action Workspace Answer) (workspace : Workspace) :
    Except Failure Answer × Workspace :=
  let (result, workspace) := action.perform workspace
  (result.mapError .operation, workspace)

/-- Carries out a command. Without an assistant there is nobody to serve. -/
def perform (configPath : String) (command : Command) :
    Workspace → Except Failure Answer × Workspace :=
  match command with
  | .extract root output => operation (extract root (output.getD configuration.edgesPath))
  | .load edges clear perRelation =>
      operation (load setting configuration (edges.getD configuration.edgesPath) clear perRelation)
  | .index root output query =>
      operation (index setting configuration root (output.getD configuration.index.path) query)
  | .migrate list output =>
      operation (migrate setting configuration list (output.getD configuration.index.path))
  | .neighbors file direction json =>
      operation (neighbors setting configuration file direction json)
  | .search query limit json => operation (search setting configuration query limit json)
  | .stats json => operation (stats setting configuration json)
  | .serve => fun workspace => (.error .noAssistant, workspace)
  | .init force => init configuration configPath force

def configured (path : String) (workspace : Workspace) : Except Failure Configuration :=
  match Configuration.load workspace.files setting.environment path with
  | .error error => .error (.configuration error)
  | .ok configuration => (configuration.validate.map fun _ => configuration).mapError .configuration

def invoke (invocation : Invocation) (workspace : Workspace) :
    Except Failure Answer × Workspace :=
  match configured setting invocation.configPath workspace with
  | .error failure => (.error failure, workspace)
  | .ok configuration =>
      perform setting configuration invocation.configPath invocation.command workspace

/-- Serves an assistant that makes some requests and then leaves. -/
def serve (configPath : String) (requests : List Assistant.Request) (workspace : Workspace) :
    Except Failure (List (Except Assistant.Refusal Assistant.Reply)) × Workspace :=
  match configured setting configPath workspace with
  | .error failure => (.error failure, workspace)
  | .ok configuration =>
      let around := surroundings setting configuration
      let (replies, _, workspace) :=
        (Assistant.converse around configuration.searchLimit requests).run
          (navigator configuration, workspace)
      (.ok replies, workspace)

def version : String := "codecompass 0.3.0"

def help : String :=
  "Structural navigation for Python codebases\n\n" ++
    "Usage: codecompass [OPTIONS] <COMMAND>\n\nCommands: " ++
    ", ".intercalate Invocation.outerLevel.commands

/-- What is shown in place of carrying out a command. -/
def stopped : Stop → Output
  | .usage error => { code := 2, complaint := s!"error: {error.message}\n" }
  | .help true => { code := 0, printed := help ++ "\n" }
  | .help false => { code := 2, complaint := help ++ "\n" }
  | .version => { code := 0, printed := version ++ "\n" }

def run (arguments : List String) (workspace : Workspace) : Output × Workspace :=
  match Invocation.parse arguments with
  | .error stop => (stopped stop, workspace)
  | .ok invocation =>
      match invoke setting invocation workspace with
      | (.ok answer, workspace) => (answer.output, workspace)
      | (.error failure, workspace) =>
          ({ code := 2, complaint := failure.text ++ "\n" }, workspace)

end Program

end CodeAtlas.CommandLine
