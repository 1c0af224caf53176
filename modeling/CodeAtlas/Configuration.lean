import CodeAtlas.FileTree
import CodeAtlas.Search.Model
import CodeAtlas.Text.Blank
import CodeAtlas.Text.Lowercase

/-!
# Configuration

Where the graph, the index and the edge list are, and how the index is built and searched. Settings
come from a file, environment variables go before them, and defaults stand for what neither gives. A
variable that is blank counts as missing.
-/

namespace CodeAtlas

inductive BackendKind where
  | sqlite
  | falkor
deriving DecidableEq, Repr

namespace BackendKind

def name : BackendKind → String
  | sqlite => "sqlite"
  | falkor => "falkor"

/-- The backend a word stands for; case and blanks around it do not matter. -/
def ofWord? (word : String) : Option BackendKind :=
  [("sqlite", sqlite), ("falkor", falkor), ("falkordb", falkor)].lookup
    (Text.lowercase (Text.trim word))

end BackendKind

structure GraphSettings where
  backend : BackendKind := .sqlite
  databasePath : String := ".codecompass/graph.db"
  /-- Where the graph server is. -/
  url : String := "falkor://localhost:6379"
  graphName : String := "codecompass"
  user : Option String := none
  password : Option String := none
  connectTimeout : Nat := 5000
deriving DecidableEq, Repr

structure IndexSettings where
  path : String := ".codecompass/chunk_index.json"
  /-- Number of characters of a file that its own chunk keeps. -/
  moduleLength : Nat := 2000
  k1 : Float := 1.5
  b : Float := 0.75
deriving Repr

structure Configuration where
  graph : GraphSettings := {}
  index : IndexSettings := {}
  edgesPath : String := ".codecompass/edges.json"
  /-- How many files a search shows. -/
  searchLimit : Nat := 8
deriving Repr

/-- What is wrong with a configuration or its file. -/
inductive ConfigurationError where
  | unknownBackend (word : String)
  | unreadable (path : String) (cause : SystemError)
  | unwritable (path : String) (cause : SystemError)
  | zeroSearchLimit
  | zeroModuleLength
  | negativeK1
  | bOutOfRange
  | zeroTimeout
  | noUrl
  | noGraphName
deriving DecidableEq, Repr

def BackendKind.variable : String := "CODECOMPASS_GRAPH_BACKEND"

namespace ConfigurationError

def message : ConfigurationError → String
  | unknownBackend word =>
      s!"{BackendKind.variable}: unknown graph backend '{word}' (sqlite or falkor)"
  | unreadable path cause => s!"failed to read config: {path}: {cause.message}"
  | unwritable path cause => s!"failed to write config: {path}: {cause.message}"
  | zeroSearchLimit => "search_top_k must be positive"
  | zeroModuleLength => "index.module_prefix_chars must be positive"
  | negativeK1 => "index.k1 must be non-negative"
  | bOutOfRange => "index.b must be between 0 and 1"
  | zeroTimeout => "graph.connect_timeout_ms must be positive"
  | noUrl => "graph.url must be set for falkor"
  | noGraphName => "graph.graph_name must be set for falkor"

end ConfigurationError

abbrev Environment := List (String × String)

namespace Environment

/-- The value of a variable that is not blank. -/
def value? (environment : Environment) (name : String) : Option String :=
  (environment.lookup name).filter fun value => !Text.isBlankText value

end Environment

namespace Configuration

/-- The backend with the environment's choice, if it makes one. -/
def chooseBackend (environment : Environment) (backend : BackendKind) :
    Except ConfigurationError BackendKind :=
  match environment.value? BackendKind.variable with
  | none => .ok backend
  | some word =>
      match BackendKind.ofWord? word with
      | some backend => .ok backend
      | none => .error (.unknownBackend (Text.lowercase (Text.trim word)))

/-- The configuration with the settings of the environment. -/
def override (environment : Environment) (configuration : Configuration) :
    Except ConfigurationError Configuration := do
  let { graph, index, edgesPath, searchLimit } := configuration
  let backend ← chooseBackend environment graph.backend
  let text (name given : String) := (environment.value? name).getD given
  let optional (name : String) (given : Option String) := environment.value? name <|> given
  return {
    graph := {
      backend
      databasePath := text "CODECOMPASS_GRAPH_DB" graph.databasePath
      url := text "CODECOMPASS_GRAPH_URL" graph.url
      graphName := text "CODECOMPASS_GRAPH_NAME" graph.graphName
      user := optional "CODECOMPASS_GRAPH_USER" graph.user
      password := optional "CODECOMPASS_GRAPH_PASSWORD" graph.password
      connectTimeout := graph.connectTimeout }
    index := { index with path := text "CODECOMPASS_INDEX_PATH" index.path }
    edgesPath
    searchLimit }

/-- The first thing that is wrong with a configuration. -/
def problem? (configuration : Configuration) : Option ConfigurationError :=
  let { graph, index, searchLimit, .. } := configuration
  if searchLimit = 0 then some .zeroSearchLimit
  else if index.moduleLength = 0 then some .zeroModuleLength
  else if !(0.0 ≤ index.k1) then some .negativeK1
  else if !(0.0 ≤ index.b && index.b ≤ 1.0) then some .bOutOfRange
  else if graph.connectTimeout = 0 then some .zeroTimeout
  else if graph.backend = .falkor && Text.isBlankText graph.url then some .noUrl
  else if graph.backend = .falkor && Text.isBlankText graph.graphName then some .noGraphName
  else none

def validate (configuration : Configuration) : Except ConfigurationError Unit :=
  match configuration.problem? with
  | some problem => .error problem
  | none => .ok ()

def parameters (configuration : Configuration) : Search.Parameters Float :=
  ⟨configuration.index.k1, configuration.index.b⟩

end Configuration

end CodeAtlas
