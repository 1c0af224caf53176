import CodeAtlas.Configuration
import CodeAtlas.Json.Print

/-!
# Configuration files

A configuration as a JSON file. Every key may be missing and other keys are passed over. A file that
is missing or malformed counts as empty.
-/

namespace CodeAtlas

open Json

namespace BackendKind

def words : List (String × BackendKind) :=
  [("sqlite", .sqlite), ("falkor", .falkor), ("falkordb", .falkor)]

end BackendKind

namespace GraphSettings

def toJson (settings : GraphSettings) : Value :=
  let optional (key : String) (value : Option String) : List (String × Value) :=
    (value.map fun value => (key, Value.string value)).toList
  .object ([("backend", .string settings.backend.name),
    ("db_path", .string settings.databasePath), ("url", .string settings.url),
    ("graph_name", .string settings.graphName)] ++ optional "user" settings.user ++
    optional "password" settings.password ++
    [("connect_timeout_ms", .natural settings.connectTimeout)])

/-- Graph settings as far as a file gives them. -/
structure Partial where
  backend : Option BackendKind := none
  databasePath : Option String := none
  url : Option String := none
  graphName : Option String := none
  user : Option (Option String) := none
  password : Option (Option String) := none
  connectTimeout : Option Nat := none

def decoder : Decoder GraphSettings :=
  Decoder.record "GraphConfig"
    [Field.make ["backend"] true (Decoder.variant BackendKind.words) Partial.backend
        fun state value => { state with backend := some value },
      Field.make ["db_path"] true (Decoder.string "path string") Partial.databasePath
        fun state value => { state with databasePath := some value },
      Field.make ["url"] true Decoder.string Partial.url
        fun state value => { state with url := some value },
      Field.make ["graph_name"] true Decoder.string Partial.graphName
        fun state value => { state with graphName := some value },
      Field.make ["user"] true (Decoder.optional Decoder.string) Partial.user
        fun state value => { state with user := some value },
      Field.make ["password"] true (Decoder.optional Decoder.string) Partial.password
        fun state value => { state with password := some value },
      Field.make ["connect_timeout_ms"] true Decoder.word64 Partial.connectTimeout
        fun state value => { state with connectTimeout := some value }]
    {}
    fun state =>
      let given : GraphSettings := {}
      .ok {
        backend := state.backend.getD given.backend
        databasePath := state.databasePath.getD given.databasePath
        url := state.url.getD given.url
        graphName := state.graphName.getD given.graphName
        user := state.user.getD given.user
        password := state.password.getD given.password
        connectTimeout := state.connectTimeout.getD given.connectTimeout }

end GraphSettings

namespace IndexSettings

def toJson (settings : IndexSettings) : Value :=
  .object [("path", .string settings.path),
    ("module_prefix_chars", .natural settings.moduleLength), ("k1", .real settings.k1),
    ("b", .real settings.b)]

/-- Index settings as far as a file gives them. -/
structure Partial where
  path : Option String := none
  moduleLength : Option Nat := none
  k1 : Option Float := none
  b : Option Float := none

def decoder : Decoder IndexSettings :=
  Decoder.record "IndexConfig"
    [Field.make ["path"] true (Decoder.string "path string") Partial.path
        fun state value => { state with path := some value },
      Field.make ["module_prefix_chars"] true Decoder.size Partial.moduleLength
        fun state value => { state with moduleLength := some value },
      Field.make ["k1"] true Decoder.real Partial.k1
        fun state value => { state with k1 := some value },
      Field.make ["b"] true Decoder.real Partial.b
        fun state value => { state with b := some value }]
    {}
    fun state =>
      let given : IndexSettings := {}
      .ok {
        path := state.path.getD given.path
        moduleLength := state.moduleLength.getD given.moduleLength
        k1 := state.k1.getD given.k1
        b := state.b.getD given.b }

end IndexSettings

namespace Configuration

def toJson (configuration : Configuration) : Value :=
  .object [("graph", configuration.graph.toJson), ("index", configuration.index.toJson),
    ("edges_path", .string configuration.edgesPath),
    ("search_top_k", .natural configuration.searchLimit)]

/-- A configuration as far as a file gives it. -/
structure Partial where
  graph : Option GraphSettings := none
  index : Option IndexSettings := none
  edgesPath : Option String := none
  searchLimit : Option Nat := none

def decoder : Decoder Configuration :=
  Decoder.record "Config"
    [Field.make ["graph"] true GraphSettings.decoder Partial.graph
        fun state value => { state with graph := some value },
      Field.make ["index"] true IndexSettings.decoder Partial.index
        fun state value => { state with index := some value },
      Field.make ["edges_path"] true (Decoder.string "path string") Partial.edgesPath
        fun state value => { state with edgesPath := some value },
      Field.make ["search_top_k"] true Decoder.size Partial.searchLimit
        fun state value => { state with searchLimit := some value }]
    {}
    fun state =>
      let given : Configuration := {}
      .ok {
        graph := state.graph.getD given.graph
        index := state.index.getD given.index
        edgesPath := state.edgesPath.getD given.edgesPath
        searchLimit := state.searchLimit.getD given.searchLimit }

def ofText (text : String) : Except Json.Error Configuration :=
  decoder.ofText (Document.read (Input.ofText text))

def defaultFile : String := "codecompass.json"

/-- The settings in a file; defaults where the file is missing or malformed. -/
def ofFile (tree : FileTree) (path : String) : Except ConfigurationError Configuration :=
  if tree.contains path then
    match tree.read path >>= Content.readText with
    | .error cause => .error (.unreadable path cause)
    | .ok text => .ok ((ofText text).toOption.getD {})
  else .ok {}

def load (tree : FileTree) (environment : Environment) (path : String) :
    Except ConfigurationError Configuration := do
  let path := if path = "" then defaultFile else path
  override environment (← ofFile tree path)

def toText (configuration : Configuration) : String := configuration.toJson.pretty

def save (configuration : Configuration) (tree : FileTree) (path : String) :
    Except ConfigurationError FileTree :=
  (tree.write path (.text configuration.toText)).mapError (.unwritable path)

end Configuration

end CodeAtlas
