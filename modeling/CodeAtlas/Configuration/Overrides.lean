import CodeAtlas.Configuration

/-!
# Overrides in place

The settings of the environment, put into a configuration that is in use. They are put in one after
the other, and one that cannot be put in ends this: what was put in before it stays.
-/

namespace CodeAtlas

/-- A variable, and what its value does to a configuration. -/
structure Override where
  name : String
  put : String → Configuration → Except ConfigurationError Configuration

namespace Override

def backend : Override where
  name := BackendKind.variable
  put word configuration :=
    match BackendKind.ofWord? word with
    | some backend => .ok { configuration with graph := { configuration.graph with backend } }
    | none => .error (.unknownBackend (Text.lowercase (Text.trim word)))

def free (name : String) (put : String → Configuration → Configuration) : Override where
  name
  put value configuration := .ok (put value configuration)

def graphText (name : String) (put : String → GraphSettings → GraphSettings) : Override :=
  free name fun value configuration => { configuration with graph := put value configuration.graph }

def indexText (name : String) (put : String → IndexSettings → IndexSettings) : Override :=
  free name fun value configuration => { configuration with index := put value configuration.index }

def all : List Override :=
  [backend,
    graphText "CODECOMPASS_GRAPH_DB" fun value graph => { graph with databasePath := value },
    graphText "CODECOMPASS_GRAPH_URL" fun value graph => { graph with url := value },
    graphText "CODECOMPASS_GRAPH_NAME" fun value graph => { graph with graphName := value },
    graphText "CODECOMPASS_GRAPH_USER" fun value graph => { graph with user := some value },
    graphText "CODECOMPASS_GRAPH_PASSWORD" fun value graph => { graph with password := some value },
    indexText "CODECOMPASS_INDEX_PATH" fun value index => { index with path := value }]

/-- Puts in what the environment has for each of them, and gives the configuration that is left. -/
def putAll (environment : Environment) :
    List Override → Configuration → Except ConfigurationError Unit × Configuration
  | [], configuration => (.ok (), configuration)
  | override :: rest, configuration =>
      match environment.value? override.name with
      | none => putAll environment rest configuration
      | some value =>
          match override.put value configuration with
          | .error error => (.error error, configuration)
          | .ok configuration => putAll environment rest configuration

end Override

def Configuration.applyOverrides (environment : Environment) (configuration : Configuration) :
    Except ConfigurationError Unit × Configuration :=
  Override.putAll environment Override.all configuration

end CodeAtlas
