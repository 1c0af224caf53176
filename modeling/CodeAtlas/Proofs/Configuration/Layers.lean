import CodeAtlas.Configuration.File
import CodeAtlas.Configuration.Overrides
import CodeAtlas.Proofs.FileTree
import CodeAtlas.Proofs.Json.Records

/-!
# Layers of a configuration

Each setting is looked for in the environment, then in the file, and then among the defaults,
without a look at the other settings. Only the word for a backend can be refused; it is put in
first, so a configuration in use is changed as a whole or not at all.
-/

namespace CodeAtlas

open Json

/-! ## What a file gives -/

/-- The origin of what stands under the keys of a file. -/
def Configuration.inside : Origin := .text 127

/-- The origin of what stands one level below. -/
def Configuration.deeper : Origin := .text 126

namespace GraphSettings

/-- The keys of the graph's settings, and what stands under each of them. -/
def slots : List (Slot Partial) :=
  [⟨BackendKind, ["backend"], true, Decoder.variant BackendKind.words, Partial.backend,
      fun state value => { state with backend := some value }⟩,
    ⟨String, ["db_path"], true, Decoder.string "path string", Partial.databasePath,
      fun state value => { state with databasePath := some value }⟩,
    ⟨String, ["url"], true, Decoder.string, Partial.url,
      fun state value => { state with url := some value }⟩,
    ⟨String, ["graph_name"], true, Decoder.string, Partial.graphName,
      fun state value => { state with graphName := some value }⟩,
    ⟨Option String, ["user"], true, Decoder.optional Decoder.string, Partial.user,
      fun state value => { state with user := some value }⟩,
    ⟨Option String, ["password"], true, Decoder.optional Decoder.string, Partial.password,
      fun state value => { state with password := some value }⟩,
    ⟨Nat, ["connect_timeout_ms"], true, Decoder.word64, Partial.connectTimeout,
      fun state value => { state with connectTimeout := some value }⟩]

theorem makeUp_slots : Slot.MakeUp slots where
  get_set := by simp [slots]
  pairwise := by
    simp only [slots, List.pairwise_cons, List.forall_mem_cons, List.Pairwise.nil, and_true,
      List.not_mem_nil, false_implies, implies_true]
    repeat' apply And.intro
    all_goals exact ⟨by decide, fun _ _ => rfl, fun _ _ => rfl⟩
  ext := by
    rintro ⟨_, _, _, _, _, _, _⟩ ⟨_, _, _, _, _, _, _⟩ h
    simpa [slots] using h

/-- The settings with defaults where none are given. -/
def Partial.complete (given : Partial) : GraphSettings where
  backend := given.backend.getD .sqlite
  databasePath := given.databasePath.getD ".codecompass/graph.db"
  url := given.url.getD "falkor://localhost:6379"
  graphName := given.graphName.getD "codecompass"
  user := given.user.getD none
  password := given.password.getD none
  connectTimeout := given.connectTimeout.getD 5000

theorem decoder_object {entries : List (DraftString × Draft)} {given : Partial}
    (h : Slot.Gives slots Configuration.deeper entries given) :
    decoder Configuration.inside (.object entries none) = .ok given.complete :=
  makeUp_slots.record_of_gives (by simp [slots]) rfl h

end GraphSettings

namespace IndexSettings

/-- The keys of the index's settings, and what stands under each of them. -/
def slots : List (Slot Partial) :=
  [⟨String, ["path"], true, Decoder.string "path string", Partial.path,
      fun state value => { state with path := some value }⟩,
    ⟨Nat, ["module_prefix_chars"], true, Decoder.size, Partial.moduleLength,
      fun state value => { state with moduleLength := some value }⟩,
    ⟨Float, ["k1"], true, Decoder.real, Partial.k1,
      fun state value => { state with k1 := some value }⟩,
    ⟨Float, ["b"], true, Decoder.real, Partial.b,
      fun state value => { state with b := some value }⟩]

theorem makeUp_slots : Slot.MakeUp slots where
  get_set := by simp [slots]
  pairwise := by
    simp only [slots, List.pairwise_cons, List.forall_mem_cons, List.Pairwise.nil, and_true,
      List.not_mem_nil, false_implies, implies_true]
    repeat' apply And.intro
    all_goals exact ⟨by decide, fun _ _ => rfl, fun _ _ => rfl⟩
  ext := by
    rintro ⟨_, _, _, _⟩ ⟨_, _, _, _⟩ h
    simpa [slots] using h

/-- The settings with defaults where none are given. -/
def Partial.complete (given : Partial) : IndexSettings where
  path := given.path.getD ".codecompass/chunk_index.json"
  moduleLength := given.moduleLength.getD 2000
  k1 := given.k1.getD 1.5
  b := given.b.getD 0.75

theorem decoder_object {entries : List (DraftString × Draft)} {given : Partial}
    (h : Slot.Gives slots Configuration.deeper entries given) :
    decoder Configuration.inside (.object entries none) = .ok given.complete :=
  makeUp_slots.record_of_gives (by simp [slots]) rfl h

end IndexSettings

namespace Configuration

def slots : List (Slot Partial) :=
  [⟨GraphSettings, ["graph"], true, GraphSettings.decoder, Partial.graph,
      fun state value => { state with graph := some value }⟩,
    ⟨IndexSettings, ["index"], true, IndexSettings.decoder, Partial.index,
      fun state value => { state with index := some value }⟩,
    ⟨String, ["edges_path"], true, Decoder.string "path string", Partial.edgesPath,
      fun state value => { state with edgesPath := some value }⟩,
    ⟨Nat, ["search_top_k"], true, Decoder.size, Partial.searchLimit,
      fun state value => { state with searchLimit := some value }⟩]

theorem makeUp_slots : Slot.MakeUp slots where
  get_set := by simp [slots]
  pairwise := by
    simp only [slots, List.pairwise_cons, List.forall_mem_cons, List.Pairwise.nil, and_true,
      List.not_mem_nil, false_implies, implies_true]
    repeat' apply And.intro
    all_goals exact ⟨by decide, fun _ _ => rfl, fun _ _ => rfl⟩
  ext := by
    rintro ⟨_, _, _, _⟩ ⟨_, _, _, _⟩ h
    simpa [slots] using h

/-- All that a file may give, key by key. -/
structure Given where
  graph : GraphSettings.Partial := {}
  index : IndexSettings.Partial := {}
  edgesPath : Option String := none
  searchLimit : Option Nat := none

/-- What an object under a key gives; without one, nothing. -/
inductive GivesUnder {σ : Type} (slots : List (Slot σ)) (empty : σ) (key : String)
    (entries : List (DraftString × Draft)) : σ → Prop
  | absent (h : draftsUnder [key] entries = []) : GivesUnder slots empty key entries empty
  | object {parts : List (DraftString × Draft)} {given : σ}
      (h : draftsUnder [key] entries = [.object parts none])
      (hparts : Slot.Gives slots deeper parts given) : GivesUnder slots empty key entries given

/-- The entries of a file give these settings, in any order, and every other entry can be passed
over. -/
structure Given.IsGivenBy (given : Given) (entries : List (DraftString × Draft)) : Prop where
  passable : Slot.ArePassable slots entries
  graph : GivesUnder GraphSettings.slots {} "graph" entries given.graph
  index : GivesUnder IndexSettings.slots {} "index" entries given.index
  edgesPath : (Decoder.string "path string").Takes inside none (draftsUnder ["edges_path"] entries)
    given.edgesPath
  searchLimit : Decoder.size.Takes inside none (draftsUnder ["search_top_k"] entries)
    given.searchLimit

/-- What a file gives that is an object; a file that is missing gives nothing. -/
inductive Holds (tree : FileTree) (path : String) : Given → Prop
  | missing (h : tree.contains path = false) : Holds tree path {}
  | object {content : Content} {text : String} {entries : List (DraftString × Draft)}
      {given : Given} (hread : tree.read path = .ok content) (htext : content.readText = .ok text)
      (hentries : Document.read (Input.ofText text) = ⟨.object entries none, false⟩)
      (hgiven : given.IsGivenBy entries) : Holds tree path given

/-- The settings of a file with defaults where it gives none. -/
def Given.complete (given : Given) : Configuration where
  graph := given.graph.complete
  index := given.index.complete
  edgesPath := given.edgesPath.getD ".codecompass/edges.json"
  searchLimit := given.searchLimit.getD 8

/-- An object is completed where it stands, and where it is missing it is the default as a whole. -/
theorem GivesUnder.exists_takes {σ α : Type} {slots : List (Slot σ)} {empty given : σ}
    {key : String} {entries : List (DraftString × Draft)}
    (h : GivesUnder slots empty key entries given)
    {decoder : Decoder α} {complete : σ → α}
    (hdecoder : ∀ {parts : List (DraftString × Draft)} {given : σ},
      Slot.Gives slots deeper parts given →
      decoder inside (.object parts none) = .ok (complete given)) :
    ∃ read, decoder.Takes inside none (draftsUnder [key] entries) read ∧
      read.getD (complete empty) = complete given := by
  cases h with
  | absent hnone =>
      rw [hnone]
      exact ⟨none, .kept none, rfl⟩
  | object hone hparts =>
      rw [hone]
      exact ⟨_, .read (hdecoder hparts), rfl⟩

theorem ofText_of_isGivenBy {text : String} {entries : List (DraftString × Draft)} {given : Given}
    (hentries : Document.read (Input.ofText text) = ⟨.object entries none, false⟩)
    (h : given.IsGivenBy entries) : ofText text = .ok given.complete := by
  obtain ⟨graph, hgraph, hgraphComplete⟩ := h.graph.exists_takes GraphSettings.decoder_object
  obtain ⟨index, hindex, hindexComplete⟩ := h.index.exists_takes IndexSettings.decoder_object
  have hgives : Slot.Gives slots inside entries
      ⟨graph, index, given.edgesPath, given.searchLimit⟩ := by
    refine ⟨h.passable, ?_⟩
    simp only [slots, List.forall_mem_cons, List.not_mem_nil, false_implies, implies_true, and_true]
    exact ⟨hgraph, hindex, h.edgesPath, h.searchLimit⟩
  have hread : decoder (.text Document.depthLimit) (.object entries none) =
      .ok ⟨graph.getD (GraphSettings.Partial.complete {}),
        index.getD (IndexSettings.Partial.complete {}),
        given.edgesPath.getD ".codecompass/edges.json", given.searchLimit.getD 8⟩ :=
    makeUp_slots.record_of_gives (by simp [slots]) rfl hgives
  rw [ofText, hentries, Decoder.ofText, hread, hgraphComplete, hindexComplete]
  rfl

theorem ofFile_of_holds {tree : FileTree} {path : String} {given : Given}
    (h : Holds tree path given) : ofFile tree path = .ok given.complete := by
  cases h with
  | missing hmissing =>
      rw [ofFile, hmissing]
      rfl
  | object hread htext hentries hgiven =>
      rw [ofFile, FileTree.contains_of_read hread, if_pos rfl, hread]
      simp only [bind, Except.bind, htext, ofText_of_isGivenBy hentries hgiven]
      rfl

/-! ## The environment in place -/

variable {environment : Environment} {configuration : Configuration}

/-- The configuration with this backend, and with every text that the environment has. -/
def settle (environment : Environment) (configuration : Configuration) (backend : BackendKind) :
    Configuration where
  graph := {
    backend
    databasePath := (environment.value? "CODECOMPASS_GRAPH_DB").getD configuration.graph.databasePath
    url := (environment.value? "CODECOMPASS_GRAPH_URL").getD configuration.graph.url
    graphName := (environment.value? "CODECOMPASS_GRAPH_NAME").getD configuration.graph.graphName
    user := environment.value? "CODECOMPASS_GRAPH_USER" <|> configuration.graph.user
    password := environment.value? "CODECOMPASS_GRAPH_PASSWORD" <|> configuration.graph.password
    connectTimeout := configuration.graph.connectTimeout }
  index := { configuration.index with
    path := (environment.value? "CODECOMPASS_INDEX_PATH").getD configuration.index.path }
  edgesPath := configuration.edgesPath
  searchLimit := configuration.searchLimit

theorem override_eq (environment : Environment) (configuration : Configuration) :
    override environment configuration =
      (chooseBackend environment configuration.graph.backend).map
        (settle environment configuration) := by
  rw [override]
  cases chooseBackend environment configuration.graph.backend <;> rfl

theorem getD_getD_self {α : Type} (value : Option α) (default : α) :
    value.getD (value.getD default) = value.getD default := by
  cases value <;> rfl

theorem orElse_orElse_self {α : Type} (value other : Option α) :
    (value <|> value <|> other) = (value <|> other) := by
  cases value <;> rfl

theorem settle_settle (backend next : BackendKind) :
    settle environment (settle environment configuration backend) next =
      settle environment configuration next := by
  simp only [settle, getD_getD_self, orElse_orElse_self]

end Configuration

namespace Override

variable {environment : Environment}

theorem putAll_free {name : String} {put : String → Configuration → Configuration}
    (change : Option String → Configuration → Configuration)
    (hnone : ∀ configuration, change none configuration = configuration)
    (hsome : ∀ value configuration, change (some value) configuration = put value configuration)
    (rest : List Override) (configuration : Configuration) :
    putAll environment (free name put :: rest) configuration =
      putAll environment rest (change (environment.value? name) configuration) := by
  rw [putAll]
  cases hvalue : environment.value? name with
  | none => simp only [free, hvalue, hnone]
  | some value => simp only [free, hvalue, hsome]

theorem putAll_tail (environment : Environment) (configuration : Configuration) :
    putAll environment all.tail configuration =
      (.ok (), configuration.settle environment configuration.graph.backend) := by
  refine (putAll_free (fun value configuration => { configuration with graph := {
    configuration.graph with databasePath := value.getD configuration.graph.databasePath } })
      (fun _ => rfl) (fun _ _ => rfl) _ _).trans ?_
  refine (putAll_free (fun value configuration => { configuration with graph := {
    configuration.graph with url := value.getD configuration.graph.url } })
      (fun _ => rfl) (fun _ _ => rfl) _ _).trans ?_
  refine (putAll_free (fun value configuration => { configuration with graph := {
    configuration.graph with graphName := value.getD configuration.graph.graphName } })
      (fun _ => rfl) (fun _ _ => rfl) _ _).trans ?_
  refine (putAll_free (fun value configuration => { configuration with graph := {
    configuration.graph with user := value <|> configuration.graph.user } })
      (fun _ => rfl) (fun _ _ => rfl) _ _).trans ?_
  refine (putAll_free (fun value configuration => { configuration with graph := {
    configuration.graph with password := value <|> configuration.graph.password } })
      (fun _ => rfl) (fun _ _ => rfl) _ _).trans ?_
  refine (putAll_free (fun value configuration => { configuration with index := {
    configuration.index with path := value.getD configuration.index.path } })
      (fun _ => rfl) (fun _ _ => rfl) _ _).trans ?_
  rfl

end Override

namespace Configuration

variable {environment : Environment} {configuration : Configuration}

/-- The overrides in place are those that loading makes, and they are made as a whole or not at all:
the only one that can be refused comes before all others. -/
theorem applyOverrides_eq (environment : Environment) (configuration : Configuration) :
    configuration.applyOverrides environment =
      match override environment configuration with
      | .ok next => (.ok (), next)
      | .error error => (.error error, configuration) := by
  have htail := Override.putAll_tail environment
  rw [applyOverrides, override_eq, chooseBackend,
    show Override.all = .backend :: Override.all.tail from rfl, Override.putAll]
  cases hword : environment.value? Override.backend.name with
  | none =>
      have hword : environment.value? BackendKind.variable = none := hword
      rw [hword]
      exact htail configuration
  | some word =>
      have hword : environment.value? BackendKind.variable = some word := hword
      rw [hword]
      dsimp only [Override.backend]
      cases hbackend : BackendKind.ofWord? word with
      | none => rfl
      | some backend => exact htail _

theorem chooseBackend_again {backend next : BackendKind}
    (h : chooseBackend environment backend = .ok next) :
    chooseBackend environment next = .ok next := by
  unfold chooseBackend at h ⊢
  split at h
  · rfl
  · exact h

theorem applyOverrides_again (environment : Environment) (configuration : Configuration) :
    (configuration.applyOverrides environment).2.applyOverrides environment =
      configuration.applyOverrides environment := by
  rw [applyOverrides_eq environment configuration]
  cases h : override environment configuration with
  | error error => rw [applyOverrides_eq, h]
  | ok next =>
      rw [override_eq] at h
      cases hbackend : chooseBackend environment configuration.graph.backend with
      | error error =>
          rw [hbackend] at h
          cases h
      | ok backend =>
          rw [hbackend] at h
          obtain rfl : settle environment configuration backend = next := Except.ok.inj h
          have hagain : chooseBackend environment
              (settle environment configuration backend).graph.backend = .ok backend :=
            chooseBackend_again hbackend
          rw [applyOverrides_eq, override_eq, hagain, Except.map, settle_settle]

/-! ## Words for backends -/

theorem ofWord?_eq_none_iff {word : String} : BackendKind.ofWord? word = none ↔
    Text.lowercase (Text.trim word) ∉ ["sqlite", "falkor", "falkordb"] := by
  rw [BackendKind.ofWord?, List.lookup_eq_none_iff]
  simp

/-- The environment names a backend that is not known. -/
def RefusesBackend (environment : Environment) (error : ConfigurationError) : Prop :=
  ∃ word, environment.value? "CODECOMPASS_GRAPH_BACKEND" = some word ∧
    Text.lowercase (Text.trim word) ∉ ["sqlite", "falkor", "falkordb"] ∧
    error = .unknownBackend (Text.lowercase (Text.trim word))

theorem chooseBackend_eq_error_iff (backend : BackendKind) {error : ConfigurationError} :
    chooseBackend environment backend = .error error ↔ RefusesBackend environment error := by
  unfold chooseBackend RefusesBackend
  rw [show "CODECOMPASS_GRAPH_BACKEND" = BackendKind.variable from rfl]
  cases environment.value? BackendKind.variable with
  | none => simp
  | some word =>
      dsimp only
      cases hword : BackendKind.ofWord? word with
      | none =>
          have hunknown := ofWord?_eq_none_iff.1 hword
          constructor
          · intro h
            exact ⟨word, rfl, hunknown, (Except.error.inj h).symm⟩
          · rintro ⟨other, hother, -, rfl⟩
            cases hother
            rfl
      | some known =>
          constructor
          · intro h
            cases h
          · rintro ⟨other, hother, hunknown, -⟩
            cases hother
            rw [← ofWord?_eq_none_iff, hword] at hunknown
            cases hunknown

theorem override_eq_error_iff (configuration : Configuration) {error : ConfigurationError} :
    override environment configuration = .error error ↔ RefusesBackend environment error := by
  rw [override_eq, ← chooseBackend_eq_error_iff configuration.graph.backend]
  cases chooseBackend environment configuration.graph.backend with
  | error other => simp [Except.map]
  | ok backend => simp [Except.map]

theorem eq_of_chooseBackend {backend next : BackendKind}
    (h : chooseBackend environment backend = .ok next) :
    next = ((environment.value? BackendKind.variable).bind BackendKind.ofWord?).getD backend := by
  unfold chooseBackend at h
  split at h
  · next hword =>
      rw [hword]
      exact (Except.ok.inj h).symm
  · next word hword =>
      rw [hword, Option.bind_some]
      split at h
      · next known hknown =>
          rw [hknown]
          exact (Except.ok.inj h).symm
      · cases h

/-! ## Layers -/

/-- The first of three layers that says something. -/
def layered {α : Type} (outer inner : Option α) (default : α) : α := (outer <|> inner).getD default

/-- Each setting is that of the environment, or else that of the file, or else the default. -/
structure IsLayered (environment : Environment) (given : Given) (configuration : Configuration) :
    Prop where
  backend : configuration.graph.backend =
    layered ((environment.value? "CODECOMPASS_GRAPH_BACKEND").bind BackendKind.ofWord?)
      given.graph.backend .sqlite
  databasePath : configuration.graph.databasePath =
    layered (environment.value? "CODECOMPASS_GRAPH_DB") given.graph.databasePath
      ".codecompass/graph.db"
  url : configuration.graph.url =
    layered (environment.value? "CODECOMPASS_GRAPH_URL") given.graph.url "falkor://localhost:6379"
  graphName : configuration.graph.graphName =
    layered (environment.value? "CODECOMPASS_GRAPH_NAME") given.graph.graphName "codecompass"
  user : configuration.graph.user =
    layered ((environment.value? "CODECOMPASS_GRAPH_USER").map some) given.graph.user none
  password : configuration.graph.password =
    layered ((environment.value? "CODECOMPASS_GRAPH_PASSWORD").map some) given.graph.password none
  connectTimeout : configuration.graph.connectTimeout = layered none given.graph.connectTimeout 5000
  path : configuration.index.path =
    layered (environment.value? "CODECOMPASS_INDEX_PATH") given.index.path
      ".codecompass/chunk_index.json"
  moduleLength : configuration.index.moduleLength = layered none given.index.moduleLength 2000
  k1 : configuration.index.k1 = layered none given.index.k1 1.5
  b : configuration.index.b = layered none given.index.b 0.75
  edgesPath : configuration.edgesPath = layered none given.edgesPath ".codecompass/edges.json"
  searchLimit : configuration.searchLimit = layered none given.searchLimit 8

theorem getD_getD {α : Type} (outer inner : Option α) (default : α) :
    outer.getD (inner.getD default) = layered outer inner default := by
  cases outer <;> rfl

theorem orElse_getD_none {α : Type} (outer : Option α) (inner : Option (Option α)) :
    (outer <|> inner.getD none) = layered (outer.map some) inner none := by
  cases outer <;> rfl

theorem isLayered_of_override {given : Given}
    (h : override environment given.complete = .ok configuration) :
    IsLayered environment given configuration := by
  rw [override_eq] at h
  cases hbackend : chooseBackend environment given.complete.graph.backend with
  | error error =>
      rw [hbackend] at h
      cases h
  | ok backend =>
      rw [hbackend] at h
      obtain rfl : settle environment given.complete backend = configuration := Except.ok.inj h
      exact {
        backend := (eq_of_chooseBackend hbackend).trans (getD_getD _ _ _)
        databasePath := getD_getD _ _ _
        url := getD_getD _ _ _
        graphName := getD_getD _ _ _
        user := orElse_getD_none _ _
        password := orElse_getD_none _ _
        connectTimeout := rfl
        path := getD_getD _ _ _
        moduleLength := rfl
        k1 := rfl
        b := rfl
        edgesPath := rfl
        searchLimit := rfl }

theorem load_eq_override {tree : FileTree} {path : String} {given : Given}
    (h : Holds tree (if path = "" then defaultFile else path) given) :
    load tree environment path = override environment given.complete := by
  rw [load, ofFile_of_holds h]
  rfl

/-- Every setting that is loaded is that of the first layer that has one, whatever the other
settings are. Loading fails just where a backend is refused, a configuration in use is left as it
was there, and the same environment changes nothing when it is put in again. -/
theorem layers_of_holds {tree : FileTree} {path : String} {given : Given}
    (h : Holds tree (if path = "" then defaultFile else path) given) (environment : Environment) :
    (∀ error, load tree environment path = .error error ↔ RefusesBackend environment error) ∧
    (∀ configuration, load tree environment path = .ok configuration →
      IsLayered environment given configuration) ∧
    ∀ configuration : Configuration,
      (∀ error, (configuration.applyOverrides environment).1 = .error error ↔
        RefusesBackend environment error) ∧
      (∀ error, RefusesBackend environment error →
        (configuration.applyOverrides environment).2 = configuration) ∧
      (configuration.applyOverrides environment).2.applyOverrides environment =
        configuration.applyOverrides environment := by
  rw [load_eq_override h]
  refine ⟨fun error => override_eq_error_iff _, fun configuration hl => isLayered_of_override hl,
    fun configuration => ⟨fun error => ?_, fun error hr => ?_, applyOverrides_again _ _⟩⟩
  · rw [applyOverrides_eq, ← override_eq_error_iff configuration]
    cases override environment configuration <;> simp
  · rw [applyOverrides_eq, (override_eq_error_iff _).2 hr]

/-- A file with some of the keys, and with others that mean nothing. -/
def partialFile : Value :=
  .object [("version", .natural 3),
    ("graph", .object [("url", .string "falkor://far:1"), ("tags", .array [.null]),
      ("backend", .string "falkordb"), ("user", .null)]),
    ("search_top_k", .natural 5)]

def partialGiven : Given where
  graph := { backend := some .falkor, url := some "falkor://far:1", user := some none }
  searchLimit := some 5

def partialTree : FileTree := ⟨[(["codecompass.json"], .file (.text partialFile.compact))]⟩

/-- A word in other letters, a blank text and a name. -/
def partialEnvironment : Environment :=
  [("CODECOMPASS_GRAPH_BACKEND", " SQLite "), ("CODECOMPASS_GRAPH_URL", "  "),
    ("CODECOMPASS_GRAPH_NAME", "near")]

theorem holds_partialTree : Holds partialTree defaultFile partialGiven := by
  have hread : partialTree.read defaultFile = .ok (.text partialFile.compact) := rfl
  refine .object hread rfl (partialFile.read_print .compact) ?_
  refine ⟨Slot.arePassable_draftEntriesOf _ _,
    .object rfl ⟨Slot.arePassable_draftEntriesOf _ _, ?_⟩, .absent rfl, .kept none,
    .read (Decoder.size_draft _ (by decide))⟩
  simp only [GraphSettings.slots, List.forall_mem_cons, List.not_mem_nil, false_implies,
    implies_true, and_true]
  exact ⟨.read rfl, .kept none, .read rfl, .kept none, .read rfl, .kept none, .kept none⟩

/-- The backend is that of the environment, the blank text counts as none, and what neither layer
has is the default. -/
theorem layers_of_partialTree :
    Holds partialTree defaultFile partialGiven ∧
      ∃ configuration, load partialTree partialEnvironment "" = .ok configuration ∧
        configuration.graph.backend = .sqlite ∧ configuration.graph.url = "falkor://far:1" ∧
        configuration.graph.graphName = "near" ∧ configuration.graph.connectTimeout = 5000 ∧
        configuration.searchLimit = 5 ∧
        configuration.index.path = ".codecompass/chunk_index.json" := by
  have hholds : Holds partialTree (if "" = "" then defaultFile else "") partialGiven :=
    holds_partialTree
  obtain ⟨hfails, hlayers, -⟩ := layers_of_holds hholds partialEnvironment
  have hknown (error : ConfigurationError) : ¬RefusesBackend partialEnvironment error := by
    rintro ⟨word, hword, hunknown, -⟩
    obtain rfl : " SQLite " = word := Option.some.inj hword
    exact hunknown (by decide +kernel)
  cases hload : load partialTree partialEnvironment "" with
  | error error => exact absurd ((hfails error).1 hload) (hknown error)
  | ok configuration =>
      have h := hlayers configuration hload
      exact ⟨holds_partialTree, configuration, rfl, h.backend, h.url, h.graphName, h.connectTimeout,
        h.searchLimit, h.path⟩

end Configuration

end CodeAtlas
