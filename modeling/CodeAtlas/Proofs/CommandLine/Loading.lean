import CodeAtlas.Proofs.CommandLine.Surfaces
import CodeAtlas.Proofs.Graph.Counting
import CodeAtlas.Proofs.Opening

/-!
# Loads from the command line

A load reads the edge list before it opens the graph, and opens the graph before it clears it, so
what is wrong with the list or the database comes first. In an open graph only the engine can still
refuse a statement. What was done before that stays done: a graph that was cleared stays empty when
its edges are refused. With an engine that refuses nothing a load is done as a whole or not at all. A
graph that has been loaded finds its files again, and the same load leaves it as it is.
-/

namespace CodeAtlas

/-! ## Loaded stores -/

namespace Graph.Store

/-- A store with these edges, which come back in order, and with the files at their ends. -/
structure Consists (store : Store) (edges : List Edge) : Prop where
  exported : ∃ result, store.exported = .ok result ∧ result.Perm edges ∧
    result.Pairwise Edge.Precedes
  mem_paths : ∀ path, path ∈ store.paths ↔
    ∃ edge ∈ edges, path = edge.source ∨ path = edge.target

/-- A store with all that another one has, as it is there, to which edges have been added as far as
their keys were new. -/
structure Merges (store other : Store) (edges : List Edge) : Prop where
  mem_rows : ∀ row, row ∈ store.rows ↔ row ∈ other.rows ∨
    row.key ∉ other.rows.map Row.key ∧ ∃ edge ∈ edges, Row.ofEdge edge = row
  mem_paths : ∀ path, path ∈ store.paths ↔ path ∈ other.paths ∨
    ∃ edge ∈ edges, path = edge.source ∨ path = edge.target

variable (list : EdgeList) (strategy : Strategy)

theorem consists_load : (empty.load strategy list.edges).Consists list.edges := by
  have hholds : (empty.load strategy list.edges).Holds list.edges :=
    holds_empty.load strategy list.edges
  refine ⟨?_, fun path => ?_⟩
  · simpa only [list.distinct] using hholds.exported_eq
  · simpa only [list.distinct] using hholds.mem_paths path

theorem merges_load (store : Store) : (store.load strategy list.edges).Merges store list.edges := by
  refine ⟨fun row => ?_, fun path => ?_⟩
  · rw [mem_rows_load, list.distinct]
  · rw [mem_paths_load, ← Holds.exists_mem_dedup, list.distinct]

end Graph.Store

namespace CommandLine.Program

open CodeAtlas.Graph

variable {setting : Setting} {configuration : Configuration} {list : EdgeList} {engine : Engine}
  {edgesPath : String} {clear perRelation : Bool} {workspace : Workspace}

/-! ## Filling an open graph -/

/-- The edges are stored in one pass, or relation by relation. -/
def enter (engine : Engine) (list : EdgeList) (perRelation : Bool) :
    Action Handle.Opened LoadSummary :=
  if perRelation then Handle.loadWith engine list.edges .perRelation
  else loadWithFallback (Handle.loadWith engine list.edges)

def loadedAnswer (submitted : Nat) (stats : Stats) : Answer where
  lines := [s!"Loaded {submitted} edges: graph now has {stats.files} files " ++
    s!"and {stats.totalEdges} relationships"]

/-- What is done with the graph once it is clear, or need not be. -/
def enterAndTell (engine : Engine) (list : EdgeList) (perRelation : Bool) :
    Action Handle.Opened Answer := do
  let summary ← enter engine list perRelation
  let stats ← Handle.statsWith engine
  Handle.close
  return loadedAnswer summary.submitted stats

/-- What is done with the graph when it has been opened. -/
def fill (engine : Engine) (list : EdgeList) (clear perRelation : Bool) :
    Action Handle.Opened Answer :=
  if clear then Handle.clearWith engine >>= fun _ => enterAndTell engine list perRelation
  else enterAndTell engine list perRelation

theorem load_eq_fill : load setting configuration edgesPath clear perRelation = (do
    let list ← Action.inspect fun workspace => EdgeList.load workspace.files edgesPath
    let graph ← openWith configuration.graph setting.dial
    withOpened graph (fill setting.engine list clear perRelation)) := by
  cases clear <;> cases perRelation <;> rfl

def strategyOf (perRelation : Bool) : Strategy := if perRelation then .perRelation else .generic

/-- The store that the edges of a load come into. -/
def begun (clear : Bool) (store : Store) : Store := if clear then .empty else store

/-- The store that a load leaves of another. -/
def filled (list : EdgeList) (clear perRelation : Bool) (store : Store) : Store :=
  (begun clear store).load (strategyOf perRelation) list.edges

/-- What a load has to say of the store that it leaves. -/
def told (list : EdgeList) (store : Store) : Answer := loadedAnswer list.edges.length store.stats

theorem filled_filled (store : Store) :
    filled list clear perRelation (filled list clear perRelation store) =
      filled list clear perRelation store := by
  cases clear with
  | true => rfl
  | false => exact Store.load_load store _ _ list.edges

/-- A statement of a load is refused, with what the statements before it have left of a store. -/
inductive BreaksOff (engine : Engine) (list : EdgeList) (clear perRelation : Bool)
    (before : Store) : DatabaseError → Store → Prop where
  | edges {cause : DatabaseError} (hclear : clear = true)
      (h : engine.refusal? .deleteEdges before = some cause) :
      BreaksOff engine list clear perRelation before cause before
  | files {cause : DatabaseError} (hclear : clear = true)
      (h : engine.refusal? .deleteFiles before.deleteEdges = some cause) :
      BreaksOff engine list clear perRelation before cause before.deleteEdges
  | numbers {cause : DatabaseError} (hclear : clear = true)
      (h : engine.refusal? .resetNumbers before.deleteEdges.deleteFiles = some cause) :
      BreaksOff engine list clear perRelation before cause before.deleteEdges.deleteFiles
  | insert {cause : DatabaseError}
      (h : engine.refusal? (.insert (strategyOf perRelation) list.edges) (begun clear before) =
        some cause) :
      BreaksOff engine list clear perRelation before cause (begun clear before)
  | count {cause : DatabaseError}
      (h : engine.refusal? .count (filled list clear perRelation before) = some cause) :
      BreaksOff engine list clear perRelation before cause (filled list clear perRelation before)

theorem BreaksOff.not_isReliable {before left : Store} {cause : DatabaseError}
    (h : BreaksOff engine list clear perRelation before cause left) : ¬engine.IsReliable := by
  intro hreliable
  cases h with
  | edges _ h => cases (hreliable _ _).symm.trans h
  | files _ h => cases (hreliable _ _).symm.trans h
  | numbers _ h => cases (hreliable _ _).symm.trans h
  | insert h => cases (hreliable _ _).symm.trans h
  | count h => cases (hreliable _ _).symm.trans h

section

variable {opened : Workspace.Opened} {store : Store}

theorem perform_enter (engine : Engine) (list : EdgeList) (perRelation : Bool)
    (h : opened.2.store opened.1 = .ok store) :
    (enter engine list perRelation).perform (Handle.ofDatabase opened) =
        (.ok ⟨list.edges.length, strategyOf perRelation⟩, Handle.ofDatabase
          (Workspace.holding (store.load (strategyOf perRelation) list.edges) opened)) ∨
    ∃ cause, engine.refusal? (.insert (strategyOf perRelation) list.edges) store = some cause ∧
      (enter engine list perRelation).perform (Handle.ofDatabase opened) =
        (.error (.database cause), Handle.ofDatabase opened) := by
  have hload (strategy : Strategy) :
      (Handle.loadWith engine list.edges strategy).perform (Handle.ofDatabase opened) =
        (((engine.load strategy list.edges).perform opened).1,
          Handle.ofDatabase ((engine.load strategy list.edges).perform opened).2) :=
    Handle.perform_either_ofDatabase _ _ opened
  -- No engine refuses a way of loading as such.
  have henter : (enter engine list perRelation).perform (Handle.ofDatabase opened) =
      (Handle.loadWith engine list.edges (strategyOf perRelation)).perform
        (Handle.ofDatabase opened) := by
    cases perRelation with
    | true => rfl
    | false =>
        rw [enter, if_neg Bool.false_ne_true, perform_loadWithFallback, strategyOf,
          if_neg Bool.false_ne_true, hload]
        cases hp : engine.refusal? (.insert .generic list.edges) store with
        | none => rw [Engine.perform_load h hp]
        | some cause => rw [Engine.perform_load_of_refusal h hp]
  rw [henter, hload]
  cases hp : engine.refusal? (.insert (strategyOf perRelation) list.edges) store with
  | none => exact .inl (by rw [Engine.perform_load h hp])
  | some cause => exact .inr ⟨cause, rfl, by rw [Engine.perform_load_of_refusal h hp]⟩

theorem perform_enterAndTell (engine : Engine) (list : EdgeList) (perRelation : Bool)
    (h : opened.2.store opened.1 = .ok store) :
    let new := store.load (strategyOf perRelation) list.edges
    (enterAndTell engine list perRelation).perform (Handle.ofDatabase opened) =
        (.ok (told list new), Handle.ofDatabase (Workspace.holding new opened)) ∨
      ∃ cause left, (enterAndTell engine list perRelation).perform (Handle.ofDatabase opened) =
          (.error (.database cause), Handle.ofDatabase (Workspace.holding left opened)) ∧
        (engine.refusal? (.insert (strategyOf perRelation) list.edges) store = some cause ∧
            left = store ∨
          engine.refusal? .count new = some cause ∧ left = new) := by
  intro new
  obtain henter | ⟨cause, hp, henter⟩ := perform_enter engine list perRelation h
  · have hnew := Workspace.store_holding h new
    rw [enterAndTell, Action.perform_bind, henter]
    dsimp only
    rw [Action.perform_bind, Handle.statsWith, Handle.perform_either_ofDatabase]
    cases hp : engine.refusal? .count new with
    | none =>
        rw [Engine.perform_stats hnew hp]
        exact .inl rfl
    | some cause =>
        rw [Engine.perform_stats_of_refusal hnew hp]
        exact .inr ⟨cause, new, rfl, .inr ⟨rfl, rfl⟩⟩
  · rw [enterAndTell, Action.perform_bind, henter]
    exact .inr ⟨cause, store, by rw [Workspace.holding_self h], .inl ⟨hp, rfl⟩⟩

theorem perform_fill (engine : Engine) (list : EdgeList) (clear perRelation : Bool)
    (h : opened.2.store opened.1 = .ok store) :
    let new := filled list clear perRelation store
    (fill engine list clear perRelation).perform (Handle.ofDatabase opened) =
        (.ok (told list new), Handle.ofDatabase (Workspace.holding new opened)) ∨
      ∃ cause left, BreaksOff engine list clear perRelation store cause left ∧
        (fill engine list clear perRelation).perform (Handle.ofDatabase opened) =
          (.error (.database cause), Handle.ofDatabase (Workspace.holding left opened)) := by
  intro new
  have hrest {base : Workspace.Opened} (hb : base.2.store base.1 = .ok (begun clear store))
      (hsame : ∀ left, Workspace.holding left base = Workspace.holding left opened) :
      (enterAndTell engine list perRelation).perform (Handle.ofDatabase base) =
          (.ok (told list new), Handle.ofDatabase (Workspace.holding new opened)) ∨
        ∃ cause left, BreaksOff engine list clear perRelation store cause left ∧
          (enterAndTell engine list perRelation).perform (Handle.ofDatabase base) =
            (.error (.database cause), Handle.ofDatabase (Workspace.holding left opened)) := by
    obtain hdone | ⟨cause, left, hbroken, ⟨hp, rfl⟩ | ⟨hp, rfl⟩⟩ :=
      perform_enterAndTell engine list perRelation hb
    · exact .inl (hdone.trans (by rw [hsame]; rfl))
    · exact .inr ⟨cause, _, .insert hp, hbroken.trans (by rw [hsame])⟩
    · exact .inr ⟨cause, _, .count hp, hbroken.trans (by rw [hsame]; rfl)⟩
  rw [fill]
  cases clear with
  | false => exact hrest h fun _ => rfl
  | true =>
      rw [if_pos rfl, Action.perform_bind, Handle.clearWith, Handle.perform_either_ofDatabase]
      obtain hdone | ⟨cause, left, hbroken, hleft⟩ := engine.perform_clear_cases h
      · rw [hdone]
        exact hrest (Workspace.store_holding h .empty) fun _ => Workspace.holding_holding ..
      · rw [hbroken]
        refine .inr ⟨cause, left, ?_, rfl⟩
        obtain ⟨hp, rfl⟩ | ⟨hp, rfl⟩ | ⟨hp, rfl⟩ := hleft
        · exact .edges rfl hp
        · exact .files rfl hp
        · exact .numbers rfl hp

theorem perform_fill_of_error {error : Error} (engine : Engine) (list : EdgeList)
    (clear perRelation : Bool) (h : opened.2.store opened.1 = .error error) :
    (fill engine list clear perRelation).perform (Handle.ofDatabase opened) =
      (.error error, Handle.ofDatabase opened) := by
  obtain rfl := Workspace.eq_of_store_eq_error h
  have hclear : (Handle.clearWith engine).perform (Handle.ofDatabase opened) =
      (.error (.database .notDatabase), Handle.ofDatabase opened) := by
    rw [Handle.clearWith, Handle.perform_either_ofDatabase, engine.perform_clear_of_error h]
  have hload (strategy : Strategy) :
      (Handle.loadWith engine list.edges strategy).perform (Handle.ofDatabase opened) =
        (.error (.database .notDatabase), Handle.ofDatabase opened) := by
    rw [Handle.loadWith, Handle.perform_either_ofDatabase, engine.perform_load_of_error h]
  have henter : (enter engine list perRelation).perform (Handle.ofDatabase opened) =
      (.error (.database .notDatabase), Handle.ofDatabase opened) := by
    cases perRelation with
    | true => exact hload .perRelation
    | false =>
        rw [enter, if_neg Bool.false_ne_true, perform_loadWithFallback, hload]
  rw [fill]
  cases clear with
  | true => rw [if_pos rfl, Action.perform_bind, hclear]
  | false => rw [if_neg Bool.false_ne_true, enterAndTell, Action.perform_bind, henter]

end

/-! ## Loading -/

variable {opened : Workspace.Opened} {store : Store}

theorem perform_load_eq (hb : configuration.graph.backend = .sqlite) (setting : Setting)
    (edgesPath : String) (clear perRelation : Bool) (workspace : Workspace) :
    (load setting configuration edgesPath clear perRelation).perform workspace =
      match EdgeList.load workspace.files edgesPath with
      | .error error => (.error error, workspace)
      | .ok list =>
          match (Workspace.openDatabase configuration.graph.databasePath).perform workspace with
          | (.error error, after) => (.error error, after)
          | (.ok database, ready) =>
              let outcome := (fill setting.engine list clear perRelation).perform
                (.database database, ready)
              (outcome.1, outcome.2.2) := by
  have hopen := Navigator.perform_openGraph setting.dial hb workspace
  change (openWith configuration.graph setting.dial).perform workspace = _ at hopen
  have hinspect : (Action.inspect fun workspace : Workspace =>
      EdgeList.load workspace.files edgesPath).perform workspace =
        (EdgeList.load workspace.files edgesPath, workspace) := rfl
  rw [load_eq_fill, Action.perform_bind, hinspect]
  cases EdgeList.load workspace.files edgesPath with
  | error error => rfl
  | ok list =>
      dsimp only
      rw [Action.perform_bind, hopen]
      rcases (Workspace.openDatabase configuration.graph.databasePath).perform workspace with
        ⟨error | database, ready⟩ <;> rfl

/-- The list of a load has been read and its graph has been opened, and only the engine can still
refuse something. -/
structure Ready (configuration : Configuration) (edgesPath : String) (workspace : Workspace)
    (list : EdgeList) (opened : Workspace.Opened) (store : Store) : Prop where
  load : EdgeList.load workspace.files edgesPath = .ok list
  perform : (Workspace.openDatabase configuration.graph.databasePath).perform workspace =
    (.ok opened.1, opened.2)
  opening : Workspace.Opening configuration.graph.databasePath workspace opened
  hasStore : opened.2.store opened.1 = .ok store

theorem perform_load_cases (hb : configuration.graph.backend = .sqlite) (setting : Setting)
    (edgesPath : String) (clear perRelation : Bool) (workspace : Workspace) :
    (∃ error, (load setting configuration edgesPath clear perRelation).perform workspace =
      (.error error, workspace)) ∨
    ∃ list opened store, Ready configuration edgesPath workspace list opened store := by
  cases hlist : EdgeList.load workspace.files edgesPath with
  | error error =>
      refine .inl ⟨error, ?_⟩
      rw [perform_load_eq hb, hlist]
  | ok list =>
      obtain ⟨error, ho⟩ | ⟨opened, ho, hopening, hstore⟩ :=
        Workspace.opening_of_openDatabase configuration.graph.databasePath workspace
      · refine .inl ⟨error, ?_⟩
        rw [perform_load_eq hb, hlist, ho]
      · cases hs : opened.2.store opened.1 with
        | ok store => exact .inr ⟨list, opened, store, hlist, ho, hopening, hs⟩
        | error error =>
            obtain ⟨store, hstore⟩ | hsame := hstore
            · cases hs.symm.trans hstore
            have hfill := perform_fill_of_error setting.engine list clear perRelation hs
            refine .inl ⟨error, ?_⟩
            rw [perform_load_eq hb, hlist, ho]
            dsimp only
            rw [← Handle.ofDatabase, hfill]
            exact Prod.ext rfl hsame

theorem Ready.again (h : Ready configuration edgesPath workspace list opened store) (new : Store)
    (hn : configuration.graph.databasePath ∉ Workspace.transientPaths) :
    Ready configuration edgesPath (Workspace.holding new opened).2 list
      (Workspace.holding new opened) new where
  load := h.opening.load_holding new h.load
  perform := (h.opening.holding new hn).perform_openDatabase hn
  opening := h.opening.holding new hn
  hasStore := Workspace.store_holding h.hasStore new

theorem Ready.exists_again (h : Ready configuration edgesPath workspace list opened store)
    (clear perRelation : Bool) :
    let new := filled list clear perRelation store
    let after := (Workspace.holding new opened).2
    ∃ last present, Ready configuration edgesPath after list last present ∧
      filled list clear perRelation present = new ∧ (Workspace.holding new last).2 = after := by
  intro new after
  by_cases ht : configuration.graph.databasePath ∈ Workspace.transientPaths
  · -- Nobody finds a graph without a file again, so this is the same load.
    rcases h.opening.found with ⟨-, rfl⟩ | ⟨hn, -⟩
    · exact ⟨_, store, h, rfl, rfl⟩
    · exact absurd ht hn
  · exact ⟨_, new, h.again new ht, filled_filled store, by rw [Workspace.holding_holding]⟩

/-! ## Runs -/

/-- A graph that is opened in a workspace holds one store, and another when a load has ended. -/
structure Fills (setting : Setting) (configuration : Configuration) (list : EdgeList)
    (clear perRelation : Bool) (workspace after : Workspace) (before new : Store) : Prop where
  graph : ∃ opened last : Handle.Opened,
    (openWith configuration.graph setting.dial).perform workspace = (.ok opened.1, opened.2) ∧
    ((fill setting.engine list clear perRelation).perform opened).2 = last ∧ last.2 = after ∧
    Handle.HasStore opened before ∧ Handle.HasStore last new
  graphAt_before : workspace.graphAt configuration.graph.databasePath = .ok before
  /-- One finds the graph afterwards unless it has no file. -/
  graphAt_after : configuration.graph.databasePath ∉ Workspace.transientPaths →
    after.graphAt configuration.graph.databasePath = .ok new

theorem fills_of_ready (hb : configuration.graph.backend = .sqlite)
    (h : Ready configuration edgesPath workspace list opened store) {new : Store}
    (hfill : ((fill setting.engine list clear perRelation).perform (Handle.ofDatabase opened)).2 =
      Handle.ofDatabase (Workspace.holding new opened)) :
    Fills setting configuration list clear perRelation workspace
      (Workspace.holding new opened).2 store new := by
  have hopen := Navigator.perform_openGraph setting.dial hb workspace
  rw [h.perform] at hopen
  have hnew := Workspace.store_holding h.hasStore new
  refine ⟨⟨Handle.ofDatabase opened, Handle.ofDatabase (Workspace.holding new opened), hopen, hfill,
    rfl, Handle.hasStore_ofDatabase h.hasStore, Handle.hasStore_ofDatabase hnew⟩, ?_, fun hn => ?_⟩
  · rw [Workspace.graphAt, h.perform]
    exact h.hasStore
  · rw [Workspace.graphAt, (h.again new hn).perform]
    exact hnew

theorem configured_eq {after : Workspace} (h : ∀ path, Configuration.ofFile after.files path =
    Configuration.ofFile workspace.files path) (setting : Setting) (path : String) :
    configured setting path after = configured setting path workspace := by
  rw [configured, configured, Configuration.load, Configuration.load]
  simp only [h]

variable {arguments : List String} {path : String} {edges : Option String}

theorem run_load_of_ready (hb : configuration.graph.backend = .sqlite)
    (hparse : Invocation.parse arguments = .ok ⟨path, .load edges clear perRelation⟩)
    (hc : configured setting path workspace = .ok configuration)
    (h : Ready configuration (edges.getD configuration.edgesPath) workspace list opened store) :
    let new := filled list clear perRelation store
    run setting arguments workspace =
        ((told list new).output, (Workspace.holding new opened).2) ∧
      Fills setting configuration list clear perRelation workspace
        (Workspace.holding new opened).2 store new ∨
    ∃ cause left, BreaksOff setting.engine list clear perRelation store cause left ∧
      run setting arguments workspace =
        ({ code := 2, complaint := (Failure.operation (.database cause)).text ++ "\n" },
          (Workspace.holding left opened).2) ∧
      Fills setting configuration list clear perRelation workspace
        (Workspace.holding left opened).2 store left := by
  intro new
  have hrun := run_of_parse hparse hc
  rw [perform, operation, perform_load_eq hb, h.load, h.perform] at hrun
  dsimp only at hrun
  rw [← Handle.ofDatabase] at hrun
  obtain hdone | ⟨cause, left, hbreaks, hbroken⟩ :=
    perform_fill setting.engine list clear perRelation h.hasStore
  · rw [hdone] at hrun
    exact .inl ⟨hrun, fills_of_ready hb h (by rw [hdone])⟩
  · rw [hbroken] at hrun
    exact .inr ⟨cause, left, hbreaks, hrun, fills_of_ready hb h (by rw [hbroken])⟩

theorem run_load_cases
    (hparse : Invocation.parse arguments = .ok ⟨path, .load edges clear perRelation⟩)
    (hb : ∀ configuration, configured setting path workspace = .ok configuration →
      configuration.graph.backend = .sqlite) :
    (∃ complaint, run setting arguments workspace =
      ({ code := 2, complaint := complaint }, workspace)) ∨
    ∃ configuration list opened store, configured setting path workspace = .ok configuration ∧
      Ready configuration (edges.getD configuration.edgesPath) workspace list opened store := by
  cases hc : configured setting path workspace with
  | error failure =>
      refine .inl ⟨failure.text ++ "\n", ?_⟩
      rw [run, hparse]
      simp only [invoke, hc]
  | ok configuration =>
      have hrun := run_of_parse hparse hc
      rw [perform, operation] at hrun
      obtain ⟨error, hperform⟩ | ⟨list, opened, store, hready⟩ :=
        perform_load_cases (hb configuration hc) setting (edges.getD configuration.edgesPath) clear
          perRelation workspace
      · rw [hperform] at hrun
        exact .inl ⟨_, hrun⟩
      · exact .inr ⟨configuration, list, opened, store, rfl, hready⟩

/-- A run of a load that has filled a graph, with whatever engine it is run again, changes nothing
unless it breaks off. -/
theorem run_load_again (hb : configuration.graph.backend = .sqlite)
    (hparse : Invocation.parse arguments = .ok ⟨path, .load edges clear perRelation⟩)
    (hc : configured setting path workspace = .ok configuration)
    (h : Ready configuration (edges.getD configuration.edgesPath) workspace list opened store)
    (engine : Engine) :
    let new := filled list clear perRelation store
    let after := (Workspace.holding new opened).2
    let again := run { setting with engine } arguments after
    again = ((told list new).output, after) ∨ again.1.code = 2 ∧ ¬engine.IsReliable := by
  intro new after again
  obtain ⟨last, present, hready, hfilled, hlast⟩ := h.exists_again clear perRelation
  have hconfigured : configured { setting with engine } path after = .ok configuration :=
    (configured_eq (h.opening.ofFile_holding new) setting path).trans hc
  obtain ⟨hrun, -⟩ | ⟨cause, left, hbreaks, hrun, -⟩ :=
    run_load_of_ready hb hparse hconfigured hready
  · rw [hfilled, hlast] at hrun
    exact .inl hrun
  · exact .inr ⟨congrArg (fun outcome => outcome.1.code) hrun, hbreaks.not_isReliable⟩

/-- A workspace with a graph of one edge, with a list of one other edge and with a broken list. -/
def listedWorkspace : Workspace where
  files := ⟨[([".codecompass"], .directory), ([".codecompass", "graph.db"], .file (.graph 0)),
    (["edges.json"], .file (.text ("[\x7b\"source\":\"a.py\",\"target\":\"c.py\"," ++
      "\"relation\":\"IMPORTS\"\x7d]"))),
    (["broken.json"], .file (.text "[1"))]⟩
  databases := [some (Store.empty.load .generic [⟨"a.py", "b.py", .imports, some "import b"⟩])]

/-- An engine that has no room for edges. -/
def fullDisk : Engine where
  refusal?
    | .insert _ _, _ => some (.refused "database or disk is full" "Error code 13: Insertion failed")
    | _, _ => none

end CommandLine.Program

end CodeAtlas
