import CodeAtlas.Assistant
import CodeAtlas.Proofs.Navigator
import CodeAtlas.Proofs.Sources

/-!
# Sessions with a local database

A navigator that keeps its graph in a local database and its index in a file answers every question
from the two as they were when it started, whether it opens them for the question or holds on to
them. This stays so through everything that an assistant asks.
-/

namespace CodeAtlas

namespace Navigator

theorem normalize_of_isBlankText {path : String} (h : Text.isBlankText path = true) :
    normalize path = "" := by
  have hdrop : path.toList.dropWhile Text.isBlank = [] :=
    List.dropWhile_eq_nil_iff.2 (List.all_eq_true.1 h)
  rw [normalize, Text.trimChars, hdrop]
  rfl

/-- The neighbours of a file in the graph of a workspace, if it gives an answer. -/
def neighborsIn (configuration : Configuration) (workspace : Workspace) (file : String)
    (direction : Graph.Direction) : Option (List Graph.Neighbor) :=
  if normalize file = "" then none
  else (workspace.graphAt configuration.graph.databasePath >>= fun store =>
    store.neighbors (normalize file) direction).toOption

/-- The files for a query by the index of a workspace, if it gives an answer. -/
def hitsIn (configuration : Configuration) (workspace : Workspace) (query : String)
    (limit : Nat) : Option (List (Search.Scored Float)) :=
  if IsSearch query limit then
    (Search.Index.load workspace.files configuration.index.path).toOption.map fun index =>
      index.search .float query limit
  else none

/-- What a navigator holds on to and finds around it agrees with the sources at the start. -/
structure Faithful (configuration : Configuration) (start : Workspace)
    (situated : Situated Workspace Graph.Handle) : Prop where
  indexPath : situated.1.indexPath = configuration.index.path
  sources : SameSources configuration start situated.2
  graph : ∀ handle ∈ situated.1.graph, ∃ database, handle = .database database ∧
    situated.2.store database = start.graphAt configuration.graph.databasePath
  index : ∀ index ∈ situated.1.index,
    (Search.Index.load start.files configuration.index.path).toOption = some index

variable {configuration : Configuration} {start : Workspace}
  {situated : Situated Workspace Graph.Handle} (dial : Remote.Client.Dialer)

theorem faithful_fresh {workspace : Workspace} (h : SameSources configuration start workspace) :
    Faithful configuration start (fresh configuration.index.path workspace) :=
  ⟨rfl, h, (fun _ hm => by cases hm), (fun _ hm => by cases hm)⟩

section

variable (hb : configuration.graph.backend = .sqlite)

include hb

theorem perform_openGraph (workspace : Workspace) :
    (Surroundings.ofSettings configuration.graph dial).openGraph.perform workspace =
      (((Workspace.openDatabase configuration.graph.databasePath).perform workspace).1.map
          Graph.Handle.database,
        ((Workspace.openDatabase configuration.graph.databasePath).perform workspace).2) := by
  simp only [Surroundings.ofSettings, Graph.openWith, hb]
  refine (Action.perform_bind _ _ workspace).trans ?_
  rcases (Workspace.openDatabase configuration.graph.databasePath).perform workspace with
    ⟨error | database, after⟩ <;> rfl

theorem obtained_of_faithful (h : Faithful configuration start situated) :
    ∃ after, SameSources configuration start after ∧
      ((∃ error, obtained (Surroundings.ofSettings configuration.graph dial) situated =
          (.error error, after) ∧ start.graphAt configuration.graph.databasePath = .error error) ∨
        ∃ database, obtained (Surroundings.ofSettings configuration.graph dial) situated =
          (.ok (.database database), after) ∧
          after.store database = start.graphAt configuration.graph.databasePath) := by
  rw [obtained]
  cases hg : situated.1.graph with
  | some handle =>
      obtain ⟨database, rfl, hstore⟩ := h.graph handle hg
      exact ⟨situated.2, h.sources, .inr ⟨database, rfl, hstore⟩⟩
  | none =>
      have hgraph := h.sources.graph
      have hafter := h.sources.trans
        (Workspace.sameSources_openDatabase configuration situated.2)
      dsimp only
      rw [perform_openGraph dial hb]
      refine ⟨_, hafter, ?_⟩
      rw [Workspace.graphAt] at hgraph
      generalize (Workspace.openDatabase configuration.graph.databasePath).perform situated.2 =
        opened at hgraph
      rcases opened with ⟨error | database, after⟩
      · exact .inl ⟨error, rfl, hgraph.symm⟩
      · exact .inr ⟨database, rfl, hgraph⟩

theorem perform_neighbors (h : Faithful configuration start situated) (file : String)
    (direction : Graph.Direction) :
    ∃ result after, Faithful configuration start after ∧
      (neighbors (Surroundings.ofSettings configuration.graph dial) file direction).perform
          situated = (result, after) ∧
      result.toOption = neighborsIn configuration start file direction := by
  rw [neighbors, neighborsIn]
  by_cases hfile : normalize file = ""
  · rw [if_pos hfile, if_pos hfile]
    exact ⟨_, _, h, rfl, rfl⟩
  rw [if_neg hfile, if_neg hfile, perform_withGraph]
  obtain ⟨after, hsources, ⟨error, ho, hgraph⟩ | ⟨database, ho, hstore⟩⟩ :=
    obtained_of_faithful dial hb h
  · rw [ho, hgraph]
    refine ⟨_, _, ?_, rfl, rfl⟩
    exact ⟨h.indexPath, hsources, (fun _ hm => by cases hm), h.index⟩
  · have hask : ((Surroundings.ofSettings configuration.graph dial).neighbors
          (normalize file) direction).perform (.database database, after) =
        (start.graphAt configuration.graph.databasePath >>= fun store =>
          store.neighbors (normalize file) direction, .database database, after) := by
      rw [← hstore]
      rfl
    rw [ho]
    dsimp only
    rw [hask]
    refine ⟨_, _, ?_, rfl, rfl⟩
    refine ⟨h.indexPath, hsources, ?_, h.index⟩
    intro handle hm
    dsimp only at hm
    split at hm
    · cases hm
    · obtain rfl := Option.some.inj hm
      exact ⟨database, rfl, hstore⟩

omit hb in
theorem perform_search_of_faithful (h : Faithful configuration start situated) (query : String)
    (limit : Nat) :
    ∃ result after, Faithful configuration start after ∧
      (search (Surroundings.ofSettings configuration.graph dial) query limit).perform situated =
        (result, after) ∧
      result.toOption = hitsIn configuration start query limit := by
  rw [hitsIn]
  by_cases hs : IsSearch query limit
  · rw [perform_search hs, perform_loadedIndex, if_pos hs]
    cases hi : situated.1.index with
    | some index =>
        rw [h.index index hi]
        exact ⟨_, _, h, rfl, rfl⟩
    | none =>
        have hload := h.sources.index
        dsimp only
        rw [h.indexPath]
        change (Search.Index.load
          ((Surroundings.ofSettings configuration.graph dial).files situated.2) _).toOption = _
          at hload
        cases hl : Search.Index.load
            ((Surroundings.ofSettings configuration.graph dial).files situated.2)
            configuration.index.path with
        | error error =>
            rw [hl] at hload
            rw [← hload]
            refine ⟨_, _, ?_, rfl, rfl⟩
            exact ⟨rfl, h.sources, h.graph, (fun _ hm => by cases hm)⟩
        | ok index =>
            rw [hl] at hload
            rw [← hload]
            refine ⟨_, _, ?_, rfl, rfl⟩
            refine ⟨rfl, h.sources, h.graph, ?_⟩
            intro other hm
            obtain rfl := Option.some.inj hm
            exact hload.symm
  · rw [perform_search_of_not hs, if_neg hs]
    exact ⟨_, _, h, rfl, rfl⟩

omit hb in
theorem perform_close_of_faithful (h : Faithful configuration start situated) :
    ∃ after, Faithful configuration start after ∧
      (close (Surroundings.ofSettings configuration.graph dial)).perform situated =
        (.ok (), after) := by
  rw [close, perform_reload, h.indexPath]
  cases hg : situated.1.graph with
  | none => exact ⟨_, faithful_fresh h.sources, rfl⟩
  | some handle =>
      obtain ⟨database, rfl, -⟩ := h.graph handle hg
      exact ⟨_, faithful_fresh h.sources, rfl⟩

end

end Navigator

/-! ## What an assistant is told -/

namespace Assistant

open Navigator (Faithful Situated)

/-- A reply tells the rows of an answer, or that something went wrong where there is no answer. -/
inductive Tells {α : Type} (text : List α → String) (nothing : String) :
    Option (List α) → Reply → Prop
  | failure {reply : Reply} (h : reply.isError = true) : Tells text nothing none reply
  | rows (rows : List α) : Tells text nothing (some rows) (replyWith text nothing (.ok rows))

theorem tells_replyWith {α : Type} (text : List α → String) (nothing : String)
    (result : Result (List α)) :
    Tells text nothing result.toOption (replyWith text nothing result) := by
  rcases result with error | rows
  · exact .failure rfl
  · exact .rows rows

variable {configuration : Configuration} {start : Workspace}
  {situated : Situated Workspace Graph.Handle} (dial : Remote.Client.Dialer)

section

variable (hb : configuration.graph.backend = .sqlite)

include hb

theorem run_context (h : Faithful configuration start situated) (file : String)
    (direction : Option String) :
    ∃ reply after, Faithful configuration start after ∧
      (context (Surroundings.ofSettings configuration.graph dial) file direction).run situated =
        (reply, after) ∧
      ∀ meant, Graph.Direction.ofName (direction.getD "both") = .ok meant →
        Tells (Report.neighbors file) (Report.noNeighbors file)
          (Navigator.neighborsIn configuration start file meant) reply := by
  rw [context]
  by_cases hfile : Text.isBlankText file = true
  · rw [if_pos hfile]
    refine ⟨_, _, h, rfl, fun meant _ => ?_⟩
    rw [Navigator.neighborsIn, if_pos (Navigator.normalize_of_isBlankText hfile)]
    exact .failure rfl
  rw [if_neg hfile]
  cases hd : Graph.Direction.ofName (direction.getD "both") with
  | error error => exact ⟨_, _, h, rfl, fun meant hm => by cases hm⟩
  | ok meant =>
      obtain ⟨result, after, hafter, hperform, hrows⟩ :=
        Navigator.perform_neighbors dial hb h file meant
      have hrun : (Navigator.neighbors (Surroundings.ofSettings configuration.graph dial) file
          meant).run.run situated = (result, after) := hperform
      refine ⟨replyWith (Report.neighbors file) (Report.noNeighbors file) result, after, hafter,
        ?_, ?_⟩
      · simp only [StateT.run_bind, hrun]
        rfl
      · intro other hm
        obtain rfl := Except.ok.inj hm
        rw [← hrows]
        exact tells_replyWith _ _ result

omit hb in
theorem run_search (h : Faithful configuration start situated) (limit : Nat) (query : String)
    (count : Option Nat) :
    ∃ reply after, Faithful configuration start after ∧
      (search (Surroundings.ofSettings configuration.graph dial) limit query count).run situated =
        (reply, after) ∧
      Tells (Report.search query) (Report.noResults query)
        (Navigator.hitsIn configuration start query (count.getD limit)) reply := by
  rw [search]
  by_cases hquery : Text.isBlankText query = true
  · rw [if_pos hquery]
    refine ⟨_, _, h, rfl, ?_⟩
    rw [Navigator.hitsIn, if_neg fun hs => by simp [hs.1] at hquery]
    exact .failure rfl
  rw [if_neg hquery]
  obtain ⟨result, after, hafter, hperform, hrows⟩ :=
    Navigator.perform_search_of_faithful dial h query (count.getD limit)
  have hrun : (Navigator.search (Surroundings.ofSettings configuration.graph dial) query
      (count.getD limit)).run.run situated = (result, after) := hperform
  refine ⟨replyWith (Report.search query) (Report.noResults query) result, after, hafter, ?_, ?_⟩
  · simp only [StateT.run_bind, hrun]
    rfl
  · rw [← hrows]
    exact tells_replyWith _ _ result

theorem faithful_respond (h : Faithful configuration start situated) (limit : Nat)
    (request : Request) : Faithful configuration start
      ((respond (Surroundings.ofSettings configuration.graph dial) limit request).run
        situated).2 := by
  rw [respond]
  cases Call.ofRequest request with
  | error refusal => exact h
  | ok call =>
      cases call with
      | context file direction =>
          obtain ⟨reply, after, hafter, hrun, -⟩ := run_context dial hb h file direction
          simp only [answer, StateT.run_bind, hrun]
          exact hafter
      | search query count =>
          obtain ⟨reply, after, hafter, hrun, -⟩ :=
            run_search dial h limit query count
          simp only [answer, StateT.run_bind, hrun]
          exact hafter

theorem faithful_requests (h : Faithful configuration start situated) (limit : Nat)
    (requests : List Request) : Faithful configuration start
      ((requests.mapM (respond (Surroundings.ofSettings configuration.graph dial) limit)).run
        situated).2 := by
  induction requests generalizing situated with
  | nil => exact h
  | cons request rest ih =>
      rw [List.mapM_cons]
      exact ih (faithful_respond dial hb h limit request)

/-- Whatever was asked before, a request is responded to in agreement with the start, and its
response stands at its place among all of them. -/
theorem exists_response (h : Faithful configuration start situated) (limit : Nat)
    (past : List Request) (request : Request) (later : List Request) :
    ∃ before, Faithful configuration start before ∧
      (((past ++ request :: later).mapM
        (respond (Surroundings.ofSettings configuration.graph dial) limit)).run
          situated).1[past.length]? =
        some ((respond (Surroundings.ofSettings configuration.graph dial) limit request).run
          before).1 := by
  induction past generalizing situated with
  | nil =>
      refine ⟨situated, h, ?_⟩
      rw [List.nil_append, List.mapM_cons]
      rfl
  | cons first rest ih =>
      obtain ⟨before, hbefore, hresponse⟩ := ih (faithful_respond dial hb h limit first)
      refine ⟨before, hbefore, ?_⟩
      rw [List.cons_append, List.mapM_cons]
      exact hresponse

end

end Assistant

end CodeAtlas
