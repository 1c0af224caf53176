import CodeAtlas.Proofs.CommandLine.Program
import CodeAtlas.Proofs.CommandLine.Question
import CodeAtlas.Proofs.Session

/-!
# Agreement of the surfaces

A question that is put on the command line, with or without the wish for JSON, or by an assistant,
gets the same rows each time, as long as the graph and the index stay as they are. The surfaces
agree in what is an error, in the rows and their order, and in what they say where there are none.
-/

namespace CodeAtlas.CommandLine

open Assistant (Reply Request Tells)
open Navigator (Faithful fresh)

variable {configuration : Configuration} {question : Question} {workspace : Workspace}

namespace Question

/-! ## Rows -/

abbrev Row : Question → Type
  | neighbors .. => Graph.Neighbor
  | search .. => Search.Scored Float

def text : (question : Question) → List question.Row → String
  | neighbors file _ => Report.neighbors file
  | search query _ => Report.search query

def rowJson : (question : Question) → question.Row → Json.Value
  | neighbors .. => Graph.Neighbor.toJson
  | search .. => Program.hitJson

/-- What is said where there are no rows. -/
def nothing : Question → String
  | neighbors file _ => Report.noNeighbors file
  | search query _ => Report.noResults query

/-- The rows that the graph or the index of a workspace gives, if it gives an answer. -/
def rows? (configuration : Configuration) (workspace : Workspace) :
    (question : Question) → Option (List question.Row)
  | neighbors file direction =>
      Navigator.neighborsIn configuration workspace file (directionOf direction)
  | search query count =>
      Navigator.hitsIn configuration workspace query (count.getD configuration.searchLimit)

theorem rows?_eq {other : Workspace} (h : SameSources configuration workspace other)
    (question : Question) :
    question.rows? configuration other = question.rows? configuration workspace := by
  cases question with
  | neighbors file direction =>
      rw [rows?, rows?, Navigator.neighborsIn, Navigator.neighborsIn, h.graph]
  | search query count => rw [rows?, rows?, Navigator.hitsIn, Navigator.hitsIn, h.index]

/-- What the two commands show agrees with what an assistant is told: all of them fail, or show the
same rows, or say that there are none. -/
inductive Agrees (question : Question) : Output → Output → Reply → Prop
  | failed {text json : Output} {reply : Reply} (ht : text.code = 2) (hj : json.code = 2)
      (hr : reply.isError = true) : Agrees question text json reply
  | found {rows : List question.Row} (hrows : rows ≠ []) : Agrees question
      { code := 0, printed := question.text rows ++ "\n" }
      { code := 0, printed := (Json.Value.array (rows.map question.rowJson)).pretty ++ "\n" }
      { text := question.text rows }
  | empty : Agrees question { code := 1, complaint := question.nothing ++ "\n" }
      { code := 1, printed := "[]\n", complaint := question.nothing ++ "\n" }
      { text := question.nothing }

end Question

/-! ## Commands -/

namespace Program

theorem perform_withNavigator {setting : Setting} {α : Type}
    (action : Surroundings Workspace Graph.Handle →
      Action (Navigator.Situated Workspace Graph.Handle) α) :
    (withNavigator setting configuration action).perform workspace =
      let outcome := (action (.ofSettings configuration.graph setting.dial)).perform
        (fresh configuration.index.path workspace)
      (outcome.1, outcome.2.2) := rfl

theorem perform_neighbors (hb : configuration.graph.backend = .sqlite) (setting : Setting)
    (file : String) (direction : Graph.Direction) (json : Bool) (workspace : Workspace) :
    ∃ (result : Result (List Graph.Neighbor)) (after : Workspace),
      SameSources configuration workspace after ∧
      result.toOption = Navigator.neighborsIn configuration workspace file direction ∧
      (neighbors setting configuration file direction json).perform workspace =
        (result.map fun rows => rowsAnswer json rows Graph.Neighbor.toJson
          (Report.neighbors file rows) (Report.noNeighbors file), after) := by
  obtain ⟨result, asked, hasked, hperform, hrows⟩ := Navigator.perform_neighbors
    setting.dial hb
    (Navigator.faithful_fresh (SameSources.refl configuration workspace)) file direction
  obtain ⟨closed, hclosed, hclose⟩ := Navigator.perform_close_of_faithful
    setting.dial hasked
  rw [neighbors, Action.perform_bind, perform_withNavigator, Action.perform_bind, hperform]
  cases result with
  | error error => exact ⟨.error error, asked.2, hasked.sources, hrows, rfl⟩
  | ok rows =>
      dsimp only
      rw [Action.perform_bind, hclose]
      exact ⟨.ok rows, closed.2, hclosed.sources, hrows, rfl⟩

theorem perform_search (configuration : Configuration) (setting : Setting) (query : String)
    (count : Option Nat) (json : Bool) (workspace : Workspace) :
    ∃ (result : Result (List (Search.Scored Float))) (after : Workspace),
      SameSources configuration workspace after ∧
      result.toOption = Navigator.hitsIn configuration workspace query
        (count.getD configuration.searchLimit) ∧
      (search setting configuration query count json).perform workspace =
        (result.map fun hits => rowsAnswer json hits hitJson (Report.search query hits)
          (Report.noResults query), after) := by
  obtain ⟨result, asked, hasked, hperform, hrows⟩ := Navigator.perform_search_of_faithful
    setting.dial
    (Navigator.faithful_fresh (SameSources.refl configuration workspace)) query
    (count.getD configuration.searchLimit)
  rw [search, Action.perform_bind, perform_withNavigator, hperform]
  cases result <;> exact ⟨_, asked.2, hasked.sources, hrows, rfl⟩

/-- What a command shows of an answer that may be missing. -/
inductive Shows (question : Question) (json : Bool) : Option (List question.Row) → Output → Prop
  | failure {output : Output} (h : output.code = 2) : Shows question json none output
  | rows (rows : List question.Row) : Shows question json (some rows)
      (rowsAnswer json rows question.rowJson (question.text rows) question.nothing).output

theorem shows_shown (question : Question) {json : Bool} (result : Result (List question.Row))
    (after : Workspace) :
    Shows question json result.toOption (shown ((result.map fun rows =>
      rowsAnswer json rows question.rowJson (question.text rows) question.nothing).mapError
        .operation, after)).1 := by
  rcases result with error | rows
  · exact .failure rfl
  · exact .rows rows

/-- A command shows the rows that the graph or the index gives, and leaves both as they are. -/
theorem shows_shown_perform (hb : configuration.graph.backend = .sqlite) (setting : Setting)
    (path : String) (json : Bool) (question : Question) (workspace : Workspace) :
    Shows question json (question.rows? configuration workspace)
        (shown (perform setting configuration path (question.command json) workspace)).1 ∧
      SameSources configuration workspace
        (shown (perform setting configuration path (question.command json) workspace)).2 := by
  cases question with
  | neighbors file direction =>
      obtain ⟨result, after, hafter, hrows, hperform⟩ :=
        perform_neighbors hb setting file (Question.directionOf direction) json workspace
      rw [Question.command, perform, operation, hperform, Question.rows?, ← hrows]
      exact ⟨shows_shown (.neighbors file direction) result after, by cases result <;> exact hafter⟩
  | search query count =>
      obtain ⟨result, after, hafter, hrows, hperform⟩ :=
        perform_search configuration setting query count json workspace
      rw [Question.command, perform, operation, hperform, Question.rows?, ← hrows]
      exact ⟨shows_shown (.search query count) result after, by cases result <;> exact hafter⟩

theorem shows_run (hb : configuration.graph.backend = .sqlite) {setting : Setting}
    {arguments : List String} {path : String} {json : Bool}
    (hparse : Invocation.parse arguments = .ok ⟨path, question.command json⟩)
    (hc : configured setting path workspace = .ok configuration) :
    Shows question json (question.rows? configuration workspace)
        (run setting arguments workspace).1 ∧
      SameSources configuration workspace (run setting arguments workspace).2 := by
  rw [run_of_parse hparse hc]
  exact shows_shown_perform hb setting path json question workspace

end Program

/-! ## Replies -/

namespace Question

theorem ofName_directionOf {file : String} {direction : Option String}
    (h : (neighbors file direction).IsAccepted) :
    Graph.Direction.ofName (direction.getD "both") = .ok (directionOf direction) := by
  cases direction with
  | none => rfl
  | some word =>
      obtain ⟨meant, hm⟩ := h.2 word rfl
      simp [directionOf, hm, Except.toOption]

theorem tells_respond (hb : configuration.graph.backend = .sqlite) (dial : Remote.Client.Dialer)
    (hq : question.IsAccepted) {start : Workspace}
    {before : Navigator.Situated Workspace Graph.Handle} (h : Faithful configuration start before)
    {request : Request} (hr : Assistant.Call.ofRequest request = .ok question.call) :
    ∃ reply, ((Assistant.respond (Surroundings.ofSettings configuration.graph dial)
        configuration.searchLimit request).run before).1 = .ok reply ∧
      Tells question.text question.nothing (question.rows? configuration start) reply := by
  rw [Assistant.respond, hr]
  cases question with
  | neighbors file direction =>
      obtain ⟨reply, after, -, hrun, htells⟩ :=
        Assistant.run_context dial hb h file direction
      refine ⟨reply, ?_, htells _ (ofName_directionOf hq)⟩
      simp only [call, Assistant.answer, StateT.run_bind, hrun]
      rfl
  | search query count =>
      obtain ⟨reply, after, -, hrun, htells⟩ :=
        Assistant.run_search dial h configuration.searchLimit query count
      refine ⟨reply, ?_, htells⟩
      simp only [call, Assistant.answer, StateT.run_bind, hrun]
      rfl

theorem agrees_of_shows {answer : Option (List question.Row)} {text json : Output} {reply : Reply}
    (ht : Program.Shows question false answer text) (hj : Program.Shows question true answer json)
    (hr : Tells question.text question.nothing answer reply) :
    question.Agrees text json reply := by
  cases ht with
  | failure ht =>
      cases hj with
      | failure hj =>
          cases hr with
          | failure hr => exact .failed ht hj hr
  | rows rows =>
      cases hj
      cases hr
      cases rows with
      | nil => exact .empty
      | cons row rest => exact .found (List.cons_ne_nil row rest)

end Question

namespace Program

theorem serve_of_configured {setting : Setting} {path : String}
    (hc : configured setting path workspace = .ok configuration) (requests : List Request) :
    serve setting path requests workspace =
      let around := Surroundings.ofSettings configuration.graph setting.dial
      let asked := (requests.mapM (Assistant.respond around configuration.searchLimit)).run
        (fresh configuration.index.path workspace)
      (.ok asked.1, ((Navigator.close around).perform asked.2).2.2) := by
  rw [serve, hc]
  rfl

theorem tells_serve (hb : configuration.graph.backend = .sqlite) (hq : question.IsAccepted)
    {setting : Setting} {path : String} (hc : configured setting path workspace = .ok configuration)
    {request : Request} (hr : Assistant.Call.ofRequest request = .ok question.call)
    (past later : List Request) :
    (∃ replies reply, (serve setting path (past ++ request :: later) workspace).1 = .ok replies ∧
      replies[past.length]? = some (.ok reply) ∧
      Tells question.text question.nothing (question.rows? configuration workspace) reply) ∧
    SameSources configuration workspace
      (serve setting path (past ++ request :: later) workspace).2 := by
  have hfresh := Navigator.faithful_fresh (SameSources.refl configuration workspace)
  obtain ⟨before, hbefore, hresponse⟩ := Assistant.exists_response setting.dial hb hfresh
    configuration.searchLimit past request later
  obtain ⟨reply, hreply, htells⟩ := Question.tells_respond hb setting.dial hq hbefore hr
  have hasked := Assistant.faithful_requests setting.dial hb hfresh configuration.searchLimit
    (past ++ request :: later)
  obtain ⟨closed, hclosed, hclose⟩ := Navigator.perform_close_of_faithful setting.dial hasked
  rw [hreply] at hresponse
  rw [serve_of_configured hc]
  dsimp only
  rw [hclose]
  exact ⟨⟨_, reply, rfl, hresponse, htells⟩, hclosed.sources⟩

/-- A workspace with a graph of one edge and without an index. -/
def sampleWorkspace : Workspace where
  files := ⟨[([".codecompass"], .directory), ([".codecompass", "graph.db"], .file (.graph 0))]⟩
  databases := [some (Graph.Store.empty.load .generic [⟨"a.py", "b.py", .imports, none⟩])]

end Program

end CodeAtlas.CommandLine
