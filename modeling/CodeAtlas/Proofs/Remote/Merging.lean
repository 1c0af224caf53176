import CodeAtlas.Proofs.Graph.Loads
import CodeAtlas.Proofs.Remote.Literal
import Mathlib.Data.Finset.Lattice.Lemmas

/-!
# Statements that merge

A load is sent as statements that merge edges into the graph of a server, of all relations or of one.
What such a statement does there can be told from its text. As merging puts in only what is missing,
the graph depends on which edges have been merged, and not on how they were divided among statements
or how often they came.
-/

namespace CodeAtlas.Remote

open CodeAtlas.Graph

/-! ## Texts of statements -/

namespace Cypher

theorem shows_mergeFiles : Shows mergeFiles (List.map Edge.key) := by
  intro edges others behind rest h
  simp only [mergeFiles, String.toList_append, List.append_assoc] at h
  obtain ⟨hkeys, hrest⟩ := shows_edgesLiteral (List.append_cancel_left h)
  exact ⟨hkeys, List.append_cancel_left (List.append_cancel_left hrest)⟩

theorem exists_mergeAll : ∃ text : String,
    (∃ rest, text.toList = ' ' :: 'F' :: rest) ∧ ∀ edges, mergeAll edges = mergeFiles edges ++ text := by
  refine ⟨_, ?_, fun edges => rfl⟩
  have hstart : " FOREACH (_ IN CASE WHEN edge.relation = '".toList =
      ' ' :: 'F' :: "OREACH (_ IN CASE WHEN edge.relation = '".toList := by decide
  have hshown (text : String) : toString text = text := rfl
  simp only [Relation.all, List.map_cons, List.map_nil, String.intercalate_cons_cons,
    String.intercalate_singleton, String.toList_append, List.append_assoc, hshown, hstart]
  exact ⟨_, rfl⟩

theorem toList_mergeOne (relation : Relation) (edges : List Edge) :
    (mergeOne relation edges).toList = (mergeFiles edges).toList ++
      ' ' :: 'M' :: ("ERGE (a)-[:".toList ++ (relation.name.toList ++ "]->(b)".toList)) := by
  have hname : toString relation.name = relation.name := rfl
  delta mergeOne mergeEdge
  simp only [String.toList_append, List.append_assoc, hname]
  rfl

end Cypher

/-! ## The graph of a server -/

/-- Files, and links from one to another by a relation, each of which is there once. -/
@[ext]
structure LinkGraph where
  files : Finset String
  links : Finset Edge.Key

namespace LinkGraph

def mergeFile (path : String) (graph : LinkGraph) : LinkGraph :=
  { graph with files := insert path graph.files }

def mergeLink (key : Edge.Key) (graph : LinkGraph) : LinkGraph :=
  { graph with links := insert key graph.links }

/-- The graph with further links and the files at their ends. -/
def add (graph : LinkGraph) (keys : List Edge.Key) : LinkGraph where
  files := graph.files ∪ (keys.flatMap fun key => [key.1, key.2.1]).toFinset
  links := graph.links ∪ keys.toFinset

variable {graph : LinkGraph} {first second : List Edge.Key}

theorem add_nil (graph : LinkGraph) : graph.add [] = graph := by
  ext <;> simp [add]

theorem add_add (graph : LinkGraph) (first second : List Edge.Key) :
    (graph.add first).add second = graph.add (first ++ second) := by
  simp only [add, List.flatMap_append, List.toFinset_append, Finset.union_assoc]

theorem add_congr (graph : LinkGraph) (h : ∀ key, key ∈ first ↔ key ∈ second) :
    graph.add first = graph.add second := by
  have hlinks : first.toFinset = second.toFinset := by
    ext key
    simpa using h key
  have hfiles : (first.flatMap fun key => [key.1, key.2.1]).toFinset =
      (second.flatMap fun key => [key.1, key.2.1]).toFinset := by
    ext path
    simp only [List.mem_toFinset, List.mem_flatMap, h]
  rw [add, add, hlinks, hfiles]

end LinkGraph

/-! ## Statements -/

/-- A statement that merges edges, of all relations or of one. -/
inductive Merge where
  | all (edges : List Edge)
  | one (relation : Relation) (edges : List Edge)
deriving DecidableEq

namespace Merge

def edges : Merge → List Edge
  | all edges => edges
  | one _ edges => edges

def statement : Merge → String
  | all edges => Cypher.mergeAll edges
  | one relation edges => Cypher.mergeOne relation edges

/-- What a statement merges for one of its edges: the files at both ends, and a link. Where it is for
all relations, each of them is compared with that of the edge. -/
def mergeEdge (merge : Merge) (graph : LinkGraph) (edge : Edge) : LinkGraph :=
  let graph := (graph.mergeFile edge.source).mergeFile edge.target
  match merge with
  | all _ => Relation.all.foldl (fun graph relation =>
      if edge.relation.name = relation.name then
        graph.mergeLink (edge.source, edge.target, relation)
      else graph) graph
  | one relation _ => graph.mergeLink (edge.source, edge.target, relation)

/-- The graph when a statement has been carried out. -/
def run (merge : Merge) (graph : LinkGraph) : LinkGraph := merge.edges.foldl merge.mergeEdge graph

def keys : Merge → List Edge.Key
  | all edges => edges.map Edge.key
  | one relation edges => edges.map fun edge => (edge.source, edge.target, relation)

theorem mergeEdge_all (edges : List Edge) (graph : LinkGraph) (edge : Edge) :
    (all edges).mergeEdge graph edge = graph.add [edge.key] := by
  obtain ⟨source, target, relation, note⟩ := edge
  ext x <;> cases relation <;>
    simp [mergeEdge, Relation.all, Relation.name, LinkGraph.add, LinkGraph.mergeFile,
      LinkGraph.mergeLink, Edge.key, or_comm, or_left_comm]

theorem mergeEdge_one (relation : Relation) (edges : List Edge) (graph : LinkGraph) (edge : Edge) :
    (one relation edges).mergeEdge graph edge =
      graph.add [(edge.source, edge.target, relation)] := by
  ext x <;>
    simp [mergeEdge, LinkGraph.add, LinkGraph.mergeFile, LinkGraph.mergeLink, or_comm, or_left_comm]

theorem run_eq_add (merge : Merge) (graph : LinkGraph) : merge.run graph = graph.add merge.keys := by
  have hfold (key : Edge → Edge.Key) (h : ∀ graph edge, merge.mergeEdge graph edge =
      graph.add [key edge]) (edges : List Edge) (graph : LinkGraph) :
      edges.foldl merge.mergeEdge graph = graph.add (edges.map key) := by
    induction edges generalizing graph with
    | nil => exact (graph.add_nil).symm
    | cons edge rest ih =>
        rw [List.foldl_cons, ih, h, LinkGraph.add_add]
        rfl
  cases merge with
  | all edges => exact hfold _ (mergeEdge_all edges) edges graph
  | one relation edges => exact hfold _ (mergeEdge_one relation edges) edges graph

/-! ## Statements told from their texts -/

theorem statement_all_ne_one (edges : List Edge) (relation : Relation) (others : List Edge) :
    (all edges).statement ≠ (one relation others).statement := by
  intro h
  obtain ⟨text, ⟨rest, hrest⟩, hall⟩ := Cypher.exists_mergeAll
  have htext := congrArg String.toList h
  simp only [statement, hall, Cypher.toList_mergeOne, String.toList_append, hrest] at htext
  exact absurd (Cypher.shows_mergeFiles htext).2 (by simp)

theorem keys_eq_of_statement_eq {left right : Merge} (h : left.statement = right.statement) :
    left.keys = right.keys := by
  cases left with
  | all edges =>
      cases right with
      | all others =>
          obtain ⟨text, -, hall⟩ := Cypher.exists_mergeAll
          have htext := congrArg String.toList h
          simp only [statement, hall, String.toList_append] at htext
          exact (Cypher.shows_mergeFiles htext).1
      | one relation others => exact absurd h (statement_all_ne_one edges relation others)
  | one relation edges =>
      cases right with
      | all others => exact absurd h.symm (statement_all_ne_one others relation edges)
      | one other others =>
          have htext := congrArg String.toList h
          simp only [statement, Cypher.toList_mergeOne] at htext
          obtain ⟨hedges, hending⟩ := Cypher.shows_mergeFiles htext
          have hname : relation.name = other.name := String.toList_inj.1 (by simpa using hending)
          have hkeys (relation : Relation) (edges : List Edge) : (one relation edges).keys =
              (edges.map Edge.key).map fun key => (key.1, key.2.1, relation) := by
            rw [List.map_map]
            rfl
          rw [hkeys, hkeys, hedges, Relation.name_injective hname]

theorem run_eq_of_statement_eq {left right : Merge} (h : left.statement = right.statement)
    (graph : LinkGraph) : left.run graph = right.run graph := by
  rw [run_eq_add, run_eq_add, keys_eq_of_statement_eq h]

end Merge

end CodeAtlas.Remote
