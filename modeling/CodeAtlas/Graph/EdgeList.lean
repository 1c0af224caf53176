import CodeAtlas.Graph.Edge
import CodeAtlas.Json.Print
import CodeAtlas.Publication

/-!
# Edge lists

A list in which no two edges count as one and no edge is a loop, as it is handed from extraction to
a graph. It is written as pretty JSON, and by way of a file.
-/

namespace CodeAtlas.Graph

structure EdgeList where
  edges : List Edge
  distinct : Edge.dedup edges = edges
deriving DecidableEq

namespace EdgeList

def ofEdges (edges : List Edge) : EdgeList := ⟨Edge.dedup edges, Edge.dedup_dedup edges⟩

def merge (batches : List (List Edge)) : EdgeList := ofEdges batches.flatten

def size (list : EdgeList) : Nat := list.edges.length

def count (list : EdgeList) (relation : Relation) : Nat :=
  list.edges.countP fun edge => edge.relation = relation

/-- The relations that occur, with the numbers of their edges. -/
def counts (list : EdgeList) : List (Relation × Nat) :=
  (Relation.all.map fun relation => (relation, list.count relation)).filter fun entry =>
    entry.2 ≠ 0

def toText (list : EdgeList) : String := (Json.Value.array (list.edges.map Edge.toJson)).pretty

def ofText (text : String) : Except Json.Error EdgeList := do
  let document := Json.Document.read (Json.Input.ofText text)
  return ofEdges (← (Json.Decoder.list Edge.decoder).ofText document)

def load (tree : FileTree) (path : String) : Result EdgeList := do
  if !tree.contains path then
    throw (.edgeList path "file not found; run `codecompass extract <repo>` first")
  let text ← (tree.read path >>= Content.readText).mapError .system
  (ofText text).mapError fun error => .edgeList path error.message

def save (list : EdgeList) (tree : FileTree) (path : String) :
    Except SystemError Unit × FileTree :=
  tree.publish path list.toText

end EdgeList

end CodeAtlas.Graph
