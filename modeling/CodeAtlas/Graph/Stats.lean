import CodeAtlas.Graph.Relation

/-!
# Graph statistics

How many files a graph has, and how many edges of each relation. Relations are ordered by the number
of their edges, the greatest first, and then by name.
-/

namespace CodeAtlas.Graph

structure RelationCount where
  relation : String
  count : Nat
deriving DecidableEq, Repr

namespace RelationCount

def order (left right : RelationCount) : Ordering :=
  (compare right.count left.count).then (compare left.relation right.relation)

end RelationCount

structure Stats where
  files : Nat
  counts : List RelationCount
deriving DecidableEq, Repr

namespace Stats

def ofCounts (files : Nat) (counts : List RelationCount) : Stats :=
  ⟨files, counts.mergeSort fun left right => (RelationCount.order left right).isLE⟩

def totalEdges (stats : Stats) : Nat :=
  stats.counts.foldl (fun total entry => total + entry.count) 0

def count (stats : Stats) (relation : Relation) : Nat :=
  match stats.counts.find? fun entry => entry.relation = relation.name with
  | some entry => entry.count
  | none => 0

def toJson (stats : Stats) : Json.Value :=
  .object [("files", .natural stats.files),
    ("edges", .object (stats.counts.map fun entry => (entry.relation, .natural entry.count)))]

end Stats

end CodeAtlas.Graph
