import CodeAtlas.Graph.Edge

/-!
# Neighbours

A file at the other end of an edge. Rows are ordered by direction, relation and file.
-/

namespace CodeAtlas.Graph

structure Neighbor where
  file : String
  relation : Relation
  direction : Direction
deriving DecidableEq, Repr

namespace Neighbor

def order (left right : Neighbor) : Ordering :=
  (compare left.direction.name right.direction.name).then
    ((compare left.relation.name right.relation.name).then (compare left.file right.file))

def sort (rows : List Neighbor) : List Neighbor :=
  rows.mergeSort fun left right => (order left right).isLE

def toJson (row : Neighbor) : Json.Value :=
  .object [("neighbor", .string row.file), ("relation", row.relation.toJson),
    ("direction", row.direction.toJson)]

structure Partial where
  file : Option String := none
  relation : Option Relation := none
  direction : Option Direction := none

open Json in
def decoder : Decoder Neighbor :=
  Decoder.record "Neighbor"
    [Field.make ["neighbor"] false Decoder.string Partial.file
        fun state value => { state with file := some value },
      Field.make ["relation"] false Relation.decoder Partial.relation
        fun state value => { state with relation := some value },
      Field.make ["direction"] false Direction.decoder Partial.direction
        fun state value => { state with direction := some value }]
    {}
    fun state => do
      return {
        file := ← Decoder.need "neighbor" state.file
        relation := ← Decoder.need "relation" state.relation
        direction := ← Decoder.need "direction" state.direction }

end Neighbor

end CodeAtlas.Graph
