import CodeAtlas.Graph.Relation

/-!
# Edges

A dependency of one file on another, with a note on where it comes from. Edges are counted once for
each source, target and relation: `dedup` keeps the first of those that agree in all three, and
drops edges from a file to itself.
-/

namespace CodeAtlas.Graph

structure Edge where
  source : String
  target : String
  relation : Relation
  note : Option String := none
deriving DecidableEq, Repr

namespace Edge

def isLoop (edge : Edge) : Bool := edge.source = edge.target

def key (edge : Edge) : String × String × Relation := (edge.source, edge.target, edge.relation)

/-- The edges kept of a list, given the keys of those before it. -/
def dedupFrom (seen : List (String × String × Relation)) : List Edge → List Edge
  | [] => []
  | edge :: rest =>
      if edge.isLoop || seen.contains edge.key then dedupFrom seen rest
      else edge :: dedupFrom (edge.key :: seen) rest

def dedup (edges : List Edge) : List Edge := dedupFrom [] edges

theorem dedupFrom_dedupFrom (seen : List (String × String × Relation)) (edges : List Edge) :
    dedupFrom seen (dedupFrom seen edges) = dedupFrom seen edges := by
  induction edges generalizing seen with
  | nil => rfl
  | cons edge rest ih =>
      by_cases skipped : edge.isLoop || seen.contains edge.key
      · simp only [dedupFrom, if_pos skipped, ih]
      · simp only [dedupFrom, if_neg skipped, ih]

theorem dedup_dedup (edges : List Edge) : dedup (dedup edges) = dedup edges :=
  dedupFrom_dedupFrom [] edges

def toJson (edge : Edge) : Json.Value :=
  let note :=
    match edge.note with
    | some note => [("meta", Json.Value.string note)]
    | none => []
  .object ([("source", .string edge.source), ("target", .string edge.target),
    ("relation", edge.relation.toJson)] ++ note)

structure Partial where
  source : Option String := none
  target : Option String := none
  relation : Option Relation := none
  note : Option (Option String) := none

open Json in
def decoder : Decoder Edge :=
  Decoder.record "StructuralEdge"
    [Field.make ["source"] false Decoder.string Partial.source
        fun state value => { state with source := some value },
      Field.make ["target"] false Decoder.string Partial.target
        fun state value => { state with target := some value },
      Field.make ["relation"] false Relation.decoder Partial.relation
        fun state value => { state with relation := some value },
      Field.make ["meta"] true (Decoder.optional Decoder.string) Partial.note
        fun state value => { state with note := some value }]
    {}
    fun state => do
      return {
        source := ← Decoder.need "source" state.source
        target := ← Decoder.need "target" state.target
        relation := ← Decoder.need "relation" state.relation
        note := state.note.getD none }

end Edge

end CodeAtlas.Graph
