import CodeAtlas.Action
import CodeAtlas.Graph.Edge

/-!
# Loading

Edges are loaded in batches: in one pass where a graph allows it, and relation by relation where it
does not.
-/

namespace CodeAtlas.Graph

inductive Strategy where
  | generic
  | perRelation
deriving DecidableEq, Repr

/-- How many edges were handed over, and how they were loaded. -/
structure LoadSummary where
  submitted : Nat
  strategy : Strategy
deriving DecidableEq, Repr

def batchSize : Nat := 100

def batchesFuel {α : Type} (size : Nat) : Nat → List α → List (List α)
  | 0, _ => []
  | _, [] => []
  | fuel + 1, items => items.take size :: batchesFuel size fuel (items.drop size)

/-- A list in batches; the last one may be shorter. -/
def batches {α : Type} (items : List α) : List (List α) := batchesFuel batchSize items.length items

/-- Loads in one pass, or relation by relation if that is not supported. -/
def loadWithFallback {σ : Type} (load : Strategy → Action σ LoadSummary) : Action σ LoadSummary :=
  ExceptT.mk fun state =>
    match (load .generic).perform state with
    | (.error (.unsupported _), state) => (load .perRelation).perform state
    | outcome => outcome

end CodeAtlas.Graph
