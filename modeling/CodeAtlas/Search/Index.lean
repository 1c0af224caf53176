import CodeAtlas.Search.Model
import CodeAtlas.Search.Ranking
import CodeAtlas.Search.Tokens

/-!
# Chunk index

Chunks together with the model of their tokens, ready to be searched.
-/

namespace CodeAtlas.Search

structure Index (α : Type) where
  root : String
  /-- When it was built, in milliseconds as a machine word. -/
  builtAt : Nat
  chunks : List Chunk
  model : Model α
deriving Repr

namespace Index

variable {α : Type} [Add α] [Sub α] [Mul α] [Div α]

def build (scale : Scale α) (parameters : Parameters α) (root : String) (time : Nat)
    (chunks : List Chunk) : Index α :=
  { root
    builtAt := time % Nat.pow 2 64
    chunks
    model := Model.ofDocuments scale parameters (chunks.map fun chunk => tokens chunk.indexText) }

def size (index : Index α) : Nat := index.chunks.length

def fileCount (index : Index α) : Nat := (index.chunks.map Chunk.file).eraseDups.length

variable [LT α] [DecidableLT α]

/-- The best files for a query, each with its best chunk. -/
def search (scale : Scale α) (index : Index α) (query : String) (limit : Nat) :
    List (Scored α) :=
  let terms := tokens query
  if terms.isEmpty then []
  else
    Ranking.top (scale.ofNat 0) limit
      (List.zipWith Scored.mk index.chunks (index.model.scores scale terms))

end Index

end CodeAtlas.Search
