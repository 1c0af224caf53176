import CodeAtlas.Search.Counts

/-!
# Ranking model

Scores of documents for queries after the BM25 formula. A term counts for more where few documents
hold it and where a document holds it often, with a limit to the latter; long documents count for
less. The formula is the same for any numbers; floating-point numbers are one choice.
-/

namespace CodeAtlas.Search

/-- What the formula takes from its numbers, apart from arithmetic. -/
structure Scale (α : Type) where
  ofNat : Nat → α
  half : α
  /-- The least average length to divide by. -/
  leastAverage : α
  log : α → α

namespace Scale

def float : Scale Float := ⟨Float.ofNat, 0.5, 1e-9, Float.log⟩

end Scale

structure Parameters (α : Type) where
  /-- How soon more occurrences of a term stop to count. -/
  k1 : α
  /-- How much the length of a document counts, from zero to one. -/
  b : α
deriving Repr

structure Model (α : Type) where
  parameters : Parameters α
  averageLength : α
  lengths : List UInt32
  /-- Number of documents that hold a term. -/
  documentCounts : Counts
  termCounts : List Counts
deriving Repr

namespace Model

variable {α : Type} [Add α] [Sub α] [Mul α] [Div α]

/-- The number of tokens in all documents, as a machine word. -/
def totalLength (documents : List (List String)) : UInt64 :=
  UInt64.ofNat ((documents.map List.length).foldl (· + ·) 0)

/-- The model of documents given by their tokens. -/
def ofDocuments (scale : Scale α) (parameters : Parameters α) (documents : List (List String)) :
    Model α :=
  let termCounts := documents.map Counts.ofWords
  { parameters
    averageLength :=
      if documents.isEmpty then scale.ofNat 0
      else scale.ofNat (totalLength documents).toNat / scale.ofNat documents.length
    lengths := documents.map fun document => UInt32.ofNat document.length
    documentCounts := Counts.ofWords (termCounts.flatMap Counts.words)
    termCounts }

def size (model : Model α) : Nat := model.lengths.length

/-- Every document has both a length and its terms. -/
def isBalanced (model : Model α) : Bool := model.termCounts.length = model.lengths.length

/-- The weight of a term: the fewer documents hold it, the greater. -/
def weight (scale : Scale α) (model : Model α) (term : String) : α :=
  let documents := scale.ofNat model.size
  let holding := scale.ofNat (model.documentCounts.count term).toNat
  scale.log ((documents - holding + scale.half) / (holding + scale.half) + scale.ofNat 1)

variable [LT α] [DecidableLT α]

/-- The average length, or the least one to divide by. -/
def divisor (scale : Scale α) (model : Model α) : α :=
  if scale.leastAverage < model.averageLength then model.averageLength else scale.leastAverage

/-- What the length of a document adds to the divisor of its term counts. -/
def lengthPenalty (scale : Scale α) (model : Model α) (length : UInt32) : α :=
  let { k1, b } := model.parameters
  k1 * (scale.ofNat 1 - b + b * scale.ofNat length.toNat / model.divisor scale)

/-- What a term that occurs adds to the score of a document. -/
def contribution (scale : Scale α) (model : Model α) (penalty : α) (term : String)
    (count : UInt32) : α :=
  let count := scale.ofNat count.toNat
  model.weight scale term * (count * (model.parameters.k1 + scale.ofNat 1)) / (count + penalty)

/-- The score of one document for the terms of a query, each as often as it is there. -/
def score (scale : Scale α) (model : Model α) (query : List String) (length : UInt32)
    (terms : Counts) : α :=
  let penalty := model.lengthPenalty scale length
  query.foldl (fun score term =>
    let count := terms.count term
    if count = 0 then score else score + model.contribution scale penalty term count)
    (scale.ofNat 0)

/-- The score of each document. Terms that no document holds are left out. -/
def scores (scale : Scale α) (model : Model α) (query : List String) : List α :=
  let known := query.filter model.documentCounts.contains
  if known.isEmpty then model.lengths.map fun _ => scale.ofNat 0
  else List.zipWith (model.score scale known) model.lengths model.termCounts

end Model

end CodeAtlas.Search
