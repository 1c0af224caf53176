import CodeAtlas.Publication
import CodeAtlas.Search.Index

/-!
# Index files

A chunk index as a JSON file. The file says what it is and in which version; a file that says
otherwise, or whose model does not fit its chunks, is refused.
-/

namespace CodeAtlas.Search

open Json

/-! ## The model -/

namespace Parameters

def toJson (parameters : Parameters Float) : Value :=
  .object [("k1", .real parameters.k1), ("b", .real parameters.b)]

structure Partial where
  k1 : Option Float := none
  b : Option Float := none

def decoder : Decoder (Parameters Float) :=
  Decoder.record "Bm25Params"
    [Field.make ["k1"] false Decoder.real Partial.k1
        fun state value => { state with k1 := some value },
      Field.make ["b"] false Decoder.real Partial.b
        fun state value => { state with b := some value }]
    {}
    fun state => do
      return ⟨← Decoder.need "k1" state.k1, ← Decoder.need "b" state.b⟩

end Parameters

namespace Counts

def toJson (counts : Counts) : Value :=
  .object (counts.map fun entry => (entry.1, .natural entry.2.toNat))

/-- Puts in the count of a word, over one that is there. -/
def insert (word : String) (count : UInt32) : Counts → Counts
  | [] => [(word, count)]
  | (present, other) :: rest =>
      if word < present then (word, count) :: (present, other) :: rest
      else if word = present then (word, count) :: rest
      else (present, other) :: insert word count rest

/-- Counts in any order; of several for one word the last one holds. -/
def ofEntries (entries : List (String × UInt32)) : Counts :=
  entries.foldl (fun counts entry => counts.insert entry.1 entry.2) []

def decoder : Decoder Counts := fun origin draft => do
  return ofEntries (← Decoder.map Decoder.word32 origin draft)

end Counts

namespace Model

def toJson (model : Model Float) : Value :=
  .object [("params", model.parameters.toJson), ("avg_doc_len", .real model.averageLength),
    ("doc_lengths", .array (model.lengths.map fun length => .natural length.toNat)),
    ("doc_freq", model.documentCounts.toJson),
    ("term_freqs", .array (model.termCounts.map Counts.toJson))]

structure Partial where
  parameters : Option (Parameters Float) := none
  averageLength : Option Float := none
  lengths : Option (List UInt32) := none
  documentCounts : Option Counts := none
  termCounts : Option (List Counts) := none

def decoder : Decoder (Model Float) :=
  Decoder.record "Bm25Model"
    [Field.make ["params"] false Parameters.decoder Partial.parameters
        fun state value => { state with parameters := some value },
      Field.make ["avg_doc_len"] false Decoder.real Partial.averageLength
        fun state value => { state with averageLength := some value },
      Field.make ["doc_lengths"] false (Decoder.list Decoder.word32) Partial.lengths
        fun state value => { state with lengths := some value },
      Field.make ["doc_freq"] false Counts.decoder Partial.documentCounts
        fun state value => { state with documentCounts := some value },
      Field.make ["term_freqs"] false (Decoder.list Counts.decoder) Partial.termCounts
        fun state value => { state with termCounts := some value }]
    {}
    fun state => do
      return {
        parameters := ← Decoder.need "params" state.parameters
        averageLength := ← Decoder.need "avg_doc_len" state.averageLength
        lengths := ← Decoder.need "doc_lengths" state.lengths
        documentCounts := ← Decoder.need "doc_freq" state.documentCounts
        termCounts := ← Decoder.need "term_freqs" state.termCounts }

/-- Each document has a length and terms, and the numbers are finite. -/
def isConsistent (model : Model Float) : Bool :=
  model.isBalanced && model.averageLength.isFinite && model.parameters.k1.isFinite &&
    model.parameters.b.isFinite

end Model

/-! ## The index -/

namespace Index

def format : String := "codecompass-chunk-index"

def version : Nat := 1

def toJson (index : Index Float) : Value :=
  .object [("format", .string format), ("version", .natural version),
    ("root", .string index.root), ("built_at_unix_ms", .natural index.builtAt),
    ("chunks", .array (index.chunks.map Chunk.toJson)), ("model", index.model.toJson)]

structure Partial where
  format : Option String := none
  version : Option UInt32 := none
  root : Option String := none
  builtAt : Option Nat := none
  chunks : Option (List Chunk) := none
  model : Option (Model Float) := none

def decoder : Decoder (Index Float) :=
  Decoder.record "ChunkIndex"
    [Field.make ["format"] false Decoder.string Partial.format
        fun state value => { state with format := some value },
      Field.make ["version"] false Decoder.word32 Partial.version
        fun state value => { state with version := some value },
      Field.make ["root"] false Decoder.string Partial.root
        fun state value => { state with root := some value },
      Field.make ["built_at_unix_ms"] false Decoder.word64 Partial.builtAt
        fun state value => { state with builtAt := some value },
      Field.make ["chunks"] false (Decoder.list Chunk.decoder) Partial.chunks
        fun state value => { state with chunks := some value },
      Field.make ["model"] false Model.decoder Partial.model
        fun state value => { state with model := some value }]
    {}
    fun state => do
      let _ ← Decoder.need "format" state.format
      let _ ← Decoder.need "version" state.version
      return {
        root := ← Decoder.need "root" state.root
        builtAt := ← Decoder.need "built_at_unix_ms" state.builtAt
        chunks := ← Decoder.need "chunks" state.chunks
        model := ← Decoder.need "model" state.model }

/-- A chunk for each document of the model. -/
def isSound (index : Index Float) : Bool :=
  index.model.isConsistent && index.model.size = index.chunks.length

/-- A value that may be missing, in messages. -/
def optionText (text : Option String) : String :=
  match text with
  | some text => s!"Some({text})"
  | none => "None"

/-- Why a value is no index of this version. -/
def headerProblem? (draft : Draft) : Option String :=
  match draft with
  | .object _ _ =>
      let found := (draft.field? "format").bind Draft.text?
      let number := (draft.field? "version").bind Draft.natural?
      if found ≠ some format then
        some (s!"unexpected format {optionText (found.map Text.quoted)}, " ++
          s!"expected {Text.quoted format}")
      else if number ≠ some version then
        some s!"unsupported version {optionText (number.map toString)}, expected {version}"
      else none
  | _ => some ("not a versioned index " ++
      "(legacy chunk lists can be converted with `codecompass migrate-index`)")

/-- Reads an index out of a JSON text. The reason for a refusal is given. -/
def ofDocument (document : Document) : Except String (Index Float) := do
  let draft ← document.whole.mapError SyntaxError.message
  let draft := draft.sorted
  match headerProblem? draft with
  | some reason => throw reason
  | none =>
      let index ← (decoder .value draft).mapError Json.Error.message
      if index.isSound then return index else throw "model does not match chunk collection"

def load (tree : FileTree) (path : String) : Result (Index Float) := do
  if !tree.isFile path then throw (.indexNotFound path)
  let content ← (tree.read path).mapError .system
  (ofDocument (Document.read content.input)).mapError (.indexMalformed path)

def toText (index : Index Float) : String := index.toJson.compact

def save (index : Index Float) (tree : FileTree) (path : String) :
    Except SystemError Unit × FileTree :=
  tree.publish path index.toText

end Index

end CodeAtlas.Search
