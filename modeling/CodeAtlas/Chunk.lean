import CodeAtlas.Json.Decode
import CodeAtlas.Json.Print

/-!
# Chunks

A chunk is what is ranked: the text of one definition, or the front of a whole file.
-/

namespace CodeAtlas

namespace Chunk

inductive Kind where
  | function
  | type
  | module
deriving DecidableEq, Repr

namespace Kind

def name : Kind → String
  | .function => "function"
  | .type => "class"
  | .module => "module"

def names : List (String × Kind) :=
  [("function", .function), ("class", .type), ("module", .module)]

def decoder : Json.Decoder Kind := Json.Decoder.variant names

def toJson (kind : Kind) : Json.Value := .string kind.name

end Kind

end Chunk

structure Chunk where
  file : String
  kind : Chunk.Kind
  name : String
  source : String
deriving DecidableEq, Repr

namespace Chunk

/-- The text whose tokens count for ranking. -/
def indexText (chunk : Chunk) : String := s!"{chunk.file} {chunk.name} {chunk.source}"

def toJson (chunk : Chunk) : Json.Value :=
  .object [("file_path", .string chunk.file), ("kind", chunk.kind.toJson),
    ("name", .string chunk.name), ("source", .string chunk.source)]

structure Partial where
  file : Option String := none
  kind : Option Kind := none
  name : Option String := none
  source : Option String := none

open Json in
def decoder : Decoder Chunk :=
  Decoder.record "CodeChunk"
    [Field.make ["file_path"] false Decoder.string Partial.file
        fun state value => { state with file := some value },
      Field.make ["kind"] false Kind.decoder Partial.kind
        fun state value => { state with kind := some value },
      Field.make ["name"] false Decoder.string Partial.name
        fun state value => { state with name := some value },
      Field.make ["source"] false Decoder.string Partial.source
        fun state value => { state with source := some value }]
    {}
    fun state => do
      return {
        file := ← Decoder.need "file_path" state.file
        kind := ← Decoder.need "kind" state.kind
        name := ← Decoder.need "name" state.name
        source := ← Decoder.need "source" state.source }

end Chunk

end CodeAtlas
