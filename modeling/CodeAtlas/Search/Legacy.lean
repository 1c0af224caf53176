import CodeAtlas.Chunking
import CodeAtlas.Search.Artifact
import CodeAtlas.Text.Lowercase

/-!
# Legacy chunk lists

Chunk lists from before there were index files: an array of records, or an object that holds one.
The keys of a record have several spellings. A record without a name is named after its file, and
one without a known kind is a module.
-/

namespace CodeAtlas.Search

open Json

namespace Legacy

structure Record where
  file : String
  source : String
  kind : Option String
  name : Option String

structure Partial where
  file : Option String := none
  source : Option String := none
  kind : Option (Option String) := none
  name : Option (Option String) := none

def recordDecoder : Decoder Record :=
  Decoder.record "LegacyRecord"
    [Field.make ["file_path", "file"] false Decoder.string Partial.file
        fun state value => { state with file := some value },
      Field.make ["source", "text", "content"] false Decoder.string Partial.source
        fun state value => { state with source := some value },
      Field.make ["chunk_type", "type", "kind"] true (Decoder.optional Decoder.string) Partial.kind
        fun state value => { state with kind := some value },
      Field.make ["name"] true (Decoder.optional Decoder.string) Partial.name
        fun state value => { state with name := some value }]
    {}
    fun state => do
      return {
        file := ← Decoder.need "file_path" state.file
        source := ← Decoder.need "source" state.source
        kind := state.kind.getD none
        name := state.name.getD none }

/-- The parts of an object that holds a list. -/
structure Wrapper where
  chunks : Option (List Record) := none
  root : Option (Option String) := none

/-- The list in an object, with the root it names. -/
def wrapperDecoder : Decoder (Option String × List Record)
  | origin, .object entries fault =>
      Decoder.record ""
        [Field.make ["chunks"] false (Decoder.list recordDecoder) Wrapper.chunks
            fun state value => { state with chunks := some value },
          Field.make ["root", "repo_root"] true (Decoder.optional Decoder.string) Wrapper.root
            fun state value => { state with root := some value }]
        {}
        (fun state => do
          return (state.root.getD none, ← Decoder.need "chunks" state.chunks))
        origin (.object entries fault)
  | _, draft => Decoder.mismatch "a map" draft

/-- Either form of a list, with the root where one is named. -/
def decoder : Decoder (Option String × List Record) := fun origin draft =>
  match Decoder.list recordDecoder origin draft with
  | .ok records => .ok (none, records)
  | .error _ =>
      match wrapperDecoder origin draft with
      | .ok found => .ok found
      | .error _ => .error (.noShape "LegacyFile")

/-- The kind a word stands for; case does not matter. -/
def kindOf (word : Option String) : Chunk.Kind :=
  match word.map Text.lowercase with
  | some "function" => .function
  | some "method" => .function
  | some "async_function" => .function
  | some "class" => .type
  | _ => .module

def Record.toChunk (record : Record) : Chunk where
  file := record.file
  kind := kindOf record.kind
  name := record.name.getD ((Path.stem? record.file).getD "")
  source := record.source

/-- Reads a list out of a JSON text. The reason for a refusal is given. -/
def ofDocument (document : Document) : Except String (Option String × List Chunk) := do
  -- The value is read to its end before its shape is known, and what stands behind it comes last.
  match document.root.readFault Document.depthLimit with
  | some error => throw error.message
  | none =>
      let (root, records) ← (decoder .value document.root).mapError Json.Error.message
      if document.trailing then throw SyntaxError.trailingCharacters.message
      return (root, records.map Record.toChunk)

def load (tree : FileTree) (path : String) : Result (Option String × List Chunk) := do
  if !tree.isFile path then throw (.invalidArgument s!"legacy chunk list not found: {path}")
  let content ← (tree.read path).mapError .system
  (ofDocument (Document.read content.input)).mapError (.indexMalformed path)

end Legacy

def Index.ofLegacy (parameters : Parameters Float) (time : Nat) (tree : FileTree) (path : String) :
    Result (Index Float) := do
  let (root, chunks) ← Legacy.load tree path
  return Index.build .float parameters (root.getD "") time chunks

end CodeAtlas.Search
