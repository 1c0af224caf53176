import CodeAtlas.Batch
import CodeAtlas.Chunk
import CodeAtlas.Text.Lines

/-!
# Chunking

The chunks of a file: one for each definition, with the whole lines it stands on, in the order in
which the definitions start, and one for the file itself, which comes last and is cut to a number of
characters. A text that is no source is one chunk.
-/

namespace CodeAtlas

namespace Chunking

def moduleName (file : String) : String := (Path.stem? file).getD file

def kindOf : Syntax.Definition.Kind → Chunk.Kind
  | .function => .function
  | .type => .type

/-- Lines from one row to another, both included. -/
def rowsBetween (lines : List String) (first last : Nat) : List String :=
  (lines.drop first).take (last + 1 - first)

def ofDefinition? (file : String) (lines : List String) (definition : Syntax.Definition) :
    Option Chunk :=
  if definition.start.row < lines.length then
    some {
      file
      kind := kindOf definition.kind
      name := definition.name
      source := "\n".intercalate (rowsBetween lines definition.start.row definition.stop.row) }
  else none

/-- The definitions that are found, one for each stretch of text that was not seen before. -/
def once (seen : List (Nat × Nat)) : List Syntax.Definition → List Syntax.Definition
  | [] => []
  | definition :: rest =>
      let stretch := (definition.start.offset, definition.stop.offset)
      if stretch ∈ seen then once seen rest else definition :: once (stretch :: seen) rest

/-- The chunks of definitions, each with the point where its definition starts. -/
def ofDefinitions (file : String) (lines : List String) (definitions : List Syntax.Definition) :
    List (Nat × Chunk) :=
  (once [] definitions).filterMap fun definition =>
    (ofDefinition? file lines definition).map fun chunk => (definition.start.offset, chunk)

def front (length : Nat) (text : String) : String := String.ofList (text.toList.take length)

def ofModule (file source : String) : Chunk := ⟨file, .module, moduleName file, source⟩

/-- The chunks of a text; `length` limits the file's own chunk. -/
def ofText (length : Nat) (file text : String) : List Chunk :=
  match Syntax.Outline.ofText? text with
  | none => [ofModule file text]
  | some outline =>
      let found := ofDefinitions file (Text.lines text) outline.definitions
      (found.mergeSort fun first second => first.1 ≤ second.1).map Prod.snd ++
        [ofModule file (front length text)]

def ofContent (length : Nat) (file : String) (content : Content) : Result (List Chunk) := do
  return ofText length file (← Extraction.textOf file content)

end Chunking

namespace SourceTree

def chunks (tree : SourceTree) (length : Nat) (file : String) : Result (List Chunk) := do
  Chunking.ofContent length file (← tree.read file)

def chunkFiles (tree : SourceTree) (length : Nat) (files : List String) :
    Result (Batch (List Chunk)) := do
  tree.checkRoot
  return Batch.ofFiles files (tree.chunks length)

def chunkAll (tree : SourceTree) (length : Nat) : Result (Batch (List Chunk)) :=
  tree.chunkFiles length tree.scan

end SourceTree

end CodeAtlas
