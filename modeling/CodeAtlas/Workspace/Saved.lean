import CodeAtlas.Json.Print
import CodeAtlas.Workspace

/-!
# Saved workspaces

A workspace as plain files: a file with a database holds the mark of a database and its graph as a
JSON text behind it. A file with the mark and no graph behind it is left as it is.
-/

namespace CodeAtlas

open Json

namespace Graph

namespace Row

def toJson (row : Row) : Value :=
  .object ([("source", .string row.source), ("target", .string row.target),
    ("relation", .string row.relation)] ++
      (row.note.map fun note => ("meta", Value.string note)).toList)

structure Partial where
  source : Option String := none
  target : Option String := none
  relation : Option String := none
  note : Option (Option String) := none

def decoder : Decoder Row :=
  Decoder.record "Row"
    [Field.make ["source"] false Decoder.string Partial.source
        fun state value => { state with source := some value },
      Field.make ["target"] false Decoder.string Partial.target
        fun state value => { state with target := some value },
      Field.make ["relation"] false Decoder.string Partial.relation
        fun state value => { state with relation := some value },
      Field.make ["meta"] true (Decoder.optional Decoder.string) Partial.note
        fun state value => { state with note := some value }]
    {}
    fun state => do
      return ⟨← Decoder.need "source" state.source, ← Decoder.need "target" state.target,
        ← Decoder.need "relation" state.relation, state.note.join⟩

end Row

namespace Store

def toJson (store : Store) : Value :=
  .object [("files", .array (store.paths.map .string)),
    ("edges", .array (store.rows.map Row.toJson))]

structure Partial where
  files : Option (List String) := none
  rows : Option (List Row) := none

def ofRows (files : List String) (rows : List Row) : Store :=
  rows.foldl addRow (files.foldl addFile empty)

def decoder : Decoder Store :=
  Decoder.record "Store"
    [Field.make ["files"] false (Decoder.list Decoder.string) Partial.files
        fun state value => { state with files := some value },
      Field.make ["edges"] false (Decoder.list Row.decoder) Partial.rows
        fun state value => { state with rows := some value }]
    {}
    fun state => do
      return ofRows (← Decoder.need "files" state.files) (← Decoder.need "edges" state.rows)

end Store

end Graph

namespace Workspace

def databaseText (store : Graph.Store) : String := Content.databaseMark ++ store.toJson.compact

/-- The graph in a file, where the file has one. -/
def savedStore? (content : Content) : Option Graph.Store :=
  match content.decode with
  | .error _ => none
  | .ok text =>
      let mark := Content.databaseMark.toList
      if mark.isPrefixOf text.toList then
        let rest := Input.ofText (String.ofList (text.toList.drop mark.length))
        (Graph.Store.decoder.ofText (Document.read rest)).toOption
      else none

def takeIn (workspace : Workspace) (trail : Trail) (entry : Entry) : Workspace :=
  match entry with
  | .directory => { workspace with files := workspace.files.put trail .directory }
  | .file content =>
      match savedStore? content with
      | none => { workspace with files := workspace.files.put trail entry }
      | some store => {
          files := workspace.files.put trail (.file (.graph workspace.databases.length))
          databases := workspace.databases ++ [some store] }

def ofFiles (files : FileTree) : Workspace :=
  files.entries.foldl (fun workspace (trail, entry) => workspace.takeIn trail entry) {}

def plain (workspace : Workspace) (content : Content) : Content :=
  match content with
  | .graph number =>
      match workspace.databases[number]? with
      | some (some store) => .text (databaseText store)
      | _ => content
  | content => content

def toFiles (workspace : Workspace) : FileTree :=
  ⟨workspace.files.entries.map fun (trail, entry) =>
    match entry with
    | .directory => (trail, .directory)
    | .file content => (trail, .file (workspace.plain content))⟩

end Workspace

end CodeAtlas
