import CodeAtlas.Configuration
import CodeAtlas.Proofs.Search.IndexFile
import CodeAtlas.Proofs.Workspace

/-!
# Where answers come from

The graph in a database and the index in a file are what answers are made of. Opening the database
makes one where there is none, which changes neither: the new database is empty, as is the graph of
one who opens it later, and its file is no more an index than the empty file or the gap in its place
was.
-/

namespace CodeAtlas

namespace Search.Index

theorem toOption_load (tree : FileTree) (path : String) :
    (load tree path).toOption =
      match tree.find? path with
      | some (.file content) => (ofDocument (Json.Document.read content.input)).toOption
      | _ => none := by
  cases hf : tree.find? path with
  | none => rw [load_of_isFile_eq_false (by simp [FileTree.isFile, hf]), Except.toOption]
  | some entry =>
      cases entry with
      | directory => rw [load_of_isFile_eq_false (by simp [FileTree.isFile, hf]), Except.toOption]
      | file content =>
          rw [load_of_read (FileTree.read_eq_ok_iff_find?.2 hf)]
          dsimp only
          cases ofDocument (Json.Document.read content.input) <;> rfl

theorem ofDocument_graph (number : Nat) :
    (ofDocument (Json.Document.read (Content.graph number).input)).toOption = none := rfl

theorem ofDocument_empty {content : Content} (h : Workspace.isEmptyContent content = true) :
    (ofDocument (Json.Document.read content.input)).toOption = none := by
  cases content with
  | text value =>
      obtain rfl : value = "" := by simpa [Workspace.isEmptyContent] using h
      rfl
  | bytes value =>
      obtain rfl : value = [] := by simpa [Workspace.isEmptyContent] using h
      rfl
  | graph number => cases h

end Search.Index

namespace Workspace

open CodeAtlas.Graph

variable {path : String} {workspace : Workspace}

/-- A file at this place is made into a database when it is opened. -/
structure IsVacant (workspace : Workspace) (path : String) (trail : Trail) : Prop where
  isStored : path ∉ transientPaths
  locate : workspace.files.locate path = .ok trail
  get? : workspace.files.get? trail = none ∨
    ∃ content, isEmptyContent content = true ∧ workspace.files.get? trail = some (.file content)

theorem IsVacant.isDirectoryAt {trail : Trail} (h : workspace.IsVacant path trail) :
    workspace.files.isDirectoryAt trail = false := by
  rcases h.get? with hg | ⟨content, -, hg⟩ <;> simp [FileTree.isDirectoryAt, hg]

theorem databaseNumber?_eq_some_iff {number : Nat} : workspace.databaseNumber? path = some number ↔
    workspace.files.find? path = some (.file (.graph number)) := by
  rw [databaseNumber?]
  split
  · next present hf => simp [hf]
  · next hn =>
      constructor
      · intro h
        cases h
      · intro h
        exact absurd h (hn number)

/-- What becomes of opening a database: one without a file, one that is there, a new one, or none.
-/
theorem perform_openDatabase (path : String) (workspace : Workspace) :
    (path ∈ transientPaths ∧
      (openDatabase path).perform workspace = (.ok (.transient .empty), workspace)) ∨
    (path ∉ transientPaths ∧ ∃ number, workspace.databaseNumber? path = some number ∧
      (openDatabase path).perform workspace = (.ok (.stored number), workspace)) ∨
    (∃ trail, workspace.IsVacant path trail ∧ (openDatabase path).perform workspace =
      (.ok (workspace.createDatabase trail).1, (workspace.createDatabase trail).2)) ∨
    ∃ error, (openDatabase path).perform workspace = (.error error, workspace) := by
  rw [openDatabase, Action.perform_update]
  by_cases ht : path ∈ transientPaths
  · exact .inl ⟨ht, by rw [if_pos (by simpa using ht)]⟩
  refine .inr ?_
  rw [if_neg (by simpa using ht)]
  cases hl : workspace.files.locate path with
  | error cause => exact .inr (.inr ⟨_, rfl⟩)
  | ok trail =>
      dsimp only
      cases hg : workspace.files.get? trail with
      | none => exact .inr (.inl ⟨trail, ⟨ht, hl, .inl hg⟩, rfl⟩)
      | some entry =>
          cases entry with
          | directory => exact .inr (.inr ⟨_, rfl⟩)
          | file content =>
              by_cases he : isEmptyContent content = true
              · refine .inr (.inl ⟨trail, ⟨ht, hl, .inr ⟨_, he, hg⟩⟩, ?_⟩)
                cases content <;> simp_all [isEmptyContent]
              · cases content with
                | graph number =>
                    refine .inl ⟨ht, number, databaseNumber?_eq_some_iff.2 ?_, rfl⟩
                    rw [FileTree.find?, hl]
                    exact hg
                | text value => exact .inr (.inr ⟨.database .notDatabase, by simp [he]⟩)
                | bytes value => exact .inr (.inr ⟨.database .notDatabase, by simp [he]⟩)

theorem perform_openDatabase_of_databaseNumber? {number : Nat} (ht : path ∉ transientPaths)
    (h : workspace.databaseNumber? path = some number) :
    (openDatabase path).perform workspace = (.ok (.stored number), workspace) := by
  have hf := databaseNumber?_eq_some_iff.1 h
  rw [openDatabase, Action.perform_update, if_neg (by simpa using ht)]
  cases hl : workspace.files.locate path with
  | error cause =>
      rw [FileTree.find?, hl] at hf
      cases hf
  | ok trail =>
      rw [FileTree.find?, hl] at hf
      dsimp only at hf ⊢
      rw [hf]

theorem databaseNumber?_createDatabase {trail : Trail} (h : workspace.IsVacant path trail) :
    (workspace.createDatabase trail).2.databaseNumber? path = some workspace.databases.length :=
  databaseNumber?_eq_some_iff.2 (FileTree.find?_put_file_self h.locate h.isDirectoryAt _)

theorem store_createDatabase (workspace : Workspace) (trail : Trail) :
    (workspace.createDatabase trail).2.store (workspace.createDatabase trail).1 = .ok .empty :=
  store_stored_eq_ok_iff.2 (by simp [createDatabase])

/-- The graph that one finds who opens the database under a path. -/
def graphAt (path : String) (workspace : Workspace) : Result Store :=
  match (openDatabase path).perform workspace with
  | (.ok database, after) => after.store database
  | (.error error, _) => .error error

theorem graphAt_createDatabase {trail : Trail} (h : workspace.IsVacant path trail) :
    (workspace.createDatabase trail).2.graphAt path = .ok .empty := by
  rw [graphAt,
    perform_openDatabase_of_databaseNumber? h.isStored (databaseNumber?_createDatabase h)]
  exact store_createDatabase workspace trail

theorem graphAt_of_created {trail : Trail}
    (ho : (openDatabase path).perform workspace =
      (.ok (workspace.createDatabase trail).1, (workspace.createDatabase trail).2)) :
    workspace.graphAt path = .ok .empty := by
  rw [graphAt, ho]
  exact store_createDatabase workspace trail

end Workspace

/-- Two workspaces hold the same graph and the same index, if any, where a configuration has them.
-/
structure SameSources (configuration : Configuration) (left right : Workspace) : Prop where
  graph : right.graphAt configuration.graph.databasePath =
    left.graphAt configuration.graph.databasePath
  index : (Search.Index.load right.files configuration.index.path).toOption =
    (Search.Index.load left.files configuration.index.path).toOption

namespace SameSources

variable {configuration : Configuration} {left middle right : Workspace}

theorem refl (configuration : Configuration) (workspace : Workspace) :
    SameSources configuration workspace workspace := ⟨rfl, rfl⟩

theorem trans (h : SameSources configuration left middle)
    (h' : SameSources configuration middle right) : SameSources configuration left right :=
  ⟨h'.graph.trans h.graph, h'.index.trans h.index⟩

end SameSources

namespace Workspace

variable {workspace : Workspace}

theorem toOption_load_createDatabase {path : String} {trail : Trail}
    (h : workspace.IsVacant path trail) (indexPath : String) :
    (Search.Index.load (workspace.createDatabase trail).2.files indexPath).toOption =
      (Search.Index.load workspace.files indexPath).toOption := by
  rw [Search.Index.toOption_load, Search.Index.toOption_load, createDatabase]
  by_cases hl : workspace.files.locate indexPath = .ok trail
  · rw [FileTree.find?_put_file_self hl h.isDirectoryAt, FileTree.find?, hl]
    rcases h.get? with hg | ⟨content, he, hg⟩
    · simp only [hg]
      exact Search.Index.ofDocument_graph _
    · simp only [hg]
      exact (Search.Index.ofDocument_graph _).trans (Search.Index.ofDocument_empty he).symm
  · rw [FileTree.find?_put_file_of_ne hl h.isDirectoryAt]

theorem sameSources_openDatabase (configuration : Configuration) (workspace : Workspace) :
    SameSources configuration workspace
      ((openDatabase configuration.graph.databasePath).perform workspace).2 := by
  rcases perform_openDatabase configuration.graph.databasePath workspace with
    ⟨-, ho⟩ | ⟨-, number, -, ho⟩ | ⟨trail, hv, ho⟩ | ⟨error, ho⟩
  · rw [ho]
    exact .refl configuration workspace
  · rw [ho]
    exact .refl configuration workspace
  · rw [ho]
    exact ⟨(graphAt_createDatabase hv).trans (graphAt_of_created ho).symm,
      toOption_load_createDatabase hv configuration.index.path⟩
  · rw [ho]
    exact .refl configuration workspace

end Workspace

end CodeAtlas
