import CodeAtlas.Configuration.File
import CodeAtlas.Proofs.Graph.EdgeFile
import CodeAtlas.Proofs.Sources

/-!
# Opened databases

A database that is made when it is opened takes the place of an empty file, or of none. No edge list
can be loaded from there, and settings that were read there were the defaults, as they are when the
database is in their place. So whoever reads his settings and a list before he opens the database
reads the same when he comes again, and then finds the database.
-/

namespace CodeAtlas

/-! ## Files that stay readable -/

theorem Configuration.ofFile_eq_match (tree : FileTree) (path : String) : ofFile tree path =
    match tree.find? path with
    | none => .ok {}
    | some .directory => .error (.unreadable path .isDirectory)
    | some (.file content) =>
        match content.readText with
        | .error cause => .error (.unreadable path cause)
        | .ok text => .ok ((ofText text).toOption.getD {}) := by
  rw [ofFile, FileTree.contains]
  cases hf : tree.find? path with
  | none => rfl
  | some entry =>
      rw [FileTree.read_of_find? hf]
      cases entry <;> rfl

namespace Workspace

open CodeAtlas.Graph

variable {path : String} {workspace : Workspace} {trail : Trail}

theorem readText_of_isEmptyContent {content : Content} (h : isEmptyContent content = true) :
    content.readText = .ok "" := by
  cases content with
  | text value =>
      obtain rfl : value = "" := by simpa [isEmptyContent] using h
      rfl
  | bytes value =>
      obtain rfl : value = [] := by simpa [isEmptyContent] using h
      rfl
  | graph number => cases h

theorem load_createDatabase (hv : workspace.IsVacant path trail) {edgesPath : String}
    {list : EdgeList} (h : EdgeList.load workspace.files edgesPath = .ok list) :
    EdgeList.load (workspace.createDatabase trail).2.files edgesPath = .ok list := by
  rw [EdgeList.load_eq_match] at h ⊢
  by_cases hl : workspace.files.locate edgesPath = .ok trail
  · rw [FileTree.find?, hl] at h
    rcases hv.get? with hg | ⟨content, he, hg⟩
    · simp only [hg] at h
      cases h
    · simp only [hg, readText_of_isEmptyContent he] at h
      cases h
  · rwa [createDatabase, FileTree.find?_put_file_of_ne hl hv.isDirectoryAt]

theorem ofFile_createDatabase (hv : workspace.IsVacant path trail) (configPath : String) :
    Configuration.ofFile (workspace.createDatabase trail).2.files configPath =
      Configuration.ofFile workspace.files configPath := by
  rw [Configuration.ofFile_eq_match, Configuration.ofFile_eq_match, createDatabase]
  by_cases hl : workspace.files.locate configPath = .ok trail
  · rw [FileTree.find?_put_file_self hl hv.isDirectoryAt, FileTree.find?, hl]
    rcases hv.get? with hg | ⟨content, he, hg⟩
    · simp only [hg]
      rfl
    · simp only [hg, readText_of_isEmptyContent he]
      rfl
  · rw [FileTree.find?_put_file_of_ne hl hv.isDirectoryAt]

/-! ## Opened databases -/

/-- What a database that has been opened leaves as it was, and where it is found. -/
structure Opening (path : String) (workspace : Workspace) (opened : Opened) : Prop where
  ofFile : ∀ configPath, Configuration.ofFile opened.2.files configPath =
    Configuration.ofFile workspace.files configPath
  load : ∀ edgesPath list, EdgeList.load workspace.files edgesPath = .ok list →
    EdgeList.load opened.2.files edgesPath = .ok list
  found : path ∈ transientPaths ∧ opened = (.transient .empty, workspace) ∨
    path ∉ transientPaths ∧ ∃ number, opened.1 = .stored number ∧
      opened.2.databaseNumber? path = some number

/-- Opening ends with a database or changes nothing, and a database in which there is no graph is
not a new one. -/
theorem opening_of_openDatabase (path : String) (workspace : Workspace) :
    (∃ error, (openDatabase path).perform workspace = (.error error, workspace)) ∨
    ∃ opened : Opened, (openDatabase path).perform workspace = (.ok opened.1, opened.2) ∧
      Opening path workspace opened ∧
      ((∃ store, opened.2.store opened.1 = .ok store) ∨ opened.2 = workspace) := by
  rcases perform_openDatabase path workspace with
    ⟨ht, ho⟩ | ⟨ht, number, hn, ho⟩ | ⟨trail, hv, ho⟩ | ⟨error, ho⟩
  · refine .inr ⟨(.transient .empty, workspace), ho, ⟨fun _ => rfl, fun _ _ h => h, ?_⟩, .inr rfl⟩
    exact .inl ⟨ht, rfl⟩
  · refine .inr ⟨(.stored number, workspace), ho, ⟨fun _ => rfl, fun _ _ h => h, ?_⟩, .inr rfl⟩
    exact .inr ⟨ht, number, rfl, hn⟩
  · refine .inr ⟨workspace.createDatabase trail, ho, ⟨ofFile_createDatabase hv,
      fun _ _ => load_createDatabase hv, ?_⟩, .inl ⟨_, store_createDatabase workspace trail⟩⟩
    exact .inr ⟨hv.isStored, _, rfl, databaseNumber?_createDatabase hv⟩
  · exact .inl ⟨error, ho⟩

namespace Opening

variable {opened : Opened}

theorem ofFile_holding (h : Opening path workspace opened) (new : Store) (configPath : String) :
    Configuration.ofFile (Workspace.holding new opened).2.files configPath =
      Configuration.ofFile workspace.files configPath := by
  rw [files_holding, h.ofFile]

theorem load_holding (h : Opening path workspace opened) (new : Store) {edgesPath : String}
    {list : EdgeList} (hlist : EdgeList.load workspace.files edgesPath = .ok list) :
    EdgeList.load (Workspace.holding new opened).2.files edgesPath = .ok list := by
  rw [files_holding]
  exact h.load edgesPath list hlist

theorem holding (h : Opening path workspace opened) (new : Store) (hn : path ∉ transientPaths) :
    Opening path (Workspace.holding new opened).2 (Workspace.holding new opened) where
  ofFile _ := rfl
  load _ _ hlist := hlist
  found := by
    rcases h.found with ⟨ht, -⟩ | ⟨-, number, hnumber, hfound⟩
    · exact absurd ht hn
    · obtain ⟨database, ready⟩ := opened
      obtain rfl : database = .stored number := hnumber
      exact .inr ⟨hn, number, rfl, hfound⟩

theorem perform_openDatabase (h : Opening path workspace opened) (hn : path ∉ transientPaths) :
    (openDatabase path).perform opened.2 = (.ok opened.1, opened.2) := by
  rcases h.found with ⟨ht, -⟩ | ⟨-, number, hnumber, hfound⟩
  · exact absurd ht hn
  · rw [hnumber]
    exact perform_openDatabase_of_databaseNumber? hn hfound

end Opening

end Workspace

end CodeAtlas
