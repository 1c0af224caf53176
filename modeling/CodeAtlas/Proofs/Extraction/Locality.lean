import CodeAtlas.Proofs.FileTree
import CodeAtlas.Proofs.Pipeline

/-!
# Files on their own

What comes of a file does not depend on what other files hold. Its references ask of them only
whether they are there, and its edges are kept apart from those of other files by their source. So a
batch is put together from its files one by one, and a file that fails takes nothing else with it.
-/

namespace CodeAtlas

/-! ## Batches -/

namespace Batch

variable {α : Type}

theorem files_ofFiles (files : List String) (work : String → Result α) :
    (ofFiles files work).files = files := by
  rw [Batch.files, ofFiles, List.map_map]
  exact List.map_id files

theorem length_results_ofFiles (files : List String) (work : String → Result α) :
    (ofFiles files work).results.length = files.countP fun file => (work file).toOption.isSome := by
  rw [results, ofFiles, List.length_filterMap_eq_countP, List.countP_map]
  rfl

theorem parsed_add_skipped (batch : Batch α) :
    batch.summary.parsed + batch.summary.skipped = batch.summary.files := by
  show batch.results.length + (batch.outcomes.length - batch.results.length) = batch.outcomes.length
  have hle : batch.results.length ≤ batch.outcomes.length := List.length_filterMap_le _ _
  omega

end Batch

namespace SourceTree

open CodeAtlas.Extraction CodeAtlas.Graph

variable {tree other : SourceTree} {convention : Convention} {file : String} {files : List String}

/-! ## Texts -/

/-- The text of a file that can be read and holds one. -/
def text? (tree : SourceTree) (file : String) : Option String :=
  (tree.read file).toOption.bind fun content => content.decode.toOption

theorem text?_eq_none_iff : tree.text? file = none ↔
    (∃ error, tree.read file = .error error) ∨
      ∃ content fault, tree.read file = .ok content ∧ content.decode = .error fault := by
  unfold text?
  cases tree.read file with
  | error error => simp [Except.toOption]
  | ok content => cases hdecode : content.decode <;> simp [Except.toOption, hdecode]

theorem extract_of_text? {text : String} (h : tree.text? file = some text)
    (convention : Convention) :
    tree.extract convention file =
      match Syntax.Outline.ofText? text with
      | some outline => .ok (Edge.dedup (edgesOf tree convention file outline))
      | none => .error (.parse file "syntax error") := by
  unfold text? at h
  cases hread : tree.read file with
  | error error => simp [hread, Except.toOption] at h
  | ok content =>
      cases hdecode : content.decode with
      | error fault => simp [hread, hdecode, Except.toOption] at h
      | ok held =>
          simp only [hread, hdecode, Except.toOption, Option.bind_some, Option.some.injEq] at h
          subst h
          have htext : textOf file content = .ok held := by rw [textOf, hdecode]
          rw [extract, hread]
          show ofContent tree convention file content = _
          rw [ofContent, htext]
          rfl

theorem isSome_text?_of_extract {edges : List Graph.Edge}
    (h : tree.extract convention file = .ok edges) : (tree.text? file).isSome := by
  rw [Option.isSome_iff_ne_none, Ne, text?_eq_none_iff]
  obtain ⟨content, hread, hcontent⟩ := extract_eq_ok_iff.1 h
  rintro (⟨error, herror⟩ | ⟨other, fault, hother, hfault⟩)
  · rw [hread] at herror
    cases herror
  · rw [hread] at hother
    cases hother
    simp [ofContent, textOf, hfault, bind, Except.bind] at hcontent

/-! ## Files that are there -/

/-- In two trees of one language the same paths from the root lead to files. -/
structure SameFiles (tree other : SourceTree) : Prop where
  language : other.language = tree.language
  hasFile : ∀ path, other.hasFile path = tree.hasFile path

namespace SameFiles

theorem fileOf?_eq (h : tree.SameFiles other) (segments : List String) :
    other.fileOf? segments = tree.fileOf? segments := by
  simp only [fileOf?, h.language, h.hasFile]

theorem resolve?_eq (h : tree.SameFiles other) (module : String) :
    other.resolve? module = tree.resolve? module :=
  h.fileOf?_eq (Resolution.segmentsOf module)

theorem resolveRelative?_eq (h : tree.SameFiles other) (file : String) (level : Nat)
    (module : Option String) :
    other.resolveRelative? file level module = tree.resolveRelative? file level module := by
  simp only [resolveRelative?, h.fileOf?_eq]

theorem linksOf_eq (h : tree.SameFiles other) (file : String) (imported : Syntax.Import) :
    linksOf other file imported = linksOf tree file imported := by
  cases imported with
  | modules names => simp only [linksOf, h.resolve?_eq]
  | members level module names =>
      cases module with
      | none => simp only [linksOf, h.resolveRelative?_eq]
      | some module => simp only [linksOf, h.resolve?_eq, h.resolveRelative?_eq]

theorem edgesOf_eq (h : tree.SameFiles other) (convention : Convention) (file : String)
    (outline : Syntax.Outline) :
    edgesOf other convention file outline = edgesOf tree convention file outline := by
  have hlinks : links other file outline = links tree file outline :=
    congrArg (outline.imports.flatMap ·) (funext (h.linksOf_eq file))
  rw [edgesOf, edgesOf, hlinks]

theorem ofContent_eq (h : tree.SameFiles other) (convention : Convention) (file : String)
    (content : Content) :
    ofContent other convention file content = ofContent tree convention file content := by
  simp only [ofContent, h.edgesOf_eq]

theorem extract_eq (h : tree.SameFiles other) (hr : other.read file = tree.read file)
    (convention : Convention) : other.extract convention file = tree.extract convention file := by
  simp only [extract, hr, h.ofContent_eq]

end SameFiles

/-! ## Contents that change -/

/-- Nothing changes from one tree to the other but what files hold, and one file is left alone. -/
structure SameBeside (tree other : SourceTree) (file : String) : Prop where
  root : other.root = tree.root
  language : other.language = tree.language
  places : tree.files.SamePlaces other.files
  read : other.read file = tree.read file

namespace SameBeside

theorem sameFiles (h : tree.SameBeside other file) : tree.SameFiles other where
  language := h.language
  hasFile path := by rw [hasFile, hasFile, h.root, h.places.isFile_eq]

theorem extract_eq (h : tree.SameBeside other file) (convention : Convention) :
    other.extract convention file = tree.extract convention file :=
  h.sameFiles.extract_eq h.read convention

end SameBeside

theorem sameFiles_put {trail : Trail} {old : Content}
    (hold : tree.files.get? trail = some (.file old)) (content : Content) :
    tree.SameFiles { tree with files := tree.files.put trail (.file content) } where
  language := rfl
  hasFile path := by rw [hasFile, hasFile, (FileTree.samePlaces_put hold content).isFile_eq]

theorem sameBeside_put {trail : Trail} {old : Content}
    (hold : tree.files.get? trail = some (.file old))
    (hne : tree.files.locate (Path.join tree.root file) ≠ .ok trail) (content : Content) :
    tree.SameBeside { tree with files := tree.files.put trail (.file content) } file := by
  have hplaces := FileTree.samePlaces_put hold content
  have hread : (tree.files.put trail (.file content)).read (Path.join tree.root file) =
      tree.files.read (Path.join tree.root file) := by
    refine hplaces.read_eq fun place hl => FileTree.get?_put_of_ne ?_ tree.files _
    rintro rfl
    exact hne hl
  exact ⟨rfl, rfl, hplaces, congrArg (Except.mapError Error.system) hread⟩

/-! ## Edges of many files -/

/-- What a batch of edges says of the files it was made of: each was worked on once, the merged
edges are those of the files one after the other, and the files that failed are counted. -/
structure Extracts (tree : SourceTree) (convention : Convention) (files : List String)
    (batch : Batch (List Edge)) : Prop where
  listed : batch.files = files
  edges : (EdgeList.merge batch.results).edges = files.flatMap (tree.emitted convention)
  total : batch.summary.files = files.length
  parsed : batch.summary.parsed =
    files.countP fun file => (tree.extract convention file).toOption.isSome
  skipped : batch.summary.parsed + batch.summary.skipped = batch.summary.files

theorem extracts_ofFiles (h : files.Nodup) :
    tree.Extracts convention files (.ofFiles files (tree.extract convention)) where
  listed := Batch.files_ofFiles files _
  edges := edges_merge_extractFiles h
  total := List.length_map _
  parsed := Batch.length_results_ofFiles files _
  skipped := Batch.parsed_add_skipped _

theorem extractFiles_of_isDirectory (h : tree.files.isDirectory tree.root = true) :
    tree.extractFiles convention files = .ok (.ofFiles files (tree.extract convention)) := by
  rw [extractFiles, checkRoot, if_pos h]
  rfl

theorem extractFiles_of_not_isDirectory (h : tree.files.isDirectory tree.root = false) :
    tree.extractFiles convention files = .error (.invalidArgument
      s!"source tree does not exist or is not a directory: {tree.root}") := by
  rw [extractFiles, checkRoot, h]
  rfl

theorem filter_emittedAll (file : String) :
    (tree.emittedAll convention files).filter (·.source = file) =
      files.flatMap fun listed => if listed = file then tree.emitted convention file else [] := by
  rw [emittedAll, List.filter_flatMap]
  refine congrArg (files.flatMap ·) (funext fun listed => ?_)
  by_cases hf : listed = file
  · subst hf
    rw [if_pos rfl]
    refine List.filter_eq_self.2 fun edge hm => ?_
    exact decide_eq_true (grounded_of_mem_emitted hm).source
  · rw [if_neg hf]
    refine List.filter_eq_nil_iff.2 fun edge hm hs => hf ?_
    exact (grounded_of_mem_emitted hm).source.symm.trans (of_decide_eq_true hs)

theorem SameBeside.filter_emittedAll_eq (h : tree.SameBeside other file) (files : List String) :
    (other.emittedAll convention files).filter (·.source = file) =
      (tree.emittedAll convention files).filter (·.source = file) := by
  have hemitted : other.emitted convention file = tree.emitted convention file := by
    rw [emitted, emitted, h.extract_eq]
  rw [filter_emittedAll, filter_emittedAll, hemitted]

/-- Different files of a tree are extracted one by one where its root is a directory, and not at all
where it is none. What comes of a file depends on the others only by their being there: it is the
same in a tree that has files at the same paths, and its edges stay as they are when the others
change. -/
theorem locality_of_extractFiles (hfiles : files.Nodup) :
    (tree.files.isDirectory tree.root = false →
      tree.extractFiles convention files = .error (.invalidArgument
        s!"source tree does not exist or is not a directory: {tree.root}")) ∧
    (tree.files.isDirectory tree.root = true →
      ∃ batch, tree.extractFiles convention files = .ok batch ∧
        tree.Extracts convention files batch ∧
        ∀ other file, tree.SameBeside other file →
          ∃ after, other.extractFiles convention files = .ok after ∧
            (EdgeList.merge after.results).edges.filter (·.source = file) =
              (EdgeList.merge batch.results).edges.filter (·.source = file)) ∧
    (∀ other file, tree.SameFiles other → other.read file = tree.read file →
      other.extract convention file = tree.extract convention file) ∧
    ∀ other file, tree.SameBeside other file →
      other.extract convention file = tree.extract convention file := by
  refine ⟨extractFiles_of_not_isDirectory, fun hroot => ?_,
    fun other file h hr => h.extract_eq hr convention, fun other file h => h.extract_eq convention⟩
  refine ⟨_, extractFiles_of_isDirectory hroot, extracts_ofFiles hfiles, fun other file h => ?_⟩
  have hother : other.files.isDirectory other.root = true := by
    rw [h.root, h.places.isDirectory_eq, hroot]
  refine ⟨_, extractFiles_of_isDirectory hother, ?_⟩
  rw [edges_merge_extractFiles hfiles, edges_merge_extractFiles hfiles]
  exact h.filter_emittedAll_eq files

/-- The tree with a file that is no text any more. -/
def brokenTree : SourceTree :=
  { sampleTree with
    files := sampleTree.files.put ["lib", "shapes.py"] (.file (.bytes [0xFF, 0x00])) }

theorem sameBeside_brokenTree : sampleTree.SameBeside brokenTree "draw.py" := by
  have hlocate : (sampleTree.files.locate (Path.join sampleTree.root "draw.py")).toOption =
      some ["lib", "draw.py"] := by decide +kernel
  have hheld : sampleTree.files.get? ["lib", "shapes.py"] = some (.file (.text "")) := by
    decide +kernel
  refine sameBeside_put hheld ?_ _
  intro hl
  rw [hl] at hlocate
  exact absurd hlocate (by decide)

theorem locality_of_brokenTree :
    ["draw.py", "shapes.py"].Nodup ∧
      (brokenTree.extract .capitalized "shapes.py").toOption = none ∧
      brokenTree.extract .capitalized "draw.py" = sampleTree.extract .capitalized "draw.py" ∧
      ∃ batch after,
        sampleTree.extractFiles .capitalized ["draw.py", "shapes.py"] = .ok batch ∧
        sampleTree.Extracts .capitalized ["draw.py", "shapes.py"] batch ∧
        brokenTree.extractFiles .capitalized ["draw.py", "shapes.py"] = .ok after ∧
        (EdgeList.merge after.results).edges.filter (·.source = "draw.py") =
          (EdgeList.merge batch.results).edges.filter (·.source = "draw.py") := by
  have hnodup : ["draw.py", "shapes.py"].Nodup := by decide
  obtain ⟨-, hdirectory, -, hextract⟩ := @locality_of_extractFiles sampleTree .capitalized _ hnodup
  obtain ⟨batch, hbatch, hextracts, hbeside⟩ := hdirectory (by decide +kernel)
  obtain ⟨after, hafter, hedges⟩ := hbeside brokenTree "draw.py" sameBeside_brokenTree
  exact ⟨hnodup, by decide +kernel, hextract brokenTree "draw.py" sameBeside_brokenTree,
    batch, after, hbatch, hextracts, hafter, hedges⟩

/-- Where the root is missing there is no batch, not even one in which every file failed. -/
theorem no_batch_of_missing_root :
    ["draw.py"].Nodup ∧
      ¬∃ batch, { sampleTree with root := "nope" }.extractFiles .capitalized ["draw.py"] =
        .ok batch ∧ { sampleTree with root := "nope" }.Extracts .capitalized ["draw.py"] batch := by
  refine ⟨by decide, fun h => ?_⟩
  obtain ⟨batch, hbatch, -⟩ := h
  rw [extractFiles_of_not_isDirectory (by decide +kernel)] at hbatch
  cases hbatch

end SourceTree

end CodeAtlas
