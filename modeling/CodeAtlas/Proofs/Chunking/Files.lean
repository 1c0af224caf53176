import CodeAtlas.Proofs.Chunking.Text
import CodeAtlas.Proofs.Extraction.Locality
import CodeAtlas.Search.Index

/-!
# The chunks of many files

A file is chunked as soon as it has a text, so syntax errors do not take it out of a batch. Its own
chunk comes last, and no other one is of that kind. The files an index counts are therefore those
that have a text, and a file whose edges are extracted is among them.
-/

namespace CodeAtlas

open CodeAtlas.Extraction

theorem Batch.mem_outcomes_ofFiles {α : Type} {files : List String} {file : String}
    {work : String → Result α} {result : Result α} :
    (file, result) ∈ (ofFiles files work).outcomes ↔ file ∈ files ∧ work file = result := by
  simp only [ofFiles, List.mem_map, Prod.mk.injEq]
  constructor
  · rintro ⟨_, hm, rfl, h⟩
    exact ⟨hm, h⟩
  · rintro ⟨hm, h⟩
    exact ⟨file, hm, rfl, h⟩

/-! ## The chunks of one file -/

namespace Chunking

theorem exists_of_mem_ofDefinitions {file : String} {lines : List String}
    {definitions : List Syntax.Definition} {order : Nat × Chunk → Nat × Chunk → Bool}
    {chunk : Chunk}
    (h : chunk ∈ ((ofDefinitions file lines definitions).mergeSort order).map Prod.snd) :
    ∃ definition, ofDefinition? file lines definition = some chunk := by
  obtain ⟨found, hm, rfl⟩ := List.mem_map.1 h
  obtain ⟨definition, -, hfound⟩ := List.mem_filterMap.1 (List.mem_mergeSort.1 hm)
  obtain ⟨chunk, hchunk, rfl⟩ := Option.map_eq_some_iff.1 hfound
  exact ⟨definition, hchunk⟩

theorem file_of_mem_ofText {length : Nat} {file text : String} {chunk : Chunk}
    (h : chunk ∈ ofText length file text) : chunk.file = file := by
  unfold ofText at h
  split at h
  · rw [List.mem_singleton.1 h]
    rfl
  · dsimp only at h
    rcases List.mem_append.1 h with h | h
    · obtain ⟨definition, hchunk⟩ := exists_of_mem_ofDefinitions h
      unfold ofDefinition? at hchunk
      split at hchunk <;> cases hchunk
      rfl
    · rw [List.mem_singleton.1 h]
      rfl

theorem exists_ofText_eq (length : Nat) (file text : String) :
    ∃ front source, ofText length file text = front ++ [ofModule file source] ∧
      ∀ chunk ∈ front, chunk.kind ≠ .module := by
  unfold ofText
  split
  · exact ⟨[], text, rfl, by simp⟩
  · refine ⟨_, _, rfl, fun chunk hm => ?_⟩
    obtain ⟨definition, hchunk⟩ := exists_of_mem_ofDefinitions hm
    unfold ofDefinition? at hchunk
    split at hchunk <;> cases hchunk
    show kindOf definition.kind ≠ .module
    cases definition.kind <;> simp [kindOf]

theorem mem_map_file_ofText {length : Nat} {file text name : String} :
    name ∈ (ofText length file text).map Chunk.file ↔ name = file := by
  constructor
  · intro h
    obtain ⟨chunk, hm, rfl⟩ := List.mem_map.1 h
    exact file_of_mem_ofText hm
  · rintro rfl
    obtain ⟨front, source, he, -⟩ := exists_ofText_eq length name text
    rw [he]
    simp [ofModule]

end Chunking

namespace SourceTree

variable {tree : SourceTree} {convention : Convention} {length : Nat} {file : String}
  {files : List String}

/-! ## Batches of chunks -/

theorem toOption_chunks (tree : SourceTree) (length : Nat) (file : String) :
    (tree.chunks length file).toOption =
      (tree.text? file).map (Chunking.ofText length file) := by
  unfold chunks text? Chunking.ofContent textOf
  cases tree.read file with
  | error error => rfl
  | ok content =>
      cases hdecode : content.decode <;>
        simp [bind, pure, Except.bind, Except.pure, Except.toOption, hdecode]

theorem chunkFiles_of_isDirectory (h : tree.files.isDirectory tree.root = true) :
    tree.chunkFiles length files = .ok (.ofFiles files (tree.chunks length)) := by
  rw [chunkFiles, checkRoot, if_pos h]
  rfl

theorem chunkFiles_of_not_isDirectory (h : tree.files.isDirectory tree.root = false) :
    tree.chunkFiles length files = .error (.invalidArgument
      s!"source tree does not exist or is not a directory: {tree.root}") := by
  rw [chunkFiles, checkRoot, h]
  rfl

theorem results_chunks : (Batch.ofFiles files (tree.chunks length)).results =
    files.filterMap fun file => (tree.text? file).map (Chunking.ofText length file) := by
  rw [Batch.results, Batch.ofFiles, List.filterMap_map]
  simp only [← toOption_chunks]
  rfl

/-- What a batch of chunks says of the files it was made of: those that have a text are chunked, one
after the other as they are listed, and the others are counted as skipped. The last chunk of a file
is its own, and it is the only one of its kind. -/
structure Chunks (tree : SourceTree) (length : Nat) (files : List String)
    (batch : Batch (List Chunk)) : Prop where
  listed : batch.files = files
  results : batch.results =
    files.filterMap fun file => (tree.text? file).map (Chunking.ofText length file)
  skips : ∀ file ∈ files, (∃ error, (file, .error error) ∈ batch.outcomes) ↔
    (∃ error, tree.read file = .error error) ∨
      ∃ content fault, tree.read file = .ok content ∧ content.decode = .error fault
  closes : ∀ file chunks, (file, .ok chunks) ∈ batch.outcomes →
    ∃ front source, chunks = front ++ [⟨file, .module, Chunking.moduleName file, source⟩] ∧
      ∀ chunk ∈ front, chunk.file = file ∧ chunk.kind ≠ .module
  total : batch.summary.files = files.length
  parsed : batch.summary.parsed = files.countP fun file => (tree.text? file).isSome
  skipped : batch.summary.parsed + batch.summary.skipped = batch.summary.files

theorem chunks_ofFiles : tree.Chunks length files (.ofFiles files (tree.chunks length)) where
  listed := Batch.files_ofFiles files _
  results := results_chunks
  skips file hm := by
    simp only [Batch.mem_outcomes_ofFiles, hm, true_and]
    rw [← text?_eq_none_iff, ← Option.map_eq_none_iff (f := Chunking.ofText length file),
      ← toOption_chunks]
    cases tree.chunks length file <;> simp [Except.toOption]
  closes file chunks hm := by
    have hchunks := toOption_chunks tree length file
    rw [(Batch.mem_outcomes_ofFiles.1 hm).2] at hchunks
    obtain ⟨text, -, rfl⟩ := Option.map_eq_some_iff.1 hchunks.symm
    obtain ⟨front, source, he, hfront⟩ := Chunking.exists_ofText_eq length file text
    refine ⟨front, source, he, fun chunk hm => ⟨?_, hfront chunk hm⟩⟩
    have hmem : chunk ∈ Chunking.ofText length file text := by
      rw [he]
      exact List.mem_append_left _ hm
    exact Chunking.file_of_mem_ofText hmem
  total := List.length_map _
  parsed := by
    rw [Batch.summary, Batch.length_results_ofFiles]
    simp only [toOption_chunks, Option.isSome_map]
  skipped := Batch.parsed_add_skipped _

theorem mem_map_file_chunks {name : String} :
    name ∈ (Batch.ofFiles files (tree.chunks length)).results.flatten.map Chunk.file ↔
      name ∈ files.filter fun file => (tree.text? file).isSome := by
  rw [results_chunks, List.mem_filter, List.map_flatten, List.mem_flatten]
  constructor
  · rintro ⟨names, hm, hname⟩
    obtain ⟨chunks, hchunks, rfl⟩ := List.mem_map.1 hm
    obtain ⟨file, hfile, he⟩ := List.mem_filterMap.1 hchunks
    obtain ⟨text, htext, rfl⟩ := Option.map_eq_some_iff.1 he
    rw [Chunking.mem_map_file_ofText.1 hname, htext]
    exact ⟨hfile, rfl⟩
  · rintro ⟨hfile, htext⟩
    obtain ⟨text, htext⟩ := Option.isSome_iff_exists.1 htext
    refine ⟨(Chunking.ofText length name text).map Chunk.file, ?_,
      Chunking.mem_map_file_ofText.2 rfl⟩
    refine List.mem_map.2 ⟨_, List.mem_filterMap.2 ⟨name, hfile, ?_⟩, rfl⟩
    rw [htext]
    rfl

theorem fileCount_build {α : Type} [Add α] [Sub α] [Mul α] [Div α] (hfiles : files.Nodup)
    (scale : Search.Scale α) (parameters : Search.Parameters α) (root : String) (time : Nat) :
    (Search.Index.build scale parameters root time
      (Batch.ofFiles files (tree.chunks length)).results.flatten).fileCount =
      files.countP fun file => (tree.text? file).isSome := by
  rw [Search.Index.fileCount, Search.Index.build, List.countP_eq_length_filter]
  apply List.Perm.length_eq
  rw [List.perm_ext_iff_of_nodup (Graph.Store.nodup_eraseDups _) (hfiles.filter _)]
  intro name
  rw [List.mem_eraseDups, mem_map_file_chunks]

/-- Different files of a tree are chunked one by one where its root is a directory, and not at all
where it is none. An index of the chunks counts the files that were parsed, and these are at least
those whose edges are extracted. -/
theorem chunks_of_chunkFiles (hfiles : files.Nodup) :
    (tree.files.isDirectory tree.root = false →
      tree.chunkFiles length files = .error (.invalidArgument
        s!"source tree does not exist or is not a directory: {tree.root}")) ∧
    (tree.files.isDirectory tree.root = true →
      ∃ batch, tree.chunkFiles length files = .ok batch ∧ tree.Chunks length files batch ∧
        (∀ (α : Type) [Add α] [Sub α] [Mul α] [Div α] (scale : Search.Scale α)
          (parameters : Search.Parameters α) (root : String) (time : Nat),
          (Search.Index.build scale parameters root time batch.results.flatten).fileCount =
            batch.summary.parsed) ∧
        ∀ convention, ∃ extracted, tree.extractFiles convention files = .ok extracted ∧
          extracted.files = files ∧
          ∀ file edges, (file, .ok edges) ∈ extracted.outcomes →
            ∃ chunks, (file, .ok chunks) ∈ batch.outcomes) := by
  refine ⟨chunkFiles_of_not_isDirectory, fun hroot => ?_⟩
  refine ⟨_, chunkFiles_of_isDirectory hroot, chunks_ofFiles, ?_, fun convention => ?_⟩
  · intro α _ _ _ _ scale parameters root time
    rw [fileCount_build hfiles, chunks_ofFiles.parsed]
  · refine ⟨_, extractFiles_of_isDirectory hroot, Batch.files_ofFiles _ _, fun file edges hm => ?_⟩
    obtain ⟨hfile, hedges⟩ := Batch.mem_outcomes_ofFiles.1 hm
    obtain ⟨text, htext⟩ := Option.isSome_iff_exists.1 (isSome_text?_of_extract hedges)
    have hchunks := toOption_chunks tree length file
    rw [htext] at hchunks
    exact ⟨_, Batch.mem_outcomes_ofFiles.2 ⟨hfile, eq_ok_of_toOption hchunks⟩⟩

/-- A tree with a source, a text that is none, and a file that is no text. -/
def mixedTree : SourceTree :=
  { sampleTree with
    files := ⟨[(["lib"], .directory), (["lib", "good.py"], .file (.text "def f(): pass\n")),
      (["lib", "broken.py"], .file (.text "def f(:\n")),
      (["lib", "latin.py"], .file (.bytes [0x23, 0xE9, 0x0A]))]⟩ }

theorem chunks_of_mixedTree :
    ["broken.py", "latin.py", "missing.py", "good.py"].Nodup ∧
      ∃ batch extracted,
        mixedTree.chunkFiles 4 ["broken.py", "latin.py", "missing.py", "good.py"] = .ok batch ∧
        batch.results.flatten =
          [⟨"broken.py", .module, "broken", "def f(:\n"⟩,
            ⟨"good.py", .function, "f", "def f(): pass"⟩, ⟨"good.py", .module, "good", "def "⟩] ∧
        batch.summary.parsed = 2 ∧ batch.summary.skipped = 2 ∧
        (Search.Index.build Search.Scale.float ⟨1.5, 0.75⟩ "lib" 0
          batch.results.flatten).fileCount = 2 ∧
        mixedTree.extractFiles .capitalized ["broken.py", "latin.py", "missing.py", "good.py"] =
          .ok extracted ∧
        ∀ file edges, (file, .ok edges) ∈ extracted.outcomes →
          ∃ chunks, (file, .ok chunks) ∈ batch.outcomes := by
  have hnodup : ["broken.py", "latin.py", "missing.py", "good.py"].Nodup := by decide
  obtain ⟨-, hdirectory⟩ := @chunks_of_chunkFiles mixedTree 4 _ hnodup
  obtain ⟨batch, hbatch, hchunks, hcount, hextracted⟩ := hdirectory (by decide +kernel)
  obtain ⟨extracted, hextract, -, hamong⟩ := hextracted .capitalized
  have hflat : batch.results.flatten =
      [⟨"broken.py", .module, "broken", "def f(:\n"⟩,
        ⟨"good.py", .function, "f", "def f(): pass"⟩, ⟨"good.py", .module, "good", "def "⟩] := by
    rw [hchunks.results]
    decide +kernel
  have hparsed : batch.summary.parsed = 2 := by
    rw [hchunks.parsed]
    decide +kernel
  have hskipped := hchunks.skipped
  rw [hparsed, hchunks.total] at hskipped
  exact ⟨hnodup, batch, extracted, hbatch, hflat, hparsed, Nat.add_left_cancel hskipped,
    (hcount _ _ _ _ _).trans hparsed, hextract, hamong⟩

/-- Where the root is missing no file is skipped: there is no batch to count it in. -/
theorem no_chunks_of_missing_root :
    ["draw.py"].Nodup ∧ ∀ length,
      ¬∃ batch, { sampleTree with root := "nope" }.chunkFiles length ["draw.py"] = .ok batch := by
  refine ⟨by decide, fun length h => ?_⟩
  obtain ⟨batch, hbatch⟩ := h
  rw [chunkFiles_of_not_isDirectory (by decide +kernel)] at hbatch
  cases hbatch

end SourceTree

end CodeAtlas
