import CodeAtlas.Proofs.Search.ChunkLists
import CodeAtlas.Proofs.Search.Validation

/-!
# Migrated lists

An index file is a chunk list itself: read as one, it gives its root and its chunks, and the rest of
it is passed over. So what was migrated can be migrated again, and with the same parameters nothing
but the time changes. An index that was not built of its chunks loses the model it was saved with.
-/

namespace CodeAtlas.Search

open Json hiding Field

/-! ## Index files as lists -/

namespace Index

variable {index : Index Float}

theorem means_name (kind : Chunk.Kind) : Legacy.Means kind.name kind := by
  cases kind with
  | function => exact .known (show ("function", .function) ∈ Legacy.kindWords by decide) (by decide)
  | type => exact .known (show ("class", .type) ∈ Legacy.kindWords by decide) (by decide)
  | module => exact .other (by decide +kernel)

theorem lists_toJson (chunks : List Chunk) : Legacy.Lists (chunks.map Chunk.toJson) chunks := by
  rw [Legacy.Lists, List.forall₂_map_left_iff]
  refine List.forall₂_same.2 fun chunk _ => ⟨_, rfl, ?_⟩
  exact ⟨⟨"file_path", rfl⟩, ⟨"source", rfl⟩, .inl ⟨_, ⟨"kind", rfl⟩, means_name chunk.kind⟩,
    .inl ⟨"name", rfl⟩⟩

theorem holds_toJson (index : Index Float) :
    Legacy.Holds index.toJson (some index.root) index.chunks :=
  .rooted ⟨"chunks", rfl⟩ (lists_toJson index.chunks) ⟨"root", rfl⟩

theorem isReadable_toJson (h : index.builtAt < Nat.pow 2 64) (levels : Nat) :
    index.toJson.IsReadable (levels + 4) := by
  have hcounts (counts : Counts) (levels : Nat) : counts.toJson.IsReadable (levels + 1) := by
    refine Value.isReadable_object fun entry hm => ?_
    obtain ⟨pair, -, rfl⟩ := List.mem_map.1 hm
    exact Value.isReadable_natural (pair.2.toNat_lt.trans (by decide))
  refine Value.isReadable_object fun entry hm => ?_
  simp only [List.mem_cons, List.not_mem_nil, or_false] at hm
  rcases hm with rfl | rfl | rfl | rfl | rfl | rfl
  · exact Value.isReadable_string _
  · exact Value.isReadable_natural (by decide)
  · exact Value.isReadable_string _
  · exact Value.isReadable_natural h
  · refine @Value.isReadable_array (levels + 2) _ fun item hm => ?_
    obtain ⟨chunk, -, rfl⟩ := List.mem_map.1 hm
    refine @Value.isReadable_object (levels + 1) _ fun entry hm => ?_
    simp only [List.mem_cons, List.not_mem_nil, or_false] at hm
    rcases hm with rfl | rfl | rfl | rfl <;> exact Value.isReadable_string _
  · refine @Value.isReadable_object (levels + 2) _ fun entry hm => ?_
    simp only [List.mem_cons, List.not_mem_nil, or_false] at hm
    rcases hm with rfl | rfl | rfl | rfl | rfl
    · refine @Value.isReadable_object (levels + 1) _ fun entry hm => ?_
      simp only [List.mem_cons, List.not_mem_nil, or_false] at hm
      rcases hm with rfl | rfl <;> exact Value.isReadable_real _
    · exact Value.isReadable_real _
    · refine @Value.isReadable_array (levels + 1) _ fun item hm => ?_
      obtain ⟨length, -, rfl⟩ := List.mem_map.1 hm
      exact Value.isReadable_natural (length.toNat_lt.trans (by decide))
    · exact hcounts _ (levels + 1)
    · refine @Value.isReadable_array (levels + 1) _ fun item hm => ?_
      obtain ⟨counts, -, rfl⟩ := List.mem_map.1 hm
      exact hcounts counts levels

/-! ## Migration -/

variable {parameters : Parameters Float} {time later : Nat} {tree new : FileTree}
variable {list path output : String}

theorem legacyLoad_save (htime : index.builtAt < Nat.pow 2 64)
    (hsave : index.save tree path = (.ok (), new)) :
    Legacy.load new path = .ok (some index.root, index.chunks) := by
  have hread : new.read path = .ok (.text index.toText) := FileTree.read_publish hsave
  have hdocument : Document.read (Input.ofText index.toText) = ⟨index.toJson.draft, false⟩ :=
    index.toJson.read_print .compact
  have hlist := Legacy.ofDocument_of_holds (holds_toJson index) (isReadable_toJson htime 123)
  rw [Legacy.load_of_read hread, Content.input, hdocument, hlist]
  rfl

theorem ofLegacy_of_load {root : Option String} {chunks : List Chunk}
    (h : Legacy.load tree path = .ok (root, chunks)) (parameters : Parameters Float) (time : Nat) :
    ofLegacy parameters time tree path =
      .ok (build .float parameters (root.getD "") time chunks) := by
  rw [ofLegacy, h]
  rfl

theorem ofLegacy_save (htime : index.builtAt < Nat.pow 2 64)
    (hsave : index.save tree path = (.ok (), new)) (parameters : Parameters Float) (later : Nat) :
    ofLegacy parameters later new path =
      .ok (build .float parameters index.root later index.chunks) :=
  ofLegacy_of_load (legacyLoad_save htime hsave) parameters later

/-- A list is migrated: an index is built of it and saved. -/
structure Migrates (parameters : Parameters Float) (time : Nat) (tree : FileTree)
    (list output : String) (index : Index Float) (new : FileTree) : Prop where
  built : ofLegacy parameters time tree list = .ok index
  saved : index.save tree output = (.ok (), new)

theorem Migrates.exists_build (h : Migrates parameters time tree list output index new) :
    ∃ root chunks, index = build .float parameters root time chunks := by
  have hbuilt := h.built
  cases hload : Legacy.load tree list with
  | error error =>
      rw [ofLegacy, hload] at hbuilt
      cases hbuilt
  | ok found =>
      rw [ofLegacy_of_load hload] at hbuilt
      exact ⟨_, _, (Except.ok.inj hbuilt).symm⟩

/-- An index built anew of its chunks, with its own parameters. -/
def rebuilt (index : Index Float) (later : Nat) : Index Float :=
  build .float index.model.parameters index.root later index.chunks

theorem rebuilt_build (root : String) (chunks : List Chunk) :
    (build .float parameters root time chunks).rebuilt later =
      { build .float parameters root time chunks with builtAt := later % Nat.pow 2 64 } := rfl

theorem rebuilt_eq_iff : index.rebuilt later = { index with builtAt := later % Nat.pow 2 64 } ↔
    index.model = Model.ofDocuments .float index.model.parameters
      (index.chunks.map fun chunk => tokens chunk.indexText) := by
  obtain ⟨root, builtAt, chunks, model⟩ := index
  simp [rebuilt, build, eq_comm]

/-- A file is migrated, to its own place or to wherever a text can be published, and comes out as an
index. -/
def ComesOutAs (parameters : Parameters Float) (time : Nat) (tree : FileTree) (path : String)
    (index : Index Float) : Prop :=
  ∀ target, (target = path ∨ ∃ text published, tree.publish target text = (.ok (), published)) →
    ∃ new, Migrates parameters time tree path target index new

theorem comesOutAs_rebuilt (htime : index.builtAt < Nat.pow 2 64)
    (hsave : index.save tree path = (.ok (), new)) (later : Nat) :
    ComesOutAs index.model.parameters later new path (index.rebuilt later) := by
  intro target htarget
  obtain ⟨newer, hnewer⟩ : ∃ newer, (index.rebuilt later).save new target = (.ok (), newer) := by
    obtain rfl | ⟨text, published, hpublished⟩ := htarget
    · exact FileTree.exists_publish_again hsave _
    · exact FileTree.exists_publish hpublished _
  exact ⟨newer, ofLegacy_save htime hsave _ later, hnewer⟩

/-- What was migrated is migrated again, and with the same parameters it comes out as it was but for
the time. A file that was written of any other index comes out with the model of its chunks, so as
it was only if that was its model. -/
theorem migrates_again :
    (∀ parameters time later tree list output (index : Index Float) new,
      Migrates parameters time tree list output index new →
        ComesOutAs parameters later new output { index with builtAt := later % Nat.pow 2 64 }) ∧
    ∀ later tree path (index : Index Float) new, index.builtAt < Nat.pow 2 64 →
      index.save tree path = (.ok (), new) →
        ComesOutAs index.model.parameters later new path (index.rebuilt later) ∧
          (index.rebuilt later = { index with builtAt := later % Nat.pow 2 64 } ↔
            index.model = Model.ofDocuments .float index.model.parameters
              (index.chunks.map fun chunk => tokens chunk.indexText)) := by
  refine ⟨?_, ?_⟩
  · intro parameters time later tree list output index new h
    obtain ⟨root, chunks, rfl⟩ := h.exists_build
    have htime : time % Nat.pow 2 64 < Nat.pow 2 64 := Nat.mod_lt time (Nat.two_pow_pos 64)
    have hcomes := comesOutAs_rebuilt htime h.saved later
    rwa [rebuilt_build] at hcomes
  · intro later tree path index new htime hsave
    exact ⟨comesOutAs_rebuilt htime hsave later, rebuilt_eq_iff⟩

theorem migrates_again_of_mixedTree :
    (∃ index new newer,
      Migrates ⟨1.5, 0.75⟩ 7 Legacy.mixedTree "chunks.json" "index.json" index new ∧
      Migrates ⟨1.5, 0.75⟩ 8 new "index.json" "index.json" { index with builtAt := 8 } newer) ∧
    ∃ saved, driftedIndex.builtAt < Nat.pow 2 64 ∧
      driftedIndex.save {} "index.json" = (.ok (), saved) ∧
      ComesOutAs driftedIndex.model.parameters 8 saved "index.json" (driftedIndex.rebuilt 8) := by
  have hload : Legacy.load Legacy.mixedTree "chunks.json" =
      .ok (some "/repo", Legacy.mixedChunks) := by
    have hwrites : Legacy.Writes (.text Legacy.mixedFile.pretty) Legacy.mixedFile :=
      .printed (.pretty 0) rfl
    have hread : Legacy.mixedTree.read "chunks.json" = .ok (.text Legacy.mixedFile.pretty) := rfl
    rw [Legacy.load_of_read hread, hwrites.read_input,
      Legacy.ofDocument_of_holds Legacy.holds_mixedFile Legacy.isReadable_mixedFile]
    rfl
  let index := build .float ⟨1.5, 0.75⟩ "/repo" 7 Legacy.mixedChunks
  obtain ⟨new, hsave⟩ :=
    @FileTree.exists_publish Legacy.mixedTree _ "index.json" "" rfl index.toText
  have hbuilt : ofLegacy ⟨1.5, 0.75⟩ 7 Legacy.mixedTree "chunks.json" = .ok index :=
    ofLegacy_of_load hload ⟨1.5, 0.75⟩ 7
  have hmigrates : Migrates ⟨1.5, 0.75⟩ 7 Legacy.mixedTree "chunks.json" "index.json" index new :=
    ⟨hbuilt, hsave⟩
  obtain ⟨newer, hnewer⟩ := migrates_again.1 _ _ 8 _ _ _ _ _ hmigrates "index.json" (.inl rfl)
  obtain ⟨saved, hsaved⟩ := @FileTree.exists_publish {} _ "index.json" "" rfl driftedIndex.toText
  have htime : driftedIndex.builtAt < Nat.pow 2 64 := by decide
  exact ⟨⟨index, new, newer, hmigrates, hnewer⟩, saved, htime, hsaved,
    (migrates_again.2 8 _ _ driftedIndex saved htime hsaved).1⟩

/-- An index that was accepted with counts of its own comes out with those of its chunks. -/
theorem migrates_driftedIndex :
    load driftedTree "index.json" = .ok driftedIndex ∧
      ∃ new newer index, driftedIndex.save {} "index.json" = (.ok (), new) ∧
        Migrates driftedIndex.model.parameters 0 new "index.json" "index.json" index newer ∧
        index.model.lengths ≠ driftedIndex.model.lengths ∧
        ∀ time, index ≠ { driftedIndex with builtAt := time } := by
  obtain ⟨new, hsave⟩ := @FileTree.exists_publish {} _ "index.json" "" rfl driftedIndex.toText
  have htime : driftedIndex.builtAt < Nat.pow 2 64 := by decide
  obtain ⟨newer, hnewer⟩ := comesOutAs_rebuilt htime hsave 0 "index.json" (.inl rfl)
  have hlengths : (driftedIndex.rebuilt 0).model.lengths ≠ driftedIndex.model.lengths := by
    decide +kernel
  refine ⟨load_driftedTree, new, newer, _, hsave, hnewer, hlengths, fun time heq => hlengths ?_⟩
  rw [heq]

end Index

end CodeAtlas.Search
