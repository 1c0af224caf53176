import CodeAtlas.Proofs.Json.Records
import CodeAtlas.Proofs.Json.Strays
import CodeAtlas.Proofs.Search.IndexFile
import CodeAtlas.Proofs.Search.Saturation

/-!
# What loading an index makes sure of

A file is accepted as an index if there is one length and one table of counts for each chunk and the
real numbers are finite. So every score belongs to its own chunk and none is missing. The lengths
and counts themselves are taken as they stand: they are those of the chunks in a file that was saved
of a built index, and in any other file they may be of anything.
-/

namespace CodeAtlas.Search

open Json hiding Field

/-! ## Counts -/

namespace Counts

variable {counts : Counts}

instance (counts : Counts) : Decidable counts.IsSorted :=
  inferInstanceAs (Decidable (List.Pairwise _ _))

theorem mem_insert {word : String} {count : UInt32} {entry : String × UInt32}
    (h : entry ∈ counts.insert word count) : entry = (word, count) ∨ entry ∈ counts := by
  induction counts with
  | nil => simpa [insert] using h
  | cons first rest ih =>
      rw [insert] at h
      split at h
      · simpa using h
      split at h
      · rcases List.mem_cons.1 h with rfl | h
        · exact .inl rfl
        · exact .inr (List.mem_cons_of_mem _ h)
      · rcases List.mem_cons.1 h with rfl | h
        · exact .inr List.mem_cons_self
        · exact (ih h).imp_right (List.mem_cons_of_mem _)

theorem IsSorted.insert (h : counts.IsSorted) (word : String) (count : UInt32) :
    (counts.insert word count).IsSorted := by
  induction counts with
  | nil => exact List.pairwise_singleton _ _
  | cons entry rest ih =>
      obtain ⟨hfirst, hrest⟩ := List.pairwise_cons.1 h
      rw [Counts.insert]
      split
      · next hlt =>
          refine List.pairwise_cons.2 ⟨fun later hm => ?_, h⟩
          rcases List.mem_cons.1 hm with rfl | hm
          · exact hlt
          · exact hlt.trans (hfirst later hm)
      · next hlt =>
          split
          · next heq => exact List.pairwise_cons.2 ⟨fun later hm => heq ▸ hfirst later hm, hrest⟩
          · next heq =>
              refine List.pairwise_cons.2 ⟨fun later hm => ?_, ih hrest⟩
              rcases mem_insert hm with rfl | hm
              · exact lt_of_le_of_ne (not_lt.1 hlt) (Ne.symm heq)
              · exact hfirst later hm

theorem isSorted_ofEntries (entries : List (String × UInt32)) : (ofEntries entries).IsSorted := by
  induction entries using List.reverseRecOn with
  | nil => exact List.Pairwise.nil
  | append_singleton front last ih =>
      rw [ofEntries, List.foldl_append]
      exact ih.insert last.1 last.2

theorem isSorted_of_decoder {origin : Origin} {draft : Draft}
    (h : decoder origin draft = .ok counts) : counts.IsSorted := by
  rw [decoder] at h
  cases hread : Decoder.map Decoder.word32 origin draft with
  | error error => simp [hread, bind, Except.bind] at h
  | ok entries =>
      simp only [hread, bind, Except.bind, pure, Except.pure, Except.ok.injEq] at h
      exact h ▸ isSorted_ofEntries entries

end Counts

/-! ## Models -/

namespace Model

/-- The counts that have been read so far are sorted. -/
structure Partial.IsSorted (state : Partial) : Prop where
  documentCounts : ∀ counts, state.documentCounts = some counts → counts.IsSorted
  termCounts : ∀ tables, state.termCounts = some tables → ∀ counts ∈ tables, counts.IsSorted

theorem isSorted_of_decoder {origin : Origin} {draft : Draft} {model : Model Float}
    (h : decoder origin draft = .ok model) : model.IsSorted := by
  rw [decoder] at h
  have hempty : Partial.IsSorted {} :=
    ⟨fun _ hnone => (by cases hnone), fun _ hnone => (by cases hnone)⟩
  refine Exists.elim (Decoder.exists_of_record Partial.IsSorted ?_ hempty h) ?_
  · simp only [Decoder.Keeps, List.forall_mem_cons, List.not_mem_nil, false_implies, implies_true,
      and_true]
    refine ⟨?_, ?_, ?_, ?_, ?_⟩ <;> intro origin draft state next hstate hread <;>
      obtain ⟨value, hvalue, rfl⟩ := Decoder.exists_of_make hread
    · exact ⟨hstate.documentCounts, hstate.termCounts⟩
    · exact ⟨hstate.documentCounts, hstate.termCounts⟩
    · exact ⟨hstate.documentCounts, hstate.termCounts⟩
    · refine ⟨fun counts hcounts => ?_, hstate.termCounts⟩
      exact Option.some.inj hcounts ▸ Counts.isSorted_of_decoder hvalue
    · refine ⟨hstate.documentCounts, fun tables htables counts hm => ?_⟩
      obtain ⟨inner, item, hitem⟩ :=
        Decoder.exists_of_mem_list hvalue counts (Option.some.inj htables ▸ hm)
      exact Counts.isSorted_of_decoder hitem
  · rintro ⟨parameters, averageLength, lengths, documentCounts, termCounts⟩ ⟨hstate, hfinish⟩
    cases parameters <;> cases averageLength <;> cases lengths <;> cases documentCounts <;>
      cases termCounts <;> cases hfinish
    exact ⟨hstate.documentCounts _ rfl, hstate.termCounts _ rfl⟩

end Model

/-! ## Indexes -/

namespace Index

/-- The time and the model that have been read so far are in order. -/
structure Partial.IsSorted (state : Partial) : Prop where
  builtAt : ∀ time, state.builtAt = some time → time < Nat.pow 2 64
  model : ∀ model, state.model = some model → model.IsSorted

theorem isSorted_of_decoder {origin : Origin} {draft : Draft} {index : Index Float}
    (h : decoder origin draft = .ok index) :
    index.builtAt < Nat.pow 2 64 ∧ index.model.IsSorted := by
  rw [decoder] at h
  have hempty : Partial.IsSorted {} :=
    ⟨fun _ hnone => (by cases hnone), fun _ hnone => (by cases hnone)⟩
  refine Exists.elim (Decoder.exists_of_record Partial.IsSorted ?_ hempty h) ?_
  · simp only [Decoder.Keeps, List.forall_mem_cons, List.not_mem_nil, false_implies, implies_true,
      and_true]
    refine ⟨?_, ?_, ?_, ?_, ?_, ?_⟩ <;> intro origin draft state next hstate hread <;>
      obtain ⟨value, hvalue, rfl⟩ := Decoder.exists_of_make hread
    · exact ⟨hstate.builtAt, hstate.model⟩
    · exact ⟨hstate.builtAt, hstate.model⟩
    · exact ⟨hstate.builtAt, hstate.model⟩
    · refine ⟨fun time htime => ?_, hstate.model⟩
      have hle := Decoder.natural_le hvalue
      have hlt : Nat.pow 2 64 - 1 < Nat.pow 2 64 := by decide
      exact Option.some.inj htime ▸ hle.trans_lt hlt
    · exact ⟨hstate.builtAt, hstate.model⟩
    · refine ⟨hstate.builtAt, fun model hmodel => ?_⟩
      exact Option.some.inj hmodel ▸ Model.isSorted_of_decoder hvalue
  · rintro ⟨format, version, root, builtAt, chunks, model⟩ ⟨hstate, hfinish⟩
    cases format <;> cases version <;> cases root <;> cases builtAt <;> cases chunks <;>
      cases model <;> cases hfinish
    exact ⟨hstate.builtAt _ rfl, hstate.model _ rfl⟩

variable {index : Index Float}

theorem isSound_iff : index.isSound = true ↔
    index.model.isBalanced = true ∧ index.HasFiniteNumbers ∧
      index.model.size = index.chunks.length := by
  simp only [isSound, Model.isConsistent, Bool.and_eq_true, decide_eq_true_eq]
  constructor
  · rintro ⟨⟨⟨⟨hbalanced, haverage⟩, hk1⟩, hb⟩, hsize⟩
    exact ⟨hbalanced, ⟨hk1, hb, haverage⟩, hsize⟩
  · rintro ⟨hbalanced, hfinite, hsize⟩
    exact ⟨⟨⟨⟨hbalanced, hfinite.averageLength⟩, hfinite.k1⟩, hfinite.b⟩, hsize⟩

theorem isWellFormed_of_ofDocument {document : Document} (h : ofDocument document = .ok index) :
    index.IsWellFormed ∧ index.HasFiniteNumbers := by
  rw [ofDocument] at h
  cases hwhole : document.whole with
  | error error => simp [hwhole, Except.mapError, bind, Except.bind] at h
  | ok draft =>
      simp only [hwhole, Except.mapError, bind, Except.bind] at h
      split at h
      · cases h
      cases hdecoder : decoder .value draft.sorted with
      | error error => simp [hdecoder] at h
      | ok found =>
          simp only [hdecoder] at h
          split at h
          · next hsound =>
              cases h
              obtain ⟨hbalanced, hfinite, hsize⟩ := isSound_iff.1 hsound
              obtain ⟨htime, hsorted⟩ := isSorted_of_decoder hdecoder
              exact ⟨⟨htime, hsorted, hbalanced, hsize⟩, hfinite⟩
          · cases h

theorem exists_read_of_load {tree : FileTree} {path : String} (h : load tree path = .ok index) :
    ∃ content, tree.read path = .ok content ∧
      ofDocument (Document.read content.input) = .ok index := by
  cases hfile : tree.isFile path with
  | false =>
      rw [load_of_isFile_eq_false hfile] at h
      cases h
  | true =>
      obtain ⟨content, hread⟩ := FileTree.isFile_iff_exists_read.1 hfile
      rw [load_of_read hread] at h
      cases hdocument : ofDocument (Document.read content.input) with
      | error reason =>
          rw [hdocument] at h
          cases h
      | ok found =>
          rw [hdocument] at h
          cases h
          exact ⟨content, hread, hdocument⟩

theorem load_of_isReread {tree : FileTree} {path : String} {content : Content}
    (hread : tree.read path = .ok content) (htext : content.decode = .ok index.toText)
    (h : index.IsWellFormed) (hfinite : index.HasFiniteNumbers) (hreread : index.IsReread) :
    load tree path = .ok index := by
  obtain ⟨k1, b, average, hk1, hb, haverage, hload⟩ := load_of_decode hread htext h hfinite
  obtain rfl := Except.ok.inj (hk1.symm.trans hreread.k1)
  obtain rfl := Except.ok.inj (hb.symm.trans hreread.b)
  obtain rfl := Except.ok.inj (haverage.symm.trans hreread.averageLength)
  exact hload

end Index

/-! ## Scores -/

namespace Ranking

variable {α : Type} [LT α] [DecidableLT α] {hit : Scored α}

theorem mem_of_mem_consider {best : List (Scored α)} {new : Scored α}
    (h : hit ∈ consider best new) : hit ∈ best ∨ hit = new := by
  induction best with
  | nil => exact .inr (List.mem_singleton.1 h)
  | cons leader rest ih =>
      rw [consider] at h
      split at h
      · rcases List.mem_cons.1 h with h | h
        · split at h
          · exact .inr h
          · exact .inl (h ▸ List.mem_cons_self)
        · exact .inl (List.mem_cons_of_mem _ h)
      · rcases List.mem_cons.1 h with rfl | h
        · exact .inl List.mem_cons_self
        · exact (ih h).imp_left (List.mem_cons_of_mem _)

theorem mem_of_mem_bestOfFiles {scored : List (Scored α)} (h : hit ∈ bestOfFiles scored) :
    hit ∈ scored := by
  induction scored using List.reverseRecOn with
  | nil => exact h
  | append_singleton front last ih =>
      rw [bestOfFiles_append_singleton] at h
      rw [List.mem_append, List.mem_singleton]
      exact (mem_of_mem_consider h).imp_left ih

theorem mem_of_mem_top {zero : α} {limit : Nat} {scored : List (Scored α)}
    (h : hit ∈ top zero limit scored) : hit ∈ scored := by
  have hbest := (List.mergeSort_perm _ _).mem_iff.1 (List.mem_of_mem_take h)
  exact mem_of_mem_bestOfFiles (List.mem_of_mem_filter hbest)

end Ranking

namespace Model

variable {α : Type} [Field α] [LinearOrder α] [IsStrictOrderedRing α] {log : α → α}

theorem weight_pos_iff (hlog : ∀ x, 0 < x → (0 < log x ↔ 1 < x)) (model : Model α)
    (term : String) :
    0 < model.weight (.exact log) term ↔
      (model.documentCounts.count term).toNat ≤ model.size := by
  have hpos : (0 : α) < (model.documentCounts.count term).toNat + 1 / 2 := by positivity
  rw [weight_eq_log, hlog _ (by positivity), one_lt_div hpos]
  constructor
  · intro hlt
    have hlt' : ((model.documentCounts.count term).toNat : α) < (model.size + 1 : Nat) := by
      push_cast
      linarith
    exact Nat.lt_succ_iff.1 (Nat.cast_lt.1 hlt')
  · intro hle
    have hle' : ((model.documentCounts.count term).toNat : α) ≤ model.size := Nat.cast_le.2 hle
    linarith

/-- The counts of a model with other numbers for the rest. -/
def recast (model : Model Float) (parameters : Parameters α) (averageLength : α) : Model α where
  parameters
  averageLength
  lengths := model.lengths
  documentCounts := model.documentCounts
  termCounts := model.termCounts

end Model

namespace Index

/-- A hit is a chunk with the score of its own length and its own counts. -/
def IsOwnScore (index : Index Float) (query : String) (hit : Scored Float) : Prop :=
  ∃ (position : Nat) (length : UInt32) (terms : Counts), index.chunks[position]? = some hit.chunk ∧
    index.model.lengths[position]? = some length ∧
    index.model.termCounts[position]? = some terms ∧
    hit.score = index.model.score .float
      ((tokens query).filter index.model.documentCounts.contains) length terms

theorem isOwnScore_of_mem_search {index : Index Float} (h : index.IsWellFormed) {query : String}
    {limit : Nat} {hit : Scored Float} (hm : hit ∈ index.search .float query limit) :
    index.IsOwnScore query hit := by
  rw [search] at hm
  split at hm
  · cases hm
  obtain ⟨position, hposition⟩ := List.mem_iff_getElem?.1 (Ranking.mem_of_mem_top hm)
  obtain ⟨chunk, score, hchunk, hscore, rfl⟩ := List.getElem?_zipWith_eq_some.1 hposition
  have hbalanced : index.model.termCounts.length = index.model.lengths.length := by
    simpa [Model.isBalanced] using h.isBalanced
  rw [Model.scores] at hscore
  split at hscore
  · next hnone =>
      rw [List.getElem?_map, Option.map_eq_some_iff] at hscore
      obtain ⟨length, hlength, rfl⟩ := hscore
      obtain ⟨hlt, -⟩ := List.getElem?_eq_some_iff.1 hlength
      have hterms := List.getElem?_eq_getElem (hbalanced.symm ▸ hlt)
      refine ⟨position, length, _, hchunk, hlength, hterms, ?_⟩
      rw [List.isEmpty_iff.1 hnone]
      rfl
  · obtain ⟨length, terms, hlength, hterms, rfl⟩ := List.getElem?_zipWith_eq_some.1 hscore
    exact ⟨position, length, terms, hchunk, hlength, hterms, rfl⟩

/-! ## What is made sure of -/

section

variable {α : Type} [Field α] [LinearOrder α] [IsStrictOrderedRing α] {log : α → α}

/-- What every index has that is accepted: its parts fit together, its numbers are finite, and what
is found comes with the score of its own row. A weight is above zero only if no more chunks are
counted than there are. -/
structure IsUsable (log : α → α) (index : Index Float) : Prop where
  isWellFormed : index.IsWellFormed
  hasFiniteNumbers : index.HasFiniteNumbers
  isOwnScore : ∀ query limit, ∀ hit ∈ index.search .float query limit, index.IsOwnScore query hit
  weight_pos_iff : ∀ (parameters : Parameters α) (average : α) (term : String),
    0 < (index.model.recast parameters average).weight (.exact log) term ↔
      (index.model.documentCounts.count term).toNat ≤ index.chunks.length

theorem isUsable_of_load (hlog : ∀ x, 0 < x → (0 < log x ↔ 1 < x)) {tree : FileTree}
    {path : String} {index : Index Float} (h : load tree path = .ok index) :
    index.IsUsable log := by
  obtain ⟨content, -, hdocument⟩ := exists_read_of_load h
  obtain ⟨hindex, hfinite⟩ := isWellFormed_of_ofDocument hdocument
  refine ⟨hindex, hfinite, fun _ _ _ hm => isOwnScore_of_mem_search hindex hm, ?_⟩
  intro parameters average term
  rw [Model.weight_pos_iff hlog, ← hindex.size_eq]
  rfl

theorem weight_pos_build (hlog : ∀ x, 0 < x → (0 < log x ↔ 1 < x))
    (parameters : Parameters Float) (root : String) (time : Nat) (chunks : List Chunk)
    (exact : Parameters α) (average : α) (term : String) :
    0 < ((build .float parameters root time chunks).model.recast exact average).weight (.exact log)
      term := by
  rw [Model.weight_pos_iff hlog]
  have hle := Model.count_documentCounts_le
    (chunks.map fun chunk => tokens chunk.indexText) term
  have hsize : ((build .float parameters root time chunks).model.recast exact average).size =
      (chunks.map fun chunk => tokens chunk.indexText).length := by
    simp [build, Model.recast, Model.size, Model.ofDocuments]
  rw [hsize]
  exact hle

/-- Of a file that is accepted it is made sure that its parts fit together, and no more: every index
in order is accepted of which the real numbers are read back, whatever it counts. A file that was
written of a built index is accepted with the lengths and the counts of its chunks, of which the
weights are above zero. -/
theorem statistics_of_load (hlog : ∀ x, 0 < x → (0 < log x ↔ 1 < x)) :
    (∀ tree path index, load tree path = .ok index → index.IsUsable log) ∧
    (∀ tree path content (index : Index Float), tree.read path = .ok content →
      content.decode = .ok index.toText → index.IsWellFormed → index.HasFiniteNumbers →
        index.IsReread → load tree path = .ok index) ∧
    ∀ tree path content parameters root time chunks, tree.read path = .ok content →
      let index := build .float parameters root time chunks
      content.decode = .ok index.toText → parameters.k1.isFinite = true →
        parameters.b.isFinite = true →
          (∃ k1 b average, reread index.model.parameters.k1 = .ok k1 ∧
            reread index.model.parameters.b = .ok b ∧
            reread index.model.averageLength = .ok average ∧
            load tree path = .ok { index with model := index.model.withNumbers k1 b average }) ∧
          ∀ (exact : Parameters α) (average : α) (term : String),
            0 < (index.model.recast exact average).weight (.exact log) term := by
  refine ⟨fun _ _ _ h => isUsable_of_load hlog h, fun _ _ _ _ => load_of_isReread, ?_⟩
  · intro tree path content parameters root time chunks hread index htext hk1 hb
    have hindex : index.IsWellFormed := isWellFormed_build parameters root time chunks
    have hfinite : index.HasFiniteNumbers := hasFiniteNumbers_build hk1 hb root time chunks
    exact ⟨load_of_decode hread htext hindex hfinite,
      weight_pos_build hlog parameters root time chunks⟩

end

/-! ## Counts that are not those of the chunks -/

/-- Two chunks of which the lengths and the counts have changed places, with a word that more chunks
are said to hold than there are. -/
def driftedIndex : Index Float where
  root := "/repo"
  builtAt := 0
  chunks := [⟨"a.py", .module, "", "red red"⟩, ⟨"b.py", .module, "", "blue"⟩]
  model := {
    parameters := ⟨1.5, 0.75⟩
    averageLength := 2.5
    lengths := [2, 3]
    documentCounts := [("blue", 1), ("py", 9), ("red", 1)]
    termCounts := [[("blue", 1), ("py", 1)], [("py", 1), ("red", 2)]] }

def driftedTree : FileTree := ⟨[(["index.json"], .file (.text driftedIndex.toText))]⟩

theorem isWellFormed_driftedIndex : driftedIndex.IsWellFormed :=
  ⟨by decide, ⟨by decide +kernel, by decide +kernel⟩, rfl, rfl⟩

theorem hasExactNumbers_driftedIndex : driftedIndex.HasExactNumbers where
  k1 := ⟨⟨false, 6755399441055744, -52⟩, by decide +kernel, by decide +kernel, by decide +kernel⟩
  b := ⟨⟨false, 6755399441055744, -53⟩, by decide +kernel, by decide +kernel, by decide +kernel⟩
  averageLength :=
    ⟨⟨false, 5629499534213120, -51⟩, by decide +kernel, by decide +kernel, by decide +kernel⟩

theorem hasFiniteNumbers_driftedIndex : driftedIndex.HasFiniteNumbers :=
  ⟨by decide +kernel, by decide +kernel, by decide +kernel⟩

theorem read_driftedTree : driftedTree.read "index.json" = .ok (.text driftedIndex.toText) := rfl

theorem load_driftedTree : load driftedTree "index.json" = .ok driftedIndex :=
  load_of_isReread read_driftedTree rfl isWellFormed_driftedIndex hasFiniteNumbers_driftedIndex
    hasExactNumbers_driftedIndex.isReread

/-- It is accepted although none of its counts is that of its chunks. -/
theorem counts_of_driftedIndex :
    load driftedTree "index.json" = .ok driftedIndex ∧
      (let built := build .float driftedIndex.model.parameters driftedIndex.root
        driftedIndex.builtAt driftedIndex.chunks
      driftedIndex.model.lengths ≠ built.model.lengths ∧
        driftedIndex.model.documentCounts ≠ built.model.documentCounts ∧
        driftedIndex.model.termCounts ≠ built.model.termCounts) ∧
      driftedIndex.chunks.length < (driftedIndex.model.documentCounts.count "py").toNat := by
  refine ⟨load_driftedTree, ⟨?_, ?_, ?_⟩, ?_⟩
  · decide +kernel
  · decide +kernel
  · decide +kernel
  · decide +kernel

theorem statistics_of_load_driftedTree :
    let log := fun x : ℚ => x - 1
    let built := build .float driftedIndex.model.parameters "/repo" 0 driftedIndex.chunks
    let tree : FileTree := ⟨[(["index.json"], .file (.text built.toText))]⟩
    (∀ x, 0 < x → (0 < log x ↔ 1 < x)) ∧
      load driftedTree "index.json" = .ok driftedIndex ∧ driftedIndex.IsUsable log ∧
      (∃ k1 b average, load tree "index.json" =
        .ok { built with model := built.model.withNumbers k1 b average }) ∧
      0 < (built.model.recast ⟨(3 / 2 : ℚ), 3 / 4⟩ 2).weight (.exact log) "py" := by
  intro log built tree
  have hlog : ∀ x, 0 < x → (0 < log x ↔ 1 < x) := fun x _ => sub_pos
  obtain ⟨husable, haccepted, hbuilt⟩ := statistics_of_load hlog
  have hload := haccepted _ _ _ _ read_driftedTree rfl isWellFormed_driftedIndex
    hasFiniteNumbers_driftedIndex hasExactNumbers_driftedIndex.isReread
  have hread : tree.read "index.json" = .ok (.text built.toText) := rfl
  obtain ⟨⟨k1, b, average, -, -, -, hrebuilt⟩, hpos⟩ := hbuilt _ _ _ _ _ _ _ hread rfl
    hasFiniteNumbers_driftedIndex.k1 hasFiniteNumbers_driftedIndex.b
  exact ⟨hlog, hload, husable _ _ _ hload, ⟨k1, b, average, hrebuilt⟩, hpos _ _ _⟩

end Index

end CodeAtlas.Search
