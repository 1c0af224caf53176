import CodeAtlas.Configuration
import CodeAtlas.Proofs.Json.Rereading
import CodeAtlas.Proofs.Json.Strays
import CodeAtlas.Proofs.Publication
import CodeAtlas.Proofs.Search.Counts

/-!
# Index files that are read back

A saved index is loaded with all it had but for its three real numbers, which are what the reader
makes of their texts. They come back as they were where these texts are exact; an average length
with seventeen digits need not. Objects are sorted before they are decoded, so the fields of records
come in the order of their names.
-/

namespace CodeAtlas

open Json

namespace Chunk

theorem decoder_toJson (chunk : Chunk) : decoder .value chunk.toJson.draft.sorted = .ok chunk := by
  obtain ⟨file, kind, name, source⟩ := chunk
  cases kind <;> rfl

theorem readFault_toJson (chunk : Chunk) (depth : Nat) :
    chunk.toJson.draft.readFault (depth + 2) = none := by
  refine Draft.readFault_object fun entry hm => ?_
  simp only [List.mem_cons, List.not_mem_nil, or_false] at hm
  rcases hm with rfl | rfl | rfl | rfl <;> rfl

end Chunk

namespace Search

/-! ## The model -/

namespace Parameters

theorem decoder_object {k1Draft bDraft : Draft} {k1 b : Float}
    (hk1 : Decoder.real .value k1Draft = .ok k1) (hb : Decoder.real .value bDraft = .ok b) :
    decoder .value (.object [(.ok "b", bDraft), (.ok "k1", k1Draft)] none) = .ok ⟨k1, b⟩ := by
  rw [decoder, Decoder.record_object, Decoder.recordEntries_cons rfl rfl hb,
    Decoder.recordEntries_cons rfl rfl hk1]
  rfl

theorem decoder_toJson {parameters : Parameters Float} {k1 b : Float}
    (hk1 : reread parameters.k1 = .ok k1) (hb : reread parameters.b = .ok b) :
    decoder .value parameters.toJson.draft.sorted = .ok ⟨k1, b⟩ := by
  have hsorted : parameters.toJson.draft.sorted = .object
      [(.ok "b", (Number.real parameters.b).draft), (.ok "k1", (Number.real parameters.k1).draft)]
      none := by
    have hreal : ∀ number, (Value.real number).draft.sorted = (Number.real number).draft :=
      fun number => Draft.sorted_draft (.real number)
    rw [toJson, Draft.sorted_object]
    simp only [List.map_cons, List.map_nil, hreal]
    rfl
  rw [hsorted]
  exact decoder_object (Decoder.real_draft .value _ ▸ hk1) (Decoder.real_draft .value _ ▸ hb)

theorem readFault_toJson {parameters : Parameters Float} {k1 b : Float}
    (hk1 : reread parameters.k1 = .ok k1) (hb : reread parameters.b = .ok b) (depth : Nat) :
    parameters.toJson.draft.readFault (depth + 2) = none := by
  refine Draft.readFault_object fun entry hm => ?_
  simp only [List.mem_cons, List.not_mem_nil, or_false] at hm
  rcases hm with rfl | rfl
  · exact Decoder.readFault_real hk1 _
  · exact Decoder.readFault_real hb _

end Parameters

namespace Counts

theorem decoder_toJson {counts : Counts} (h : counts.IsSorted) :
    decoder .value counts.toJson.draft.sorted = .ok counts := by
  have hdraft : counts.toJson.draft.sorted = .object (Draft.sortEntries
      ((counts.map fun entry => (entry.1, (Value.natural entry.2.toNat).draft)).map
        fun entry => (.ok entry.1, entry.2))) none := by
    rw [toJson, Draft.sorted_object, List.map_map, List.map_map]
    rfl
  have hsorted : (counts.map fun entry =>
      (entry.1, (Value.natural entry.2.toNat).draft)).Pairwise
        fun first second => first.1 < second.1 := List.pairwise_map.2 h
  have hmap : Decoder.map Decoder.word32 .value (.object (counts.map fun entry =>
      (.ok entry.1, (Value.natural entry.2.toNat).draft)) none) = .ok counts :=
    @Decoder.map_map UInt32 Decoder.word32 (fun count => (Value.natural count.toNat).draft) counts
      fun entry _ => Decoder.word32_draft .value entry.2
  rw [hdraft, Draft.sortEntries_of_pairwise hsorted, List.map_map]
  change decoder .value (.object (counts.map fun entry =>
    (.ok entry.1, (Value.natural entry.2.toNat).draft)) none) = .ok counts
  rw [decoder, hmap]
  exact congrArg Except.ok (ofEntries_of_isSorted h)

theorem readFault_toJson (counts : Counts) (depth : Nat) :
    counts.toJson.draft.readFault (depth + 2) = none := by
  refine Draft.readFault_object fun entry hm => ?_
  obtain ⟨pair, -, rfl⟩ := List.mem_map.1 hm
  exact Draft.readFault_natural (pair.2.toNat_lt.trans (by decide))

end Counts

namespace Model

/-- Counts in the order of their words, as every model has them that was built. -/
structure IsSorted (model : Model Float) : Prop where
  documentCounts : model.documentCounts.IsSorted
  termCounts : ∀ counts ∈ model.termCounts, counts.IsSorted

theorem decoder_object {averageDraft countsDraft lengthsDraft parametersDraft termsDraft : Draft}
    {model : Model Float}
    (haverage : Decoder.real .value averageDraft = .ok model.averageLength)
    (hcounts : Counts.decoder .value countsDraft = .ok model.documentCounts)
    (hlengths : Decoder.list Decoder.word32 .value lengthsDraft = .ok model.lengths)
    (hparameters : Parameters.decoder .value parametersDraft = .ok model.parameters)
    (hterms : Decoder.list Counts.decoder .value termsDraft = .ok model.termCounts) :
    decoder .value (.object [(.ok "avg_doc_len", averageDraft), (.ok "doc_freq", countsDraft),
      (.ok "doc_lengths", lengthsDraft), (.ok "params", parametersDraft),
      (.ok "term_freqs", termsDraft)] none) = .ok model := by
  rw [decoder, Decoder.record_object, Decoder.recordEntries_cons rfl rfl haverage,
    Decoder.recordEntries_cons rfl rfl hcounts, Decoder.recordEntries_cons rfl rfl hlengths,
    Decoder.recordEntries_cons rfl rfl hparameters, Decoder.recordEntries_cons rfl rfl hterms]
  rfl

def withNumbers (model : Model Float) (k1 b average : Float) : Model Float :=
  { model with parameters := ⟨k1, b⟩, averageLength := average }

theorem decoder_toJson {model : Model Float} (h : model.IsSorted) {k1 b average : Float}
    (hk1 : reread model.parameters.k1 = .ok k1) (hb : reread model.parameters.b = .ok b)
    (haverage : reread model.averageLength = .ok average) :
    decoder .value model.toJson.draft.sorted = .ok (model.withNumbers k1 b average) := by
  have hsorted : model.toJson.draft.sorted = .object
      [(.ok "avg_doc_len", (Number.real model.averageLength).draft),
        (.ok "doc_freq", model.documentCounts.toJson.draft.sorted),
        (.ok "doc_lengths",
          (Value.array (model.lengths.map fun length => .natural length.toNat)).draft.sorted),
        (.ok "params", model.parameters.toJson.draft.sorted),
        (.ok "term_freqs", (Value.array (model.termCounts.map Counts.toJson)).draft.sorted)]
      none := by
    have hreal : (Value.real model.averageLength).draft.sorted =
        (Number.real model.averageLength).draft := Draft.sorted_draft (.real model.averageLength)
    rw [toJson, Draft.sorted_object]
    simp only [List.map_cons, List.map_nil, hreal]
    rfl
  rw [hsorted]
  refine decoder_object ?_ (Counts.decoder_toJson h.documentCounts) ?_
    (Parameters.decoder_toJson hk1 hb) ?_
  · exact (Decoder.real_draft .value _).trans haverage
  · rw [Draft.sorted_array]
    refine Decoder.list_map fun length _ => ?_
    exact (congrArg (Decoder.word32 .value) (Draft.sorted_draft (.whole length.toNat))).trans
      (Decoder.word32_draft .value length)
  · rw [Draft.sorted_array]
    exact Decoder.list_map fun counts hm => Counts.decoder_toJson (h.termCounts counts hm)

theorem readFault_toJson {model : Model Float} {k1 b average : Float}
    (hk1 : reread model.parameters.k1 = .ok k1) (hb : reread model.parameters.b = .ok b)
    (haverage : reread model.averageLength = .ok average) (depth : Nat) :
    model.toJson.draft.readFault (depth + 5) = none := by
  refine @Draft.readFault_object (depth + 3) _ fun entry hm => ?_
  simp only [List.mem_cons, List.not_mem_nil, or_false] at hm
  rcases hm with rfl | rfl | rfl | rfl | rfl
  · exact Parameters.readFault_toJson hk1 hb (depth + 2)
  · exact Decoder.readFault_real haverage _
  · refine @Draft.readFault_array (depth + 2) _ fun item hm => ?_
    obtain ⟨length, -, rfl⟩ := List.mem_map.1 hm
    exact Draft.readFault_natural (length.toNat_lt.trans (by decide))
  · exact Counts.readFault_toJson _ (depth + 2)
  · refine @Draft.readFault_array (depth + 2) _ fun item hm => ?_
    obtain ⟨counts, -, rfl⟩ := List.mem_map.1 hm
    exact counts.readFault_toJson (depth + 1)

end Model

/-! ## The index -/

namespace Index

/-- What every index has that was built: a time that fits a machine word, sorted counts, and one
length and one table of counts for each chunk. -/
structure IsWellFormed (index : Index Float) : Prop where
  builtAt_lt : index.builtAt < Nat.pow 2 64
  isSorted : index.model.IsSorted
  isBalanced : index.model.isBalanced = true
  size_eq : index.model.size = index.chunks.length

theorem isWellFormed_build (parameters : Parameters Float) (root : String) (time : Nat)
    (chunks : List Chunk) : (build .float parameters root time chunks).IsWellFormed where
  builtAt_lt := Nat.mod_lt time (Nat.two_pow_pos 64)
  isSorted := by
    refine ⟨Counts.isSorted_ofWords _, fun counts hm => ?_⟩
    obtain ⟨words, -, rfl⟩ := List.mem_map.1 hm
    exact Counts.isSorted_ofWords words
  isBalanced := by simp [build, Model.ofDocuments, Model.isBalanced]
  size_eq := by simp [build, Model.ofDocuments, Model.size]

theorem decoder_object {timeDraft chunksDraft modelDraft : Draft} {index : Index Float}
    (htime : Decoder.word64 .value timeDraft = .ok index.builtAt)
    (hchunks : Decoder.list Chunk.decoder .value chunksDraft = .ok index.chunks)
    (hmodel : Model.decoder .value modelDraft = .ok index.model) :
    decoder .value (.object [(.ok "built_at_unix_ms", timeDraft), (.ok "chunks", chunksDraft),
      (.ok "format", .string (.ok format)), (.ok "model", modelDraft),
      (.ok "root", .string (.ok index.root)), (.ok "version", .number (.ok (.whole version)))]
        none) = .ok index := by
  have htext (text : String) : (Decoder.string : Decoder String) .value (.string (.ok text)) =
      .ok text := rfl
  have hversion : Decoder.word32 .value (.number (.ok (.whole version))) = .ok 1 := rfl
  rw [decoder, Decoder.record_object, Decoder.recordEntries_cons rfl rfl htime,
    Decoder.recordEntries_cons rfl rfl hchunks, Decoder.recordEntries_cons rfl rfl (htext format),
    Decoder.recordEntries_cons rfl rfl hmodel, Decoder.recordEntries_cons rfl rfl (htext index.root),
    Decoder.recordEntries_cons rfl rfl hversion]
  rfl

variable {index : Index Float}

theorem draft_sorted (index : Index Float) :
    index.toJson.draft.sorted = .object
      [(.ok "built_at_unix_ms", (Value.natural index.builtAt).draft),
        (.ok "chunks", (Value.array (index.chunks.map Chunk.toJson)).draft.sorted),
        (.ok "format", .string (.ok format)), (.ok "model", index.model.toJson.draft.sorted),
        (.ok "root", .string (.ok index.root)),
        (.ok "version", .number (.ok (.whole version)))] none := by
  have htime : (Value.natural index.builtAt).draft.sorted = (Value.natural index.builtAt).draft :=
    Draft.sorted_draft (.whole index.builtAt)
  have hversion : (Value.natural version).draft.sorted = .number (.ok (.whole version)) :=
    (Draft.sorted_draft (.whole version)).trans (Number.draft_whole (by decide))
  rw [toJson, Draft.sorted_object]
  simp only [List.map_cons, List.map_nil, htime, hversion]
  rfl

theorem headerProblem?_draft_sorted (index : Index Float) :
    headerProblem? index.toJson.draft.sorted = none := by
  rw [draft_sorted]
  rfl

theorem decoder_toJson (h : index.IsWellFormed) {k1 b average : Float}
    (hk1 : reread index.model.parameters.k1 = .ok k1) (hb : reread index.model.parameters.b = .ok b)
    (haverage : reread index.model.averageLength = .ok average) :
    decoder .value index.toJson.draft.sorted =
      .ok { index with model := index.model.withNumbers k1 b average } := by
  rw [draft_sorted]
  refine @decoder_object _ _ _ { index with model := index.model.withNumbers k1 b average } ?_ ?_
    (Model.decoder_toJson h.isSorted hk1 hb haverage)
  · exact Decoder.word64_draft .value h.builtAt_lt
  · rw [Draft.sorted_array]
    exact Decoder.list_map fun chunk _ => chunk.decoder_toJson

theorem isSound_withNumbers (h : index.IsWellFormed) {k1 b average : Float}
    (hk1 : k1.isFinite = true) (hb : b.isFinite = true) (haverage : average.isFinite = true) :
    isSound { index with model := index.model.withNumbers k1 b average } = true := by
  have hbalanced : (index.model.withNumbers k1 b average).isBalanced = true := h.isBalanced
  have hsize : (index.model.withNumbers k1 b average).size = index.chunks.length := h.size_eq
  simp only [isSound, Model.isConsistent, hbalanced, hsize, Bool.true_and, decide_true,
    Bool.and_true, Bool.and_eq_true]
  exact ⟨⟨haverage, hk1⟩, hb⟩

theorem readFault_toJson (h : index.IsWellFormed) {k1 b average : Float}
    (hk1 : reread index.model.parameters.k1 = .ok k1) (hb : reread index.model.parameters.b = .ok b)
    (haverage : reread index.model.averageLength = .ok average) :
    index.toJson.draft.readFault Document.depthLimit = none := by
  have hmodel : index.model.toJson.draft.readFault 127 = none :=
    Model.readFault_toJson hk1 hb haverage 122
  refine @Draft.readFault_object 126 _ fun entry hm => ?_
  simp only [List.mem_cons, List.not_mem_nil, or_false] at hm
  rcases hm with rfl | rfl | rfl | rfl | rfl | rfl
  · rfl
  · exact Draft.readFault_natural (by decide)
  · rfl
  · exact Draft.readFault_natural h.builtAt_lt
  · refine @Draft.readFault_array 125 _ fun item hm => ?_
    obtain ⟨chunk, -, rfl⟩ := List.mem_map.1 hm
    exact chunk.readFault_toJson 124
  · exact hmodel

theorem ofDocument_toText (h : index.IsWellFormed) {k1 b average : Float}
    (hk1 : reread index.model.parameters.k1 = .ok k1) (hb : reread index.model.parameters.b = .ok b)
    (haverage : reread index.model.averageLength = .ok average) (hk1' : k1.isFinite = true)
    (hb' : b.isFinite = true) (haverage' : average.isFinite = true) :
    ofDocument (Document.read (Input.ofText index.toText)) =
      .ok { index with model := index.model.withNumbers k1 b average } := by
  have hread : Document.read (Input.ofText index.toText) = ⟨index.toJson.draft, false⟩ :=
    index.toJson.read_print .compact
  have hwhole : Document.whole ⟨index.toJson.draft, false⟩ = .ok index.toJson.draft := by
    rw [Document.whole, readFault_toJson h hk1 hb haverage]
    rfl
  have hdecoded := decoder_toJson h hk1 hb haverage
  have hsound := isSound_withNumbers h hk1' hb' haverage'
  rw [hread, ofDocument, hwhole]
  simp only [Except.mapError, bind, Except.bind, headerProblem?_draft_sorted, hdecoded, hsound]
  rfl

end Index

/-! ## Loading a saved index -/

theorem Model.isFinite_averageLength (parameters : Parameters Float)
    (documents : List (List String)) :
    (ofDocuments .float parameters documents).averageLength.isFinite = true := by
  cases documents with
  | nil => exact Binary64.isFinite_ofNat (by decide)
  | cons document rest =>
      exact Binary64.isFinite_div (Binary64.isFinite_ofNat (totalLength _).toNat_lt)
        (Binary64.isAtLeastOne_ofNat (Nat.le_add_left 1 _))

namespace Index

variable {tree new : FileTree} {path : String} {content : Content} {index : Index Float}

structure HasFiniteNumbers (index : Index Float) : Prop where
  k1 : index.model.parameters.k1.isFinite = true
  b : index.model.parameters.b.isFinite = true
  averageLength : index.model.averageLength.isFinite = true

theorem hasFiniteNumbers_build {parameters : Parameters Float} (hk1 : parameters.k1.isFinite = true)
    (hb : parameters.b.isFinite = true) (root : String) (time : Nat) (chunks : List Chunk) :
    (build .float parameters root time chunks).HasFiniteNumbers :=
  ⟨hk1, hb, Model.isFinite_averageLength _ _⟩

/-- The real numbers of an index are read back as they were. -/
structure IsReread (index : Index Float) : Prop where
  k1 : reread index.model.parameters.k1 = .ok index.model.parameters.k1
  b : reread index.model.parameters.b = .ok index.model.parameters.b
  averageLength : reread index.model.averageLength = .ok index.model.averageLength

/-- The texts of the real numbers of an index are exact. -/
structure HasExactNumbers (index : Index Float) : Prop where
  k1 : IsExact index.model.parameters.k1
  b : IsExact index.model.parameters.b
  averageLength : IsExact index.model.averageLength

theorem HasExactNumbers.isReread (h : index.HasExactNumbers) : index.IsReread :=
  ⟨reread_of_isExact h.k1, reread_of_isExact h.b, reread_of_isExact h.averageLength⟩

theorem withNumbers_eq_iff {k1 b average : Float} :
    { index with model := index.model.withNumbers k1 b average } = index ↔
      k1 = index.model.parameters.k1 ∧ b = index.model.parameters.b ∧
        average = index.model.averageLength := by
  obtain ⟨root, builtAt, chunks, ⟨⟨k1', b'⟩, average', lengths, documentCounts, termCounts⟩⟩ := index
  simp [Model.withNumbers, and_assoc]

theorem load_of_read (h : tree.read path = .ok content) :
    load tree path =
      (ofDocument (Document.read content.input)).mapError (.indexMalformed path) := by
  rw [load, FileTree.isFile_of_read h, h]
  rfl

theorem load_of_isFile_eq_false (h : tree.isFile path = false) :
    load tree path = .error (.indexNotFound path) := by
  rw [load, h]
  rfl

theorem load_of_decode (hread : tree.read path = .ok content)
    (htext : content.decode = .ok index.toText) (h : index.IsWellFormed)
    (hfinite : index.HasFiniteNumbers) :
    ∃ k1 b average, reread index.model.parameters.k1 = .ok k1 ∧
      reread index.model.parameters.b = .ok b ∧ reread index.model.averageLength = .ok average ∧
      load tree path = .ok { index with model := index.model.withNumbers k1 b average } := by
  obtain ⟨k1, hk1, hk1'⟩ := exists_reread hfinite.k1
  obtain ⟨b, hb, hb'⟩ := exists_reread hfinite.b
  obtain ⟨average, haverage, haverage'⟩ := exists_reread hfinite.averageLength
  refine ⟨k1, b, average, hk1, hb, haverage, ?_⟩
  rw [load_of_read hread, Content.input_of_decode htext,
    ofDocument_toText h hk1 hb haverage hk1' hb' haverage']
  rfl

theorem exists_load_save (h : index.IsWellFormed) (hfinite : index.HasFiniteNumbers)
    (hsave : index.save tree path = (.ok (), new)) :
    ∃ k1 b average, reread index.model.parameters.k1 = .ok k1 ∧
      reread index.model.parameters.b = .ok b ∧ reread index.model.averageLength = .ok average ∧
      load new path = .ok { index with model := index.model.withNumbers k1 b average } := by
  have hread : new.read path = .ok (.text index.toText) := FileTree.read_publish hsave
  exact load_of_decode hread rfl h hfinite

theorem load_save_eq_iff (h : index.IsWellFormed) (hfinite : index.HasFiniteNumbers)
    (hsave : index.save tree path = (.ok (), new)) :
    load new path = .ok index ↔ index.IsReread := by
  obtain ⟨k1, b, average, hk1, hb, haverage, hload⟩ := exists_load_save h hfinite hsave
  rw [hload, Except.ok.injEq, withNumbers_eq_iff]
  constructor
  · rintro ⟨rfl, rfl, rfl⟩
    exact ⟨hk1, hb, haverage⟩
  · intro hreread
    exact ⟨Except.ok.inj (hk1.symm.trans hreread.k1), Except.ok.inj (hb.symm.trans hreread.b),
      Except.ok.inj (haverage.symm.trans hreread.averageLength)⟩

/-- An index that was built is saved wherever any text can be, and loaded with all it had but for
its real numbers, which are what the reader makes of their texts. -/
theorem load_save_build (parameters : Parameters Float) (root : String) (time : Nat)
    (chunks : List Chunk) {tree : FileTree} {path : String}
    (hk1 : parameters.k1.isFinite = true) (hb : parameters.b.isFinite = true)
    (hpath : ∃ text published, tree.publish path text = (.ok (), published)) :
    let index := build .float parameters root time chunks
    ∃ new, index.save tree path = (.ok (), new) ∧
      (∃ k1 b average, reread index.model.parameters.k1 = .ok k1 ∧
        reread index.model.parameters.b = .ok b ∧ reread index.model.averageLength = .ok average ∧
        load new path = .ok { index with model := index.model.withNumbers k1 b average }) ∧
      (load new path = .ok index ↔ index.IsReread) ∧
      (index.HasExactNumbers → load new path = .ok index) := by
  intro index
  have hindex : index.IsWellFormed := isWellFormed_build parameters root time chunks
  have hfinite : index.HasFiniteNumbers := hasFiniteNumbers_build hk1 hb root time chunks
  obtain ⟨text, published, hpublished⟩ := hpath
  obtain ⟨new, hsave⟩ := FileTree.exists_publish hpublished index.toText
  have hiff := load_save_eq_iff hindex hfinite hsave
  exact ⟨new, hsave, exists_load_save hindex hfinite hsave, hiff, fun h => hiff.2 h.isReread⟩

/-- Chunks of three words together, with quotes, line breaks and other alphabets. -/
def sampleChunks : List Chunk :=
  [⟨"ü.py", .module, "", ""⟩, ⟨"a\"b.py", .type, "Дом", "x1\n\x01"⟩]

theorem load_save_build_of_sampleChunks :
    let index := build .float ⟨1.5, 0.75⟩ "/repo" 1700000000000 sampleChunks
    (1.5 : Float).isFinite = true ∧ (0.75 : Float).isFinite = true ∧ index.HasExactNumbers ∧
      ∃ published new, FileTree.publish {} "index.json" "" = (.ok (), published) ∧
        index.save {} "index.json" = (.ok (), new) ∧ load new "index.json" = .ok index := by
  intro index
  have hk1 : (1.5 : Float).isFinite = true := by decide +kernel
  have hb : (0.75 : Float).isFinite = true := by decide +kernel
  have hexact : index.HasExactNumbers := by
    constructor
    · exact ⟨⟨false, 6755399441055744, -52⟩, by decide +kernel, by decide +kernel, by decide +kernel⟩
    · exact ⟨⟨false, 6755399441055744, -53⟩, by decide +kernel, by decide +kernel, by decide +kernel⟩
    · exact ⟨⟨false, 6755399441055744, -52⟩, by decide +kernel, by decide +kernel, by decide +kernel⟩
  have hpublish : FileTree.publish {} "index.json" "" =
      (.ok (), ⟨[(["index.json"], .file (.text ""))]⟩) := rfl
  obtain ⟨new, hsave, -, -, hload⟩ := load_save_build ⟨1.5, 0.75⟩ "/repo" 1700000000000 sampleChunks
    hk1 hb ⟨"", _, hpublish⟩
  exact ⟨hk1, hb, hexact, _, new, hpublish, hsave, hload hexact⟩

def unevenChunks : List Chunk :=
  List.replicate 9 ⟨"m.py", .module, "m", ""⟩ ++ List.replicate 2 ⟨"m.py", .module, "m", "x1"⟩

/-- The average length of thirteen words in eleven chunks comes back with another last digit, also
with the parameters of the default configuration. -/
theorem load_save_ne_of_unevenChunks :
    let index := build .float (Configuration.parameters {}) "/repo" 0 unevenChunks
    Configuration.validate {} = .ok () ∧
      ∃ new loaded, index.save {} "index.json" = (.ok (), new) ∧
        load new "index.json" = .ok loaded ∧ loaded ≠ index := by
  intro index
  have hindex : index.IsWellFormed := isWellFormed_build (Configuration.parameters {}) "/repo" 0 _
  have hfinite : index.HasFiniteNumbers :=
    hasFiniteNumbers_build (by decide +kernel) (by decide +kernel) "/repo" 0 unevenChunks
  obtain ⟨new, hsave⟩ := @FileTree.exists_publish {} _ "index.json" "" rfl index.toText
  obtain ⟨k1, b, average, -, -, -, hload⟩ := exists_load_save hindex hfinite hsave
  refine ⟨rfl, new, _, hsave, hload, fun heq => ?_⟩
  have hreread := (load_save_eq_iff hindex hfinite hsave).1 (hload.trans (congrArg Except.ok heq))
  have hread : (reread index.model.averageLength).toOption.map Decimal.Value.ofFloat =
      some (.finite ⟨false, 5322435923256042, -52⟩) := by decide +kernel
  have hbuilt : Decimal.Value.ofFloat index.model.averageLength =
      .finite ⟨false, 5322435923256041, -52⟩ := by decide +kernel
  rw [hreread.averageLength, Except.toOption, Option.map_some, hbuilt] at hread
  exact absurd hread (by decide)

end Index

end Search

end CodeAtlas
