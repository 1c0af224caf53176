import CodeAtlas.Proofs.Search.Counts
import CodeAtlas.Proofs.Search.Ranking
import CodeAtlas.Proofs.Search.Tokens
import Mathlib.Algebra.Order.Field.Basic
import Mathlib.Algebra.Order.Ring.Rat
import Mathlib.Data.List.Count
import Mathlib.Tactic.Linarith
import Mathlib.Tactic.NormNum
import Mathlib.Tactic.Positivity

/-!
# Which files a search finds

In exact arithmetic every term that occurs in a document adds to its score, and nothing else does:
weights are above zero because no term is held by more documents than there are, and divisors are
because no length counts against more than all of a document. So a search without a limit shows the
files with a chunk that holds a token of the query, and no others.
-/

namespace CodeAtlas.Search

variable {α : Type} [Field α] [LinearOrder α] [IsStrictOrderedRing α]

/-- Exact numbers, with any function for the logarithm. -/
def Scale.exact (log : α → α) : Scale α := ⟨Nat.cast, 1 / 2, 1 / 10 ^ 9, log⟩

namespace Parameters

/-- Neither occurrences nor lengths count the wrong way. -/
structure IsSensible (parameters : Parameters α) : Prop where
  k1_nonneg : 0 ≤ parameters.k1
  b_nonneg : 0 ≤ parameters.b
  b_le_one : parameters.b ≤ 1

end Parameters

namespace Model

variable {log : α → α} {parameters : Parameters α} {documents : List (List String)}

/-! ## Weights -/

theorem count_documentCounts_le (documents : List (List String)) (term : String) :
    ((Counts.ofWords ((documents.map Counts.ofWords).flatMap Counts.words)).count term).toNat ≤
      documents.length := by
  have hcount : ((documents.map Counts.ofWords).flatMap Counts.words).count term ≤
      documents.length := by
    induction documents with
    | nil => exact Nat.le_refl 0
    | cons document rest ih =>
        have hone := List.nodup_iff_count_le_one.1
          (Counts.isSorted_ofWords document).nodup_words term
        rw [List.map_cons, List.flatMap_cons, List.count_append, List.length_cons]
        omega
  rw [Counts.count_ofWords, UInt32.toNat_ofNat']
  exact (Nat.mod_le _ _).trans hcount

theorem weight_pos (hlog : ∀ x, 1 < x → 0 < log x) (term : String) :
    0 < (ofDocuments (.exact log) parameters documents).weight (.exact log) term := by
  have hle : (((Counts.ofWords ((documents.map Counts.ofWords).flatMap Counts.words)).count
      term).toNat : α) ≤ (documents.length : α) :=
    Nat.cast_le.2 (count_documentCounts_le documents term)
  refine hlog _ ?_
  simp only [Scale.exact, ofDocuments, size, List.length_map, Nat.cast_one]
  rw [lt_add_iff_pos_left]
  apply div_pos
  · linarith
  · positivity

/-! ## Divisors -/

theorem divisor_pos (log : α → α) (model : Model α) : 0 < model.divisor (.exact log) := by
  have hleast : (0 : α) < (Scale.exact log).leastAverage := by
    rw [Scale.exact]
    positivity
  rw [divisor]
  split
  · next hlt => exact hleast.trans hlt
  · exact hleast

theorem lengthPenalty_nonneg {model : Model α} (h : model.parameters.IsSensible)
    (log : α → α) (length : UInt32) : 0 ≤ model.lengthPenalty (.exact log) length := by
  have hdivisor := divisor_pos log model
  have hshare : 0 ≤ model.parameters.b * (length.toNat : α) / model.divisor (.exact log) :=
    div_nonneg (mul_nonneg h.b_nonneg (Nat.cast_nonneg _)) hdivisor.le
  have hrest : 0 ≤ 1 - model.parameters.b := sub_nonneg.2 h.b_le_one
  have hsum : 0 ≤ 1 - model.parameters.b +
      model.parameters.b * (length.toNat : α) / model.divisor (.exact log) := by
    exact add_nonneg hrest hshare
  simpa [lengthPenalty, Scale.exact] using mul_nonneg h.k1_nonneg hsum

/-! ## Scores -/

theorem contribution_pos {model : Model α} {penalty : α} {term : String} {count : UInt32}
    (h : model.parameters.IsSensible) (hweight : 0 < model.weight (.exact log) term)
    (hpenalty : 0 ≤ penalty) (hcount : count ≠ 0) :
    0 < model.contribution (.exact log) penalty term count := by
  have hnat : 0 < count.toNat := Nat.pos_of_ne_zero fun hzero =>
    hcount (UInt32.toNat_inj.1 hzero)
  have hpos : (0 : α) < (count.toNat : α) := Nat.cast_pos.2 hnat
  have hk1 : 0 < model.parameters.k1 + 1 := by linarith [h.k1_nonneg]
  have hdivisor : 0 < (count.toNat : α) + penalty := by linarith
  have hproduct := div_pos (mul_pos hweight (mul_pos hpos hk1)) hdivisor
  simpa [contribution, Scale.exact] using hproduct

theorem score_pos_iff {model : Model α} (h : model.parameters.IsSensible)
    (hweight : ∀ term, 0 < model.weight (.exact log) term) (query : List String)
    (length : UInt32) (terms : Counts) :
    0 < model.score (.exact log) query length terms ↔ ∃ term ∈ query, terms.count term ≠ 0 := by
  have hpenalty := lengthPenalty_nonneg h log length
  -- What has been scored so far stays, and every term that occurs adds to it.
  have hfold : ∀ start : α, 0 ≤ start →
      (0 < query.foldl (fun score term =>
        let count := terms.count term
        if count = 0 then score
        else score + model.contribution (.exact log) (model.lengthPenalty (.exact log) length)
          term count) start ↔
        0 < start ∨ ∃ term ∈ query, terms.count term ≠ 0) := by
    induction query with
    | nil => simp
    | cons term rest ih =>
        intro start hstart
        rw [List.foldl_cons]
        by_cases hcount : terms.count term = 0
        · simp only [hcount, if_true]
          rw [ih start hstart]
          simp [hcount]
        · have hpos := contribution_pos h (hweight term) hpenalty hcount
          simp only [hcount, if_false]
          rw [ih _ (by linarith)]
          have hterm : ∃ other ∈ term :: rest, terms.count other ≠ 0 :=
            ⟨term, List.mem_cons_self, hcount⟩
          simp only [hterm, or_true, iff_true]
          exact .inl (by linarith)
  have hzero : (Scale.exact log).ofNat 0 = (0 : α) := Nat.cast_zero
  rw [score, hzero]
  simpa using hfold 0 le_rfl

theorem count_ofWords_ne_zero_iff {document : List String} (h : document.length < Nat.pow 2 32)
    (term : String) : (Counts.ofWords document).count term ≠ 0 ↔ term ∈ document := by
  rw [Counts.count_ofWords, ← List.count_pos_iff]
  have hlt : document.count term < Nat.pow 2 32 := List.count_le_length.trans_lt h
  have hnat : (UInt32.ofNat (document.count term)).toNat = document.count term :=
    UInt32.toNat_ofNat_of_lt' hlt
  rw [Ne, ← UInt32.toNat_inj, hnat]
  exact Nat.pos_iff_ne_zero.symm

theorem scores_ofDocuments (hlog : ∀ x, 1 < x → 0 < log x) (h : parameters.IsSensible)
    (hlength : ∀ document ∈ documents, document.length < Nat.pow 2 32) (query : List String) :
    ∃ score : List String → α,
      (ofDocuments (.exact log) parameters documents).scores (.exact log) query =
        documents.map score ∧
      ∀ document ∈ documents, 0 < score document ↔ ∃ term ∈ query, term ∈ document := by
  have hknown : ∀ term, term ∈ query.filter
      (ofDocuments (.exact log) parameters documents).documentCounts.contains ↔
        term ∈ query ∧ ∃ document ∈ documents, term ∈ document := by
    intro term
    simp only [List.mem_filter, ofDocuments, Counts.contains_iff, Counts.mem_words_ofWords,
      List.mem_flatMap, List.mem_map, exists_exists_and_eq_and]
  rw [scores]
  by_cases hempty : (query.filter
      (ofDocuments (.exact log) parameters documents).documentCounts.contains).isEmpty = true
  · refine ⟨fun _ => 0, ?_, fun document hm => ?_⟩
    · simp only [if_pos hempty]
      rw [ofDocuments, List.map_map]
      exact List.map_congr_left fun _ _ => Nat.cast_zero
    · rw [List.isEmpty_iff, List.eq_nil_iff_forall_not_mem] at hempty
      refine iff_of_false (lt_irrefl 0) fun hterm => ?_
      obtain ⟨term, hq, hd⟩ := hterm
      exact hempty term ((hknown term).2 ⟨hq, document, hm, hd⟩)
  · refine ⟨fun document => (ofDocuments (.exact log) parameters documents).score (.exact log)
      (query.filter (ofDocuments (.exact log) parameters documents).documentCounts.contains)
      (UInt32.ofNat document.length) (Counts.ofWords document), ?_, fun document hm => ?_⟩
    · simp only [if_neg hempty]
      rw [ofDocuments, List.zipWith_map, List.zipWith_self]
    · rw [score_pos_iff h (fun term => weight_pos hlog term)]
      simp only [count_ofWords_ne_zero_iff (hlength document hm), hknown]
      constructor
      · rintro ⟨term, ⟨hq, -⟩, hd⟩
        exact ⟨term, hq, hd⟩
      · rintro ⟨term, hq, hd⟩
        exact ⟨term, ⟨hq, document, hm, hd⟩, hd⟩

end Model

/-! ## Files -/

namespace Ranking

omit [Field α] [IsStrictOrderedRing α] in
theorem exists_mem_ranked_iff {zero : α} {scored : List (Scored α)} {file : String} :
    (∃ best ∈ ranked zero scored, best.file = file) ↔
      ∃ member ∈ scored, member.file = file ∧ zero < member.score := by
  have hkeys : OrderedBy id scored := fun _ _ _ _ => Iff.rfl
  obtain ⟨hmem, hbest⟩ := areBest_bestOfFiles hkeys
  have hranked := (isRanking_ranked hkeys zero).mem_iff
  constructor
  · rintro ⟨best, hb, hfile⟩
    obtain ⟨hleads, hpos⟩ := (hranked best).1 hb
    exact ⟨best, hleads.mem, hfile, hpos⟩
  · rintro ⟨member, hm, hfile, hpos⟩
    obtain ⟨best, hb, hbf, hle⟩ := hbest member hm
    refine ⟨best, (hranked best).2 ⟨(hmem best).1 hb, ?_⟩, hbf.trans hfile⟩
    exact hpos.trans_le (not_lt.1 hle)

omit [Field α] [IsStrictOrderedRing α] in
theorem length_ranked_le (zero : α) (scored : List (Scored α)) :
    (ranked zero scored).length ≤ (scored.map Scored.file).eraseDups.length := by
  have hsub : (ranked zero scored).map Scored.file ⊆ (scored.map Scored.file).eraseDups := by
    intro file hm
    obtain ⟨best, hb, hfile⟩ := List.mem_map.1 hm
    obtain ⟨member, hm, hmf, -⟩ := exists_mem_ranked_iff.1 ⟨best, hb, hfile⟩
    exact List.mem_eraseDups.2 (List.mem_map.2 ⟨member, hm, hmf⟩)
  have hle := (List.subperm_of_subset (nodup_map_file_ranked zero scored) hsub).length_le
  rwa [List.length_map] at hle

omit [Field α] [IsStrictOrderedRing α] in
theorem ranked_eq_singleton {zero : α} {scored : List (Scored α)} {file : String}
    (h : ∀ other, (∃ best ∈ ranked zero scored, best.file = other) ↔ other = file) :
    ∃ best, ranked zero scored = [best] ∧ best.file = file ∧ zero < best.score := by
  have hnodup := nodup_map_file_ranked zero scored
  obtain ⟨best, hb, hfile⟩ := (h file).2 rfl
  have hmem : ∀ other, other ∈ ranked zero scored ↔ other ∈ [best] := by
    intro other
    rw [List.mem_singleton]
    constructor
    · intro ho
      have hother := (h other.file).1 ⟨other, ho, rfl⟩
      exact List.inj_on_of_nodup_map hnodup ho hb (hother.trans hfile.symm)
    · rintro rfl
      exact hb
  have hperm : (ranked zero scored).Perm [best] :=
    (List.perm_ext_iff_of_nodup (List.Nodup.of_map _ hnodup) (List.nodup_singleton best)).2 hmem
  have hkeys : OrderedBy id scored := fun _ _ _ _ => Iff.rfl
  exact ⟨best, List.perm_singleton.1 hperm, hfile,
    (((isRanking_ranked hkeys zero).mem_iff best).1 hb).2⟩

end Ranking

end CodeAtlas.Search

namespace CodeAtlas

open Search in
/-- A chunk holds a token of a query in its path, its name or its source. -/
def Chunk.Answers (query : String) (chunk : Chunk) : Prop :=
  ∃ token ∈ tokens query,
    token ∈ tokens chunk.file ∨ token ∈ tokens chunk.name ∨ token ∈ tokens chunk.source

open Search in
instance (query : String) (chunk : Chunk) : Decidable (chunk.Answers query) :=
  inferInstanceAs (Decidable (∃ token ∈ tokens query,
    token ∈ tokens chunk.file ∨ token ∈ tokens chunk.name ∨ token ∈ tokens chunk.source))

namespace Search.Index

variable {α : Type} [Field α] [LinearOrder α] [IsStrictOrderedRing α]
variable {log : α → α} {parameters : Parameters α} {root query : String} {time limit : Nat}
variable {chunks : List Chunk}

/-- What a search in exact arithmetic shows is cut from a ranking in which the chunks above zero are
those that answer the query. -/
theorem search_build_exact (hlog : ∀ x, 1 < x → 0 < log x) (h : parameters.IsSensible)
    (hlength : ∀ chunk ∈ chunks, (tokens chunk.indexText).length < Nat.pow 2 32)
    (hquery : tokens query ≠ []) :
    ∃ score : Chunk → α,
      (∀ chunk ∈ chunks, 0 < score chunk ↔ chunk.Answers query) ∧
      ∀ limit, (build (.exact log) parameters root time chunks).search (.exact log) query limit =
        (Ranking.ranked 0 (chunks.map fun chunk => ⟨chunk, score chunk⟩)).take limit := by
  have hdocuments : ∀ document ∈ chunks.map (fun chunk => tokens chunk.indexText),
      document.length < Nat.pow 2 32 := by
    simpa using hlength
  obtain ⟨score, hscores, hpos⟩ := Model.scores_ofDocuments hlog h hdocuments (tokens query)
  refine ⟨fun chunk => score (tokens chunk.indexText), fun chunk hm => ?_, fun limit => ?_⟩
  · rw [hpos _ (List.mem_map.2 ⟨chunk, hm, rfl⟩), tokens_indexText]
    simp only [Chunk.Answers, List.mem_append, or_assoc]
  · have hzero : (Scale.exact log).ofNat 0 = (0 : α) := Nat.cast_zero
    have hterms : ¬(tokens query).isEmpty = true := by simpa using hquery
    have hscored : List.zipWith Scored.mk chunks
        ((build (.exact log) parameters root time chunks).model.scores (.exact log)
          (tokens query)) =
        chunks.map fun chunk => ⟨chunk, score (tokens chunk.indexText)⟩ := by
      rw [build, hscores, List.map_map, List.zipWith_map_right, List.zipWith_self]
      rfl
    rw [search, if_neg hterms, hzero]
    exact (congrArg (Ranking.top 0 limit) hscored).trans (Ranking.top_eq_take_ranked 0 limit _)

/-- A search that may show all files shows those with a chunk that holds a token of the query. If
there is one such file it is shown alone, with a score above zero. -/
theorem exists_mem_search_iff (hlog : ∀ x, 1 < x → 0 < log x) (h : parameters.IsSensible)
    (hlength : ∀ chunk ∈ chunks, (tokens chunk.indexText).length < Nat.pow 2 32)
    (hlimit : (build (.exact log) parameters root time chunks).fileCount ≤ limit) :
    (∀ file, (∃ hit ∈ (build (.exact log) parameters root time chunks).search (.exact log) query
        limit, hit.file = file) ↔
      ∃ chunk ∈ chunks, chunk.file = file ∧ chunk.Answers query) ∧
    ∀ file, (∀ other, (∃ chunk ∈ chunks, chunk.file = other ∧ chunk.Answers query) ↔
        other = file) →
      ∃ hit, (build (.exact log) parameters root time chunks).search (.exact log) query limit =
        [hit] ∧ hit.file = file ∧ 0 < hit.score := by
  by_cases hquery : tokens query = []
  · have hno : ∀ chunk : Chunk, ¬chunk.Answers query := by simp [Chunk.Answers, hquery]
    have hsearch : (build (.exact log) parameters root time chunks).search (.exact log) query
        limit = [] := by
      rw [search, hquery]
      rfl
    rw [hsearch]
    refine ⟨fun file => by simp [hno], fun file hfile => ?_⟩
    obtain ⟨chunk, -, -, hanswers⟩ := (hfile file).2 rfl
    exact absurd hanswers (hno chunk)
  obtain ⟨score, hpos, hsearch⟩ := @search_build_exact _ _ _ _ log parameters root query time
    chunks hlog h hlength hquery
  rw [hsearch]
  -- No file is cut off.
  have hfiles : (chunks.map fun chunk => (⟨chunk, score chunk⟩ : Scored α)).map Scored.file =
      chunks.map Chunk.file := by
    rw [List.map_map]
    rfl
  have hranked := Ranking.length_ranked_le 0 (chunks.map fun chunk => ⟨chunk, score chunk⟩)
  rw [hfiles] at hranked
  rw [List.take_of_length_le (hranked.trans hlimit)]
  have hshown : ∀ file, (∃ hit ∈ Ranking.ranked 0 (chunks.map fun chunk => ⟨chunk, score chunk⟩),
      hit.file = file) ↔ ∃ chunk ∈ chunks, chunk.file = file ∧ chunk.Answers query := by
    intro file
    rw [Ranking.exists_mem_ranked_iff]
    simp only [List.mem_map, exists_exists_and_eq_and]
    refine exists_congr fun chunk => and_congr_right fun hm => ?_
    exact and_congr_right fun _ => hpos chunk hm
  refine ⟨hshown, fun file hfile => Ranking.ranked_eq_singleton fun other => ?_⟩
  rw [hshown, hfile]

/-- Two files that share a word, in three chunks. -/
def sampleParts : List Chunk :=
  [⟨"draw.py", .function, "fillCircle", "area = radius ** 2"⟩,
    ⟨"shapes.py", .type, "Circle", "radius = 1"⟩, ⟨"draw.py", .module, "draw", "import shapes"⟩]

def sampleParameters : Parameters ℚ := ⟨3 / 2, 1⟩

theorem exists_mem_search_iff_of_sampleParts :
    (∀ file, (∃ hit ∈ (build (.exact fun x => x - 1) sampleParameters "root" 0 sampleParts).search
        (.exact fun x => x - 1) "CircleRadius" 2, hit.file = file) ↔
      file = "draw.py" ∨ file = "shapes.py") ∧
    ∃ hit, (build (.exact fun x => x - 1) sampleParameters "root" 0 sampleParts).search
      (.exact fun x => x - 1) "fill colour" 2 = [hit] ∧ hit.file = "draw.py" ∧ 0 < hit.score := by
  have hlog : ∀ x : ℚ, 1 < x → 0 < x - 1 := fun x hx => sub_pos.2 hx
  have hsensible : sampleParameters.IsSensible := by
    constructor <;> norm_num [sampleParameters]
  have hlength : ∀ chunk ∈ sampleParts, (tokens chunk.indexText).length < Nat.pow 2 32 := by
    decide +kernel
  have hlimit : (build (.exact fun x => x - 1) sampleParameters "root" 0 sampleParts).fileCount ≤
      2 := by decide +kernel
  constructor
  · have hboth : ∀ chunk ∈ sampleParts, chunk.file = "draw.py" ∨ chunk.file = "shapes.py" := by
      decide +kernel
    intro file
    rw [(@exists_mem_search_iff ℚ _ _ _ _ sampleParameters "root" "CircleRadius" 0 2 sampleParts
      hlog hsensible hlength hlimit).1]
    constructor
    · rintro ⟨chunk, hm, rfl, -⟩
      exact hboth chunk hm
    · rintro (rfl | rfl)
      · exact ⟨_, List.mem_cons_self, rfl, by decide +kernel⟩
      · exact ⟨_, List.mem_cons_of_mem _ List.mem_cons_self, rfl, by decide +kernel⟩
  · have hone : ∀ chunk ∈ sampleParts, chunk.Answers "fill colour" → chunk.file = "draw.py" := by
      decide +kernel
    refine (@exists_mem_search_iff ℚ _ _ _ _ sampleParameters "root" "fill colour" 0 2 sampleParts
      hlog hsensible hlength hlimit).2 "draw.py" fun other => ⟨?_, ?_⟩
    · rintro ⟨chunk, hm, rfl, hanswers⟩
      exact hone chunk hm hanswers
    · rintro rfl
      exact ⟨_, List.mem_cons_self, rfl, by decide +kernel⟩

end Search.Index

end CodeAtlas
