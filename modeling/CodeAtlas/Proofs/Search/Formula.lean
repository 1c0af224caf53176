import CodeAtlas.Proofs.Search.Relevance
import Mathlib.Algebra.BigOperators.Group.List.Basic
import Mathlib.Algebra.Order.BigOperators.Group.List
import Mathlib.Data.List.Dedup

/-!
# Scores from documents

The model of a corpus records what the formula asks for: how long its documents are, how often each
term occurs in them, and how many of them hold it. So scores can be computed from the documents
alone, as a sum over all terms of a query. That terms are left out which no document holds does not
show, not even in floating-point numbers: each document passes over them anyway.
-/

namespace CodeAtlas.Search

/-! ## Counts of a document -/

namespace Counts

variable {counts : Counts} {words : List String} {word : String}

theorem count_eq_of_mem {count : UInt32} (h : counts.IsSorted) (hm : (word, count) ∈ counts) :
    counts.count word = count := by
  induction counts with
  | nil => cases hm
  | cons entry rest ih =>
      obtain ⟨hfirst, hrest⟩ := List.pairwise_cons.1 h
      rw [count_cons]
      rcases List.mem_cons.1 hm with rfl | hm
      · exact if_pos rfl
      · rw [if_neg (hfirst _ hm).ne', ih hrest hm]

/-- The words of a document, each once, with the number of times it occurs there; together these
numbers are the length of the document. -/
structure AreOf (counts : Counts) (words : List String) : Prop where
  sorted : counts.IsSorted
  mem_words : ∀ word, word ∈ counts.words ↔ word ∈ words
  count_eq : ∀ word, (counts.count word).toNat = words.count word
  sum_eq : (counts.map fun entry => entry.2.toNat).sum = words.length

theorem toNat_count_ofWords (h : words.length < Nat.pow 2 32) (word : String) :
    ((ofWords words).count word).toNat = words.count word := by
  rw [count_ofWords]
  exact UInt32.toNat_ofNat_of_lt' (List.count_le_length.trans_lt h)

theorem areOf_ofWords (h : words.length < Nat.pow 2 32) : (ofWords words).AreOf words where
  sorted := isSorted_ofWords words
  mem_words _ := mem_words_ofWords
  count_eq := toNat_count_ofWords h
  sum_eq := by
    have hsorted := isSorted_ofWords words
    have hentries : (ofWords words).map (fun entry => entry.2.toNat) =
        (ofWords words).words.map fun word => words.count word := by
      rw [Counts.words, List.map_map]
      refine List.map_congr_left fun entry hm => ?_
      rw [Function.comp_apply, ← toNat_count_ofWords h, count_eq_of_mem hsorted hm]
    -- The words that are counted are those of the document without repetitions.
    have hwords : (ofWords words).words.Perm words.dedup :=
      (List.perm_ext_iff_of_nodup hsorted.nodup_words words.nodup_dedup).2 fun word => by
        rw [mem_words_ofWords, List.mem_dedup]
    rw [hentries, (hwords.map _).sum_eq, List.sum_map_count_dedup_eq_length]

end Counts

/-! ## The formula -/

def holding (documents : List (List String)) (term : String) : ℕ :=
  documents.countP fun document => term ∈ document

/-- How many tokens all documents have together. -/
def tokenCount (documents : List (List String)) : ℕ := (documents.map List.length).sum

theorem holding_le (documents : List (List String)) (term : String) :
    holding documents term ≤ documents.length := List.countP_le_length

theorem length_le_tokenCount {documents : List (List String)} {document : List String}
    (h : document ∈ documents) : document.length ≤ tokenCount documents :=
  List.le_sum_of_mem (List.mem_map.2 ⟨document, h, rfl⟩)

namespace Formula

variable {α : Type} [Field α]

def average (documents : List (List String)) : α := tokenCount documents / documents.length

def weight (log : α → α) (documents : List (List String)) (term : String) : α :=
  let holding : α := holding documents term
  let half : α := 1 / (2 : ℕ)
  log ((documents.length - holding + half) / (holding + half) + 1)

/-- What a term of a query adds to the score of a document. Lengths are measured by that of an
average document. -/
def gain (log : α → α) (parameters : Parameters α) (documents : List (List String)) (average : α)
    (document : List String) (term : String) : α :=
  let occurrences : α := document.count term
  let share := 1 - parameters.b + parameters.b * document.length / average
  weight log documents term * (occurrences * (parameters.k1 + 1)) /
    (occurrences + parameters.k1 * share)

/-- The BM25 score of a document: the sum over the terms of a query, each as often as it is there.
-/
def score (log : α → α) (parameters : Parameters α) (documents : List (List String)) (average : α)
    (query document : List String) : α :=
  (query.map (gain log parameters documents average document)).sum

theorem score_of_tokenCount_eq_zero {log : α → α} {parameters : Parameters α}
    {documents : List (List String)} {document : List String} (h : tokenCount documents = 0)
    (hm : document ∈ documents) (average : α) (query : List String) :
    score log parameters documents average query document = 0 := by
  have hlength := length_le_tokenCount hm
  have hempty : document = [] := List.length_eq_zero_iff.1 (Nat.le_zero.1 (h ▸ hlength))
  refine List.sum_eq_zero fun value hv => ?_
  obtain ⟨term, -, rfl⟩ := List.mem_map.1 hv
  simp [gain, hempty]

end Formula

namespace Model

/-! ## Terms that no document holds -/

section

variable {α : Type} [Add α] [Sub α] [Mul α] [Div α] [LT α] [DecidableLT α]
variable {scale : Scale α} {parameters : Parameters α} {documents : List (List String)}

omit [Add α] [Sub α] [Mul α] [LT α] [DecidableLT α] in
theorem contains_documentCounts_iff {term : String} :
    (ofDocuments scale parameters documents).documentCounts.contains term = true ↔
      ∃ document ∈ documents, term ∈ document := by
  simp only [ofDocuments, Counts.contains_iff, Counts.mem_words_ofWords, List.mem_flatMap,
    List.mem_map, exists_exists_and_eq_and]

theorem score_filter_contains {document : List String} (h : document ∈ documents)
    (query : List String) (length : UInt32) :
    let model := ofDocuments scale parameters documents
    model.score scale (query.filter model.documentCounts.contains) length
        (Counts.ofWords document) =
      model.score scale query length (Counts.ofWords document) := by
  intro model
  rw [score, score, List.foldl_filter]
  refine List.foldl_ext _ _ _ fun value term _ => ?_
  split
  · rfl
  · next hunknown =>
      have hterm : term ∉ document := fun hm =>
        hunknown (contains_documentCounts_iff.2 ⟨document, h, hm⟩)
      have hcount : (Counts.ofWords document).count term = 0 :=
        Counts.count_eq_zero_of_notMem fun hm => hterm (Counts.mem_words_ofWords.1 hm)
      simp only [hcount, if_true]

theorem scores_eq_map_score (query : List String) :
    let model := ofDocuments scale parameters documents
    model.scores scale query = documents.map fun document =>
      model.score scale query (UInt32.ofNat document.length) (Counts.ofWords document) := by
  intro model
  have hscored (document : List String) (hm : document ∈ documents) :=
    @score_filter_contains α _ _ _ _ _ _ scale parameters documents document hm query
      (UInt32.ofNat document.length)
  rw [scores]
  split
  · next hnone =>
      rw [List.isEmpty_iff] at hnone
      change (documents.map _).map _ = _
      rw [List.map_map]
      refine List.map_congr_left fun document hm => ?_
      rw [← hscored document hm]
      exact (congrArg (model.score scale · _ _) hnone).symm
  · change List.zipWith _ (documents.map _) (documents.map _) = _
    rw [List.zipWith_map, List.zipWith_self]
    exact List.map_congr_left hscored

end

/-! ## What is recorded of documents -/

section

variable {α : Type} [Field α] [LinearOrder α] [IsStrictOrderedRing α]
variable {log : α → α} {parameters : Parameters α} {documents : List (List String)}

/-- A model records lengths, counts and the average length of documents. -/
structure Records (model : Model α) (documents : List (List String)) : Prop where
  lengths : model.lengths.map UInt32.toNat = documents.map List.length
  termCounts : List.Forall₂ Counts.AreOf model.termCounts documents
  mem_words : ∀ term, term ∈ model.documentCounts.words ↔ 0 < holding documents term
  count_eq : ∀ term, (model.documentCounts.count term).toNat = holding documents term
  count_le : ∀ term, (model.documentCounts.count term).toNat ≤ documents.length
  average : model.averageLength * documents.length = tokenCount documents

theorem count_flatMap_words (documents : List (List String)) (term : String) :
    ((documents.map Counts.ofWords).flatMap Counts.words).count term =
      holding documents term := by
  induction documents with
  | nil => rfl
  | cons document rest ih =>
      rw [List.map_cons, List.flatMap_cons, List.count_append, ih, holding, holding,
        List.countP_cons, (Counts.isSorted_ofWords document).nodup_words.count, Nat.add_comm]
      simp [Counts.mem_words_ofWords]

omit [LinearOrder α] [IsStrictOrderedRing α] in
theorem toNat_count_documentCounts (h : documents.length < Nat.pow 2 32) (term : String) :
    ((ofDocuments (.exact log) parameters documents).documentCounts.count term).toNat =
      holding documents term := by
  rw [ofDocuments, Counts.count_ofWords, count_flatMap_words]
  exact UInt32.toNat_ofNat_of_lt' ((holding_le documents term).trans_lt h)

theorem toNat_totalLength (h : tokenCount documents < Nat.pow 2 32) :
    (totalLength documents).toNat = tokenCount documents := by
  have hsum : (documents.map List.length).foldl (· + ·) 0 = tokenCount documents :=
    List.sum_eq_foldl.symm
  rw [totalLength, hsum]
  exact UInt64.toNat_ofNat_of_lt' (h.trans (by decide))

theorem averageLength_ofDocuments (h : tokenCount documents < Nat.pow 2 32) :
    (ofDocuments (.exact log) parameters documents).averageLength =
      Formula.average documents := by
  cases documents with
  | nil => simp [ofDocuments, Scale.exact, Formula.average]
  | cons document rest => exact congrArg (fun total : ℕ => (total : α) / _) (toNat_totalLength h)

theorem records_ofDocuments (hsize : documents.length < Nat.pow 2 32)
    (htokens : tokenCount documents < Nat.pow 2 32) :
    (ofDocuments (.exact log) parameters documents).Records documents where
  lengths := by
    rw [ofDocuments, List.map_map]
    refine List.map_congr_left fun document hm => ?_
    exact UInt32.toNat_ofNat_of_lt' ((length_le_tokenCount hm).trans_lt htokens)
  termCounts := by
    rw [ofDocuments, List.forall₂_map_left_iff, List.forall₂_same]
    exact fun document hm => Counts.areOf_ofWords ((length_le_tokenCount hm).trans_lt htokens)
  mem_words term := by
    rw [← Counts.contains_iff, contains_documentCounts_iff, holding, List.countP_pos_iff]
    simp
  count_eq := toNat_count_documentCounts hsize
  count_le term := by
    rw [toNat_count_documentCounts hsize]
    exact holding_le documents term
  average := by
    rw [averageLength_ofDocuments htokens, Formula.average]
    cases documents with
    | nil => simp [tokenCount]
    | cons document rest => exact div_mul_cancel₀ _ (Nat.cast_ne_zero.2 (Nat.succ_ne_zero _))

/-! ## Exact scores -/

section

variable {model : Model α} {term : String}

omit [LinearOrder α] [IsStrictOrderedRing α] in
theorem weight_exact : model.weight (.exact log) term =
    log ((model.size - (model.documentCounts.count term).toNat + 1 / 2) /
      ((model.documentCounts.count term).toNat + 1 / 2) + 1) := by
  simp only [weight, Scale.exact, Nat.cast_one]

omit [IsStrictOrderedRing α] in
theorem divisor_exact :
    model.divisor (.exact log) = max model.averageLength (1 / 10 ^ 9) := by
  rw [divisor]
  split
  · next hlt => exact (max_eq_left hlt.le).symm
  · next hle => exact (max_eq_right (not_lt.1 hle)).symm

omit [IsStrictOrderedRing α] in
theorem lengthPenalty_exact {length : UInt32} : model.lengthPenalty (.exact log) length =
    model.parameters.k1 * (1 - model.parameters.b +
      model.parameters.b * length.toNat / max model.averageLength (1 / 10 ^ 9)) := by
  have hdivisor : model.divisor (.exact log) = max model.averageLength (1 / 10 ^ 9) :=
    divisor_exact
  rw [← hdivisor]
  simp only [lengthPenalty, Scale.exact, Nat.cast_one]

omit [LinearOrder α] [IsStrictOrderedRing α] in
theorem contribution_exact {penalty : α} {count : UInt32} :
    model.contribution (.exact log) penalty term count =
      model.weight (.exact log) term * (count.toNat * (model.parameters.k1 + 1)) /
        (count.toNat + penalty) := by
  simp only [contribution, Scale.exact, Nat.cast_one]

end

theorem score_eq_sum (model : Model α) (query : List String) (length : UInt32) (terms : Counts) :
    model.score (.exact log) query length terms =
      (query.map fun term => model.contribution (.exact log)
        (model.lengthPenalty (.exact log) length) term (terms.count term)).sum := by
  have hstep (value : α) (term : String) :
      (if terms.count term = 0 then value else value + model.contribution (.exact log)
        (model.lengthPenalty (.exact log) length) term (terms.count term)) =
      value + model.contribution (.exact log) (model.lengthPenalty (.exact log) length) term
        (terms.count term) := by
    split
    · next hcount => simp [hcount, contribution, Scale.exact]
    · rfl
  rw [List.sum_eq_foldl, List.foldl_map, score]
  simp only [hstep]
  exact congrArg (fun start => query.foldl _ start) Nat.cast_zero

theorem contribution_eq_gain (hsize : documents.length < Nat.pow 2 32)
    (htokens : tokenCount documents < Nat.pow 2 32) {document : List String}
    (hm : document ∈ documents) (term : String) :
    let model := ofDocuments (.exact log) parameters documents
    model.contribution (.exact log)
        (model.lengthPenalty (.exact log) (UInt32.ofNat document.length)) term
        ((Counts.ofWords document).count term) =
      Formula.gain log parameters documents (max (Formula.average documents) (1 / 10 ^ 9))
        document term := by
  intro model
  have hfits : document.length < Nat.pow 2 32 := (length_le_tokenCount hm).trans_lt htokens
  have hlength : (UInt32.ofNat document.length).toNat = document.length :=
    UInt32.toNat_ofNat_of_lt' hfits
  have hweight : model.weight (.exact log) term = Formula.weight log documents term := by
    have hsizes : model.size = documents.length := List.length_map _
    rw [weight_exact, toNat_count_documentCounts hsize, hsizes, Formula.weight, Nat.cast_ofNat]
  rw [contribution_exact, lengthPenalty_exact, hweight, hlength,
    Counts.toNat_count_ofWords hfits, averageLength_ofDocuments htokens]
  rfl

def sampleDocuments : List (List String) :=
  [["jwt", "token", "auth", "token"], ["user", "model"], [], ["user", "token"]]

def customaryParameters : Parameters ℚ := ⟨3 / 2, 3 / 4⟩

end

end Model

end CodeAtlas.Search
