import CodeAtlas.Proofs.Search.Formula
import Mathlib.Order.Monotone.Defs
import Mathlib.Order.Interval.Set.Defs
import Mathlib.Tactic.Ring

/-!
# How scores depend on counts and lengths

In exact arithmetic a term weighs more the fewer documents hold it. What an occurrence adds to the
score of a document is less for each further one, so that the score stays below a limit, and less in
a longer document. The score for a single term is the share of this limit that is reached: a count
divided by itself and a penalty, which grows with the length. So all of this follows from how such a
share depends on its two parts.
-/

namespace CodeAtlas.Search

variable {α : Type} [Field α] [LinearOrder α] [IsStrictOrderedRing α]

/-! ## Shares -/

namespace Share

variable {count more most penalty higher : α}

theorem mono (hp : 0 ≤ penalty) (hc : 0 ≤ count) (h : count ≤ more) :
    count / (count + penalty) ≤ more / (more + penalty) := by
  rcases hc.eq_or_lt with rfl | hpos
  · rw [zero_div]
    positivity
  · rw [div_le_div_iff₀ (by linarith) (by linarith)]
    have hmul := mul_le_mul_of_nonneg_right h hp
    linarith [mul_comm count more]

theorem le_one (hp : 0 ≤ penalty) (hc : 0 ≤ count) : count / (count + penalty) ≤ 1 :=
  div_le_one_of_le₀ (by linarith) (by linarith)

omit [IsStrictOrderedRing α] in
theorem sub_eq (hc : 0 < count + penalty) (hm : 0 < more + penalty) :
    more / (more + penalty) - count / (count + penalty) =
      penalty * (more - count) / ((more + penalty) * (count + penalty)) := by
  rw [div_sub_div _ _ hm.ne' hc.ne']
  ring

/-- For each occurrence the share grows by less from a middle count to a high one than from a low one
to the middle. -/
theorem concave (hp : 0 ≤ penalty) (hc : 0 ≤ count) (hm : count < more) (hh : more < most) :
    (most / (most + penalty) - more / (more + penalty)) * (more - count) ≤
      (more / (more + penalty) - count / (count + penalty)) * (most - more) := by
  have hmore : 0 < more + penalty := by linarith
  have hmost : 0 < most + penalty := by linarith
  rcases (add_nonneg hc hp).eq_or_lt with hzero | hpos
  · -- Without a penalty the share is all there is from the first occurrence on.
    have hpenalty : penalty = 0 := by linarith
    have hcount : count = 0 := by linarith
    subst hpenalty hcount
    rw [add_zero] at hmore hmost
    simp only [add_zero, div_self hmore.ne', div_self hmost.ne', div_zero, sub_self, sub_zero,
      zero_mul, one_mul]
    linarith
  · rw [sub_eq hmore hmost, sub_eq hpos hmore, div_mul_eq_mul_div, div_mul_eq_mul_div,
      div_le_div_iff₀ (by positivity) (by positivity)]
    have hfront : 0 ≤ penalty * (most - more) * (more - count) * (more + penalty) := by
      have h1 := sub_nonneg.2 hh.le
      have h2 := sub_nonneg.2 hm.le
      positivity
    have hmul := mul_le_mul_of_nonneg_left (show count + penalty ≤ most + penalty by linarith) hfront
    linarith

theorem anti (hp : 0 ≤ penalty) (hc : 0 ≤ count) (h : penalty ≤ higher) :
    count / (count + higher) ≤ count / (count + penalty) := by
  rcases hc.eq_or_lt with rfl | hpos
  · simp
  · exact div_le_div_of_nonneg_left hc (by linarith) (by linarith)

theorem lt_of_penalty_lt (hp : 0 ≤ penalty) (hc : 0 < count) (h : penalty < higher) :
    count / (count + higher) < count / (count + penalty) :=
  div_lt_div_of_pos_left hc (by linarith) (by linarith)

end Share

namespace Model

variable {log : α → α} {parameters : Parameters α} {documents : List (List String)}
variable {model : Model α} {term other : String}

/-! ## Weights -/

theorem weight_eq_log : model.weight (.exact log) term =
    log ((model.size + 1) / ((model.documentCounts.count term).toNat + 1 / 2)) := by
  have hpos : (0 : α) < (model.documentCounts.count term).toNat + 1 / 2 := by positivity
  rw [weight_exact, div_add_one hpos.ne']
  congr 2
  ring

theorem weight_lt_weight (hlog : StrictMonoOn log (Set.Ioi 0))
    (h : model.documentCounts.count term < model.documentCounts.count other) :
    model.weight (.exact log) other < model.weight (.exact log) term := by
  have hcount : ((model.documentCounts.count term).toNat : α) <
      (model.documentCounts.count other).toNat := Nat.cast_lt.2 (UInt32.lt_iff_toNat_lt.1 h)
  rw [weight_eq_log, weight_eq_log]
  refine hlog (Set.mem_Ioi.2 (by positivity)) (Set.mem_Ioi.2 (by positivity)) ?_
  exact div_lt_div_of_pos_left (by positivity) (by positivity) (by linarith)

/-! ## Penalties -/

theorem lengthPenalty_sub (first second : UInt32) :
    model.lengthPenalty (.exact log) second - model.lengthPenalty (.exact log) first =
      model.parameters.k1 * model.parameters.b * (second.toNat - first.toNat) /
        model.divisor (.exact log) := by
  rw [lengthPenalty_exact, lengthPenalty_exact, divisor_exact]
  ring

theorem lengthPenalty_mono (h : model.parameters.IsSensible) {length longer : UInt32}
    (hl : length ≤ longer) :
    model.lengthPenalty (.exact log) length ≤ model.lengthPenalty (.exact log) longer := by
  have hlength : (length.toNat : α) ≤ longer.toNat := Nat.cast_le.2 (UInt32.le_iff_toNat_le.1 hl)
  rw [← sub_nonneg, lengthPenalty_sub]
  exact div_nonneg (mul_nonneg (mul_nonneg h.k1_nonneg h.b_nonneg) (sub_nonneg.2 hlength))
    (divisor_pos log model).le

theorem lengthPenalty_lt (hk1 : 0 < model.parameters.k1) (hb : 0 < model.parameters.b)
    {length longer : UInt32} (hl : length < longer) :
    model.lengthPenalty (.exact log) length < model.lengthPenalty (.exact log) longer := by
  have hlength : (length.toNat : α) < longer.toNat := Nat.cast_lt.2 (UInt32.lt_iff_toNat_lt.1 hl)
  rw [← sub_pos, lengthPenalty_sub]
  exact div_pos (mul_pos (mul_pos hk1 hb) (sub_pos.2 hlength)) (divisor_pos log model)

/-! ## Scores for one term -/

/-- The score of a document for one term, by its length and by how often the term occurs in it. -/
def termScore (log : α → α) (model : Model α) (term : String) (length count : UInt32) : α :=
  model.contribution (.exact log) (model.lengthPenalty (.exact log) length) term count

omit [IsStrictOrderedRing α] in
theorem termScore_eq (length count : UInt32) : model.termScore log term length count =
    model.weight (.exact log) term * (model.parameters.k1 + 1) *
      (count.toNat / (count.toNat + model.lengthPenalty (.exact log) length)) := by
  rw [termScore, contribution_exact]
  ring

theorem scores_singleton (term : String) :
    let model := ofDocuments (.exact log) parameters documents
    model.scores (.exact log) [term] = List.zipWith
      (fun length terms => model.termScore log term length (terms.count term))
      model.lengths model.termCounts := by
  intro model
  rw [scores_eq_map_score]
  change _ = List.zipWith _ (documents.map _) (documents.map _)
  rw [List.zipWith_map, List.zipWith_self]
  refine List.map_congr_left fun document _ => ?_
  rw [score_eq_sum, List.map_singleton, List.sum_singleton]
  rfl

/-- How the score for a term depends on the count of the term and on the length of the document. -/
structure HasShape (parameters : Parameters α) (weight : α) (score : UInt32 → UInt32 → α) :
    Prop where
  score_zero : ∀ length, score length 0 = 0
  score_mono : ∀ length {count more}, count ≤ more → score length count ≤ score length more
  /-- For each occurrence the score grows by less behind a count than before it. -/
  increments_anti : ∀ length {count more most : UInt32}, count < more → more < most →
    (score length most - score length more) * (more.toNat - count.toNat) ≤
      (score length more - score length count) * (most.toNat - more.toNat)
  score_le : ∀ length count, score length count ≤ weight * (parameters.k1 + 1)
  score_anti : ∀ {length longer} count, length ≤ longer → score longer count ≤ score length count
  score_lt : 0 < parameters.k1 → 0 < parameters.b → ∀ {length longer count}, length < longer →
    0 < count → score longer count < score length count

theorem hasShape_termScore (h : model.parameters.IsSensible)
    (hweight : 0 < model.weight (.exact log) term) :
    HasShape model.parameters (model.weight (.exact log) term) (model.termScore log term) := by
  have hpenalty := lengthPenalty_nonneg h log
  have hlimit : 0 < model.weight (.exact log) term * (model.parameters.k1 + 1) :=
    mul_pos hweight (by linarith [h.k1_nonneg])
  have hcount (count : UInt32) : (0 : α) ≤ count.toNat := Nat.cast_nonneg _
  refine ⟨fun length => ?_, fun length count more hm => ?_,
    fun length count more most hc hm => ?_, fun length count => ?_,
    fun {length longer} count hl => ?_, fun hk1 hb length longer count hl hc => ?_⟩
  · rw [termScore_eq]
    simp
  · rw [termScore_eq, termScore_eq]
    have hle : (count.toNat : α) ≤ more.toNat := Nat.cast_le.2 (UInt32.le_iff_toNat_le.1 hm)
    exact mul_le_mul_of_nonneg_left (Share.mono (hpenalty length) (hcount count) hle) hlimit.le
  · have hfirst : (count.toNat : α) < more.toNat := Nat.cast_lt.2 (UInt32.lt_iff_toNat_lt.1 hc)
    have hsecond : (more.toNat : α) < most.toNat := Nat.cast_lt.2 (UInt32.lt_iff_toNat_lt.1 hm)
    have hshares := Share.concave (hpenalty length) (hcount count) hfirst hsecond
    rw [termScore_eq, termScore_eq, termScore_eq, ← mul_sub, ← mul_sub, mul_assoc (_ * _),
      mul_assoc (_ * _)]
    exact mul_le_mul_of_nonneg_left hshares hlimit.le
  · rw [termScore_eq]
    exact mul_le_of_le_one_right hlimit.le (Share.le_one (hpenalty length) (hcount count))
  · rw [termScore_eq, termScore_eq]
    exact mul_le_mul_of_nonneg_left
      (Share.anti (hpenalty length) (hcount count) (lengthPenalty_mono h hl)) hlimit.le
  · rw [termScore_eq, termScore_eq]
    have hpos : (0 : α) < count.toNat := Nat.cast_pos.2 (UInt32.lt_iff_toNat_lt.1 hc)
    exact mul_lt_mul_of_pos_left
      (Share.lt_of_penalty_lt (hpenalty length) hpos (lengthPenalty_lt hk1 hb hl)) hlimit

/-- None of the numbers that scores are divided by is zero: the number of documents, where there are
any, the divisors of weights and lengths, and the divisor of a term that occurs. -/
structure DividesByNonzero (log : α → α) (model : Model α) (documents : List (List String)) :
    Prop where
  documents_ne : documents ≠ [] → (documents.length : α) ≠ 0
  holding_ne : ∀ term, ((model.documentCounts.count term).toNat : α) + 1 / 2 ≠ 0
  divisor_ne : model.divisor (.exact log) ≠ 0
  count_ne : ∀ length {count : UInt32}, 0 < count →
    (count.toNat : α) + model.lengthPenalty (.exact log) length ≠ 0

theorem dividesByNonzero (h : model.parameters.IsSensible) (documents : List (List String)) :
    DividesByNonzero log model documents where
  documents_ne hne := Nat.cast_ne_zero.2 (List.length_pos_iff.2 hne).ne'
  holding_ne term := by positivity
  divisor_ne := (divisor_pos log model).ne'
  count_ne length count hc := by
    have hpos : (0 : α) < count.toNat := Nat.cast_pos.2 (UInt32.lt_iff_toNat_lt.1 hc)
    exact (add_pos_of_pos_of_nonneg hpos (lengthPenalty_nonneg h log length)).ne'

/-- Weights are above zero and fall as more documents hold a term. For a single term, the score of
each document comes from its length and the count of the term, which a corpus that fits its machine
words records as they are. It does not fall as the count grows, but grows by less and less, up to a
limit; it does not grow with the length, and falls with it where lengths count and the term occurs.
Nothing is divided by zero. -/
theorem hasShape_of_ofDocuments (hlog : StrictMonoOn log (Set.Ioi 0)) (hone : log 1 = 0)
    (h : parameters.IsSensible) (documents : List (List String)) :
    let model := ofDocuments (.exact log) parameters documents
    (∀ term, 0 < model.weight (.exact log) term) ∧
    (∀ term other, model.documentCounts.count term < model.documentCounts.count other →
      model.weight (.exact log) other < model.weight (.exact log) term) ∧
    (∀ term, ∃ score : UInt32 → UInt32 → α,
      model.scores (.exact log) [term] = List.zipWith
        (fun length terms => score length (terms.count term)) model.lengths model.termCounts ∧
      HasShape parameters (model.weight (.exact log) term) score) ∧
    DividesByNonzero log model documents ∧
    (documents.length < Nat.pow 2 32 → tokenCount documents < Nat.pow 2 32 →
      model.Records documents) := by
  intro model
  have hpos : ∀ x, 1 < x → 0 < log x := fun x hx =>
    hone ▸ hlog (Set.mem_Ioi.2 one_pos) (Set.mem_Ioi.2 (one_pos.trans hx)) hx
  have hweight (term : String) : 0 < model.weight (.exact log) term := weight_pos hpos term
  refine ⟨hweight, fun term other hlt => weight_lt_weight hlog hlt, fun term => ?_,
    dividesByNonzero h documents, records_ofDocuments⟩
  exact ⟨_, scores_singleton term, hasShape_termScore h (hweight term)⟩

theorem hasShape_of_sampleDocuments :
    StrictMonoOn (fun x : ℚ => x - 1) (Set.Ioi 0) ∧ (1 : ℚ) - 1 = 0 ∧
    customaryParameters.IsSensible ∧
    let model := ofDocuments (.exact fun x => x - 1) customaryParameters sampleDocuments
    model.documentCounts.count "model" < model.documentCounts.count "token" ∧
    model.weight (.exact fun x => x - 1) "token" < model.weight (.exact fun x => x - 1) "model" ∧
    ∃ score : UInt32 → UInt32 → ℚ,
      model.scores (.exact fun x => x - 1) ["token"] =
        [score 4 2, score 2 0, score 0 0, score 2 1] ∧
      HasShape customaryParameters (model.weight (.exact fun x => x - 1) "token") score := by
  have hlog : StrictMonoOn (fun x : ℚ => x - 1) (Set.Ioi 0) := fun _ _ _ _ hlt =>
    sub_lt_sub_right hlt 1
  have hsensible : customaryParameters.IsSensible := by
    constructor <;> norm_num [customaryParameters]
  obtain ⟨-, hweight, hscores, -, -⟩ := hasShape_of_ofDocuments hlog (sub_self 1) hsensible
    sampleDocuments
  have hcounts : (ofDocuments (.exact fun x => x - 1) customaryParameters
      sampleDocuments).documentCounts.count "model" < (ofDocuments (.exact fun x => x - 1)
      customaryParameters sampleDocuments).documentCounts.count "token" := by decide +kernel
  obtain ⟨score, hscore, hshape⟩ := hscores "token"
  exact ⟨hlog, sub_self 1, hsensible, hcounts, hweight _ _ hcounts, score, hscore, hshape⟩

end Model

end CodeAtlas.Search
