import CodeAtlas.Proofs.Binary64.Order
import CodeAtlas.Proofs.Sorting
import CodeAtlas.Search.Index
import Mathlib.Data.List.Induction
import Mathlib.Data.List.Nodup

/-!
# What a search shows

The best chunk of each file, in one pass over the chunks, is the first of those of the file that no
other one beats. A search shows those with a score above zero by falling scores, equal ones in the
order in which their files first appear: this ranking is determined by the chunks and their scores,
and a limit cuts it short.
-/

namespace CodeAtlas.Search

namespace Ranking

variable {α : Type} [LT α]

/-- A chunk leads its file: it is better than those of the file before it, and none behind it is
better. -/
def Leads (scored : List (Scored α)) (best : Scored α) : Prop :=
  ∃ front back, scored = front ++ best :: back ∧
    (∀ other ∈ front, other.file = best.file → other.score < best.score) ∧
    ∀ other ∈ back, other.file = best.file → ¬best.score < other.score

/-- A better chunk comes first, and of two that are equally good the one whose file appears first.
-/
def Precedes (scored : List (Scored α)) (first second : Scored α) : Prop :=
  second.score < first.score ∨ ¬first.score < second.score ∧
    (scored.map Scored.file).idxOf first.file < (scored.map Scored.file).idxOf second.file

/-- The leaders with a score above zero, all of them and in their order. -/
structure IsRanking (zero : α) (scored ranking : List (Scored α)) : Prop where
  mem_iff : ∀ best, best ∈ ranking ↔ Leads scored best ∧ zero < best.score
  ordered : ranking.Pairwise (Precedes scored)

/-! ## Leaders -/

theorem leads_append_singleton {scored : List (Scored α)} {new best : Scored α} :
    Leads (scored ++ [new]) best ↔
      (Leads scored best ∧ (best.file = new.file → ¬best.score < new.score)) ∨
        (best = new ∧ ∀ other ∈ scored, other.file = new.file → other.score < new.score) := by
  constructor
  · intro h
    obtain ⟨front, back, heq, hfront, hback⟩ := h
    rcases List.eq_nil_or_concat back with rfl | ⟨back, last, rfl⟩
    · obtain ⟨rfl, hnew⟩ := List.append_inj' heq rfl
      obtain rfl : new = best := by simpa using hnew
      exact .inr ⟨rfl, hfront⟩
    · rw [List.concat_eq_append, ← List.cons_append, ← List.append_assoc] at heq
      obtain ⟨rfl, hnew⟩ := List.append_inj' heq rfl
      obtain rfl : new = last := by simpa using hnew
      refine .inl ⟨⟨front, back, rfl, hfront, fun other hm => hback other (by simp [hm])⟩, ?_⟩
      exact fun hfile => hback new (by simp) hfile.symm
  · intro h
    rcases h with ⟨⟨front, back, rfl, hfront, hback⟩, hnew⟩ | ⟨rfl, hfront⟩
    · refine ⟨front, back ++ [new], by simp, hfront, fun other hm hfile => ?_⟩
      rcases List.mem_append.1 hm with hm | hm
      · exact hback other hm hfile
      · obtain rfl := List.mem_singleton.1 hm
        exact hnew hfile.symm
    · exact ⟨scored, [], rfl, hfront, fun _ hm => absurd hm List.not_mem_nil⟩

theorem Leads.mem {scored : List (Scored α)} {best : Scored α} (h : Leads scored best) :
    best ∈ scored := by
  obtain ⟨front, back, rfl, -, -⟩ := h
  simp

variable [DecidableLT α]

theorem map_file_consider (best : List (Scored α)) (new : Scored α) :
    (consider best new).map Scored.file =
      if new.file ∈ best.map Scored.file then best.map Scored.file
      else best.map Scored.file ++ [new.file] := by
  induction best with
  | nil => rfl
  | cons leader rest ih =>
      rw [consider]
      by_cases hfile : leader.file = new.file
      · have hm : new.file ∈ (leader :: rest).map Scored.file := by simp [hfile]
        rw [if_pos hfile, if_pos hm]
        split <;> simp [hfile]
      · have hm : new.file ∈ (leader :: rest).map Scored.file ↔ new.file ∈ rest.map Scored.file := by
          simp [Ne.symm hfile]
        rw [if_neg hfile, List.map_cons, ih]
        simp only [hm]
        split <;> rfl

theorem mem_consider {best : List (Scored α)} (h : (best.map Scored.file).Nodup)
    {new other : Scored α} :
    other ∈ consider best new ↔
      (other ∈ best ∧ (other.file = new.file → ¬other.score < new.score)) ∨
        (other = new ∧ ∀ leader ∈ best, leader.file = new.file → leader.score < new.score) := by
  induction best with
  | nil => simp [consider]
  | cons leader rest ih =>
      rw [List.map_cons, List.nodup_cons] at h
      rw [consider]
      by_cases hfile : leader.file = new.file
      · -- No other leader is of this file, so the rest stays as it is.
        have hrest : ∀ member ∈ rest, member.file ≠ new.file := by
          intro member hm heq
          exact h.1 (List.mem_map.2 ⟨member, hm, heq.trans hfile.symm⟩)
        rw [if_pos hfile]
        by_cases hlt : leader.score < new.score
        · rw [if_pos hlt]
          grind
        · rw [if_neg hlt]
          grind
      · rw [if_neg hfile, List.mem_cons, ih h.2]
        grind

theorem bestOfFiles_append_singleton (scored : List (Scored α)) (new : Scored α) :
    bestOfFiles (scored ++ [new]) = consider (bestOfFiles scored) new := by
  rw [bestOfFiles, List.foldl_append]
  rfl

theorem map_file_bestOfFiles (scored : List (Scored α)) :
    (∀ file, file ∈ (bestOfFiles scored).map Scored.file ↔ file ∈ scored.map Scored.file) ∧
      ((bestOfFiles scored).map Scored.file).Pairwise fun first second =>
        (scored.map Scored.file).idxOf first < (scored.map Scored.file).idxOf second := by
  induction scored using List.reverseRecOn with
  | nil => exact ⟨fun _ => Iff.rfl, List.Pairwise.nil⟩
  | append_singleton scored new ih =>
      obtain ⟨hmem, hpair⟩ := ih
      have hidx : ∀ {file}, file ∈ (bestOfFiles scored).map Scored.file →
          ((scored ++ [new]).map Scored.file).idxOf file =
            (scored.map Scored.file).idxOf file := by
        intro file hm
        rw [List.map_append, List.idxOf_append_of_mem ((hmem file).1 hm)]
      have hpair' : ((bestOfFiles scored).map Scored.file).Pairwise fun first second =>
          ((scored ++ [new]).map Scored.file).idxOf first <
            ((scored ++ [new]).map Scored.file).idxOf second := by
        refine hpair.imp_of_mem fun {first second} hf hs hlt => ?_
        rwa [hidx hf, hidx hs]
      rw [bestOfFiles_append_singleton, map_file_consider]
      by_cases hnew : new.file ∈ (bestOfFiles scored).map Scored.file
      · rw [if_pos hnew]
        refine ⟨fun file => ?_, hpair'⟩
        rw [hmem, List.map_append, List.mem_append]
        have := (hmem new.file).1 hnew
        grind
      · rw [if_neg hnew]
        refine ⟨fun file => by simp [← hmem], ?_⟩
        rw [List.pairwise_append]
        refine ⟨hpair', List.pairwise_singleton _ _, fun file hf other ho => ?_⟩
        obtain rfl := List.mem_singleton.1 ho
        rw [hidx hf, List.map_append,
          List.idxOf_append_of_notMem fun h => hnew ((hmem new.file).2 h)]
        have := List.idxOf_lt_length_iff.2 ((hmem file).1 hf)
        omega

theorem nodup_map_file_bestOfFiles (scored : List (Scored α)) :
    ((bestOfFiles scored).map Scored.file).Nodup :=
  (map_file_bestOfFiles scored).2.imp fun {first second} hlt heq => by
    rw [heq] at hlt
    exact Nat.lt_irrefl _ hlt

/-! ## Scores with keys -/

section

variable {κ : Type} [LinearOrder κ] {key : α → κ} {scored : List (Scored α)}

def OrderedBy (key : α → κ) (scored : List (Scored α)) : Prop :=
  ∀ first ∈ scored, ∀ second ∈ scored,
    first.score < second.score ↔ key first.score < key second.score

omit [DecidableLT α] in
theorem OrderedBy.of_append {front back : List (Scored α)} (h : OrderedBy key (front ++ back)) :
    OrderedBy key front := fun first hf second hs =>
  h first (List.mem_append_left _ hf) second (List.mem_append_left _ hs)

omit [DecidableLT α] in
theorem OrderedBy.lt_of_not_lt (h : OrderedBy key scored) {best other new : Scored α}
    (hb : best ∈ scored) (ho : other ∈ scored) (hn : new ∈ scored)
    (hle : ¬best.score < other.score) (hlt : best.score < new.score) :
    other.score < new.score := by
  rw [h best hb other ho, not_lt] at hle
  rw [h best hb new hn] at hlt
  rw [h other ho new hn]
  exact hle.trans_lt hlt

omit [DecidableLT α] in
theorem OrderedBy.asymm (h : OrderedBy key scored) {first second : Scored α}
    (hf : first ∈ scored) (hs : second ∈ scored) (hlt : first.score < second.score) :
    ¬second.score < first.score := by
  rw [h first hf second hs] at hlt
  rw [h second hs first hf]
  exact hlt.asymm

/-- The best chunks of files: those that lead them, and each file has one that no other one of it
beats. -/
structure AreBest (scored bests : List (Scored α)) : Prop where
  mem_iff : ∀ best, best ∈ bests ↔ Leads scored best
  exists_best : ∀ other ∈ scored, ∃ best, best ∈ bests ∧ best.file = other.file ∧
    ¬best.score < other.score

namespace AreBest

variable {bests : List (Scored α)} {new : Scored α}

omit [DecidableLT α] in
theorem mem (hbests : AreBest scored bests) {best : Scored α} (hb : best ∈ bests) :
    best ∈ scored := ((hbests.mem_iff best).1 hb).mem

omit [DecidableLT α] in
theorem forall_lt_iff (hbests : AreBest scored bests) (h : OrderedBy key (scored ++ [new])) :
    (∀ leader ∈ bests, leader.file = new.file → leader.score < new.score) ↔
      ∀ other ∈ scored, other.file = new.file → other.score < new.score := by
  constructor
  · intro hlt other hm hfile
    obtain ⟨best, hb, hbf, hle⟩ := hbests.exists_best other hm
    exact h.lt_of_not_lt (by simp [hbests.mem hb]) (by simp [hm]) (by simp) hle
      (hlt best hb (hbf.trans hfile))
  · intro hlt leader hm
    exact hlt leader (hbests.mem hm)

theorem consider (hbests : AreBest scored bests) (hnodup : (bests.map Scored.file).Nodup)
    (h : OrderedBy key (scored ++ [new])) :
    AreBest (scored ++ [new]) (Ranking.consider bests new) := by
  refine ⟨fun best => ?_, fun other hm => ?_⟩
  · rw [mem_consider hnodup, leads_append_singleton, hbests.mem_iff, hbests.forall_lt_iff h]
  rcases List.mem_append.1 hm with hm | hm
  · obtain ⟨best, hb, hbf, hle⟩ := hbests.exists_best other hm
    by_cases hbeaten : best.file = new.file ∧ best.score < new.score
    · -- The new chunk takes the place of the only one of its file.
      have hplace : ∀ leader ∈ bests, leader.file = new.file → leader.score < new.score := by
        intro leader hl hlf
        rw [List.inj_on_of_nodup_map hnodup hl hb (hlf.trans hbeaten.1.symm)]
        exact hbeaten.2
      have hlt : other.score < new.score :=
        h.lt_of_not_lt (by simp [hbests.mem hb]) (by simp [hm]) (by simp) hle hbeaten.2
      exact ⟨new, (mem_consider hnodup).2 (.inr ⟨rfl, hplace⟩), hbeaten.1.symm.trans hbf,
        h.asymm (by simp [hm]) (by simp) hlt⟩
    · exact ⟨best, (mem_consider hnodup).2 (.inl ⟨hb, fun hf hlt => hbeaten ⟨hf, hlt⟩⟩), hbf, hle⟩
  · obtain rfl := List.mem_singleton.1 hm
    by_cases hworse : ∀ leader ∈ bests, leader.file = other.file → leader.score < other.score
    · exact ⟨other, (mem_consider hnodup).2 (.inr ⟨rfl, hworse⟩), rfl,
        fun hlt => h.asymm (by simp) (by simp) hlt hlt⟩
    · push Not at hworse
      obtain ⟨leader, hl, hlf, hle⟩ := hworse
      exact ⟨leader, (mem_consider hnodup).2 (.inl ⟨hl, fun _ => hle⟩), hlf, hle⟩

end AreBest

theorem areBest_bestOfFiles (h : OrderedBy key scored) : AreBest scored (bestOfFiles scored) := by
  induction scored using List.reverseRecOn with
  | nil =>
      refine ⟨fun best => ⟨fun hm => absurd hm List.not_mem_nil, fun hl => ?_⟩, ?_⟩
      · exact absurd hl.mem List.not_mem_nil
      · exact fun _ hm => absurd hm List.not_mem_nil
  | append_singleton scored new ih =>
      rw [bestOfFiles_append_singleton]
      exact (ih h.of_append).consider (nodup_map_file_bestOfFiles scored) h

/-! ## The ranking -/

/-- All that may be shown, in the order in which it is. -/
def ranked (zero : α) (scored : List (Scored α)) : List (Scored α) :=
  ((bestOfFiles scored).filter fun best => decide (zero < best.score)).mergeSort
    fun left right => !decide (left.score < right.score)

theorem top_eq_take_ranked (zero : α) (limit : Nat) (scored : List (Scored α)) :
    top zero limit scored = (ranked zero scored).take limit := rfl

theorem nodup_map_file_ranked (zero : α) (scored : List (Scored α)) :
    ((ranked zero scored).map Scored.file).Nodup := by
  rw [ranked, ((List.mergeSort_perm _ _).map _).nodup_iff]
  exact (nodup_map_file_bestOfFiles scored).sublist (List.filter_sublist.map _)

theorem isRanking_ranked (h : OrderedBy key scored) (zero : α) :
    IsRanking zero scored (ranked zero scored) := by
  have hmem : ∀ best, best ∈ (bestOfFiles scored).filter (fun best => decide (zero < best.score)) ↔
      Leads scored best ∧ zero < best.score := by
    intro best
    rw [List.mem_filter, (areBest_bestOfFiles h).mem_iff, decide_eq_true_eq]
  constructor
  · intro best
    rw [ranked, List.mem_mergeSort, hmem]
  · have hfiles : ((bestOfFiles scored).filter fun best => decide (zero < best.score)).Pairwise
        fun first second => (scored.map Scored.file).idxOf first.file <
          (scored.map Scored.file).idxOf second.file :=
      (List.pairwise_map.1 (map_file_bestOfFiles scored).2).sublist List.filter_sublist
    have hle : ∀ first ∈ (bestOfFiles scored).filter fun best => decide (zero < best.score),
        ∀ second ∈ (bestOfFiles scored).filter fun best => decide (zero < best.score),
          (!decide (first.score < second.score)) = decide (key second.score ≤ key first.score) := by
      intro first hf second hs
      have hlt := h first ((hmem first).1 hf).1.mem second ((hmem second).1 hs).1.mem
      simp only [hlt, ← not_lt, decide_not]
    refine (pairwise_mergeSort_of_key hle hfiles).imp_of_mem ?_
    · intro first second hf hs hprecedes
      rw [List.mem_mergeSort, hmem] at hf hs
      rw [Precedes, h first hf.1.mem second hs.1.mem, h second hs.1.mem first hf.1.mem]
      exact hprecedes.imp_right fun heq => ⟨heq.1.not_gt, heq.2⟩

omit [DecidableLT α] in
theorem IsRanking.eq {zero : α} {left right : List (Scored α)} (h : OrderedBy key scored)
    (hl : IsRanking zero scored left) (hr : IsRanking zero scored right) : left = right := by
  have hasymm : ∀ first ∈ left, ∀ second ∈ left, Precedes scored first second →
      ¬Precedes scored second first := by
    intro first hf second hs
    have hfm := ((hl.mem_iff first).1 hf).1.mem
    have hsm := ((hl.mem_iff second).1 hs).1.mem
    rw [Precedes, Precedes, h first hfm second hsm, h second hsm first hfm]
    intro hfs hsf
    rcases hfs with hlt | ⟨hle, hidx⟩
    · exact hsf.elim hlt.asymm fun hle => hle.1 hlt
    · exact hsf.elim hle fun hle => Nat.lt_asymm hidx hle.2
  have hmem : ∀ best, best ∈ left ↔ best ∈ right := fun best =>
    (hl.mem_iff best).trans (hr.mem_iff best).symm
  have hnodup : ∀ {ranking : List (Scored α)}, (∀ best, best ∈ ranking ↔ best ∈ left) →
      ranking.Pairwise (Precedes scored) → ranking.Nodup := by
    intro ranking hsame hpair
    refine hpair.imp_of_mem fun {first second} hf hs hfs heq => ?_
    subst heq
    exact hasymm first ((hsame first).1 hf) first ((hsame first).1 hf) hfs hfs
  have hperm : left.Perm right := (List.perm_ext_iff_of_nodup
    (hnodup (fun _ => Iff.rfl) hl.ordered) (hnodup (fun best => (hmem best).symm) hr.ordered)).2 hmem
  exact hperm.eq_of_pairwise (fun first second hf hs hfs hsf =>
    absurd hsf (hasymm first hf second ((hmem second).2 hs) hfs)) hl.ordered hr.ordered

end

/-! ## Searches -/

theorem orderedBy_of_not_isNaN {scored : List (Scored Float)}
    (h : ∀ member ∈ scored, member.score.isNaN = false) : OrderedBy Binary64.key scored :=
  fun first hf second hs => Binary64.lt_iff (h first hf) (h second hs)

theorem not_isNaN_of_mem_zipWith {chunks : List Chunk} {scores : List Float}
    (h : ∀ score ∈ scores, score.isNaN = false) {member : Scored Float}
    (hm : member ∈ List.zipWith Scored.mk chunks scores) : member.score.isNaN = false := by
  rw [← List.map_uncurry_zip_eq_zipWith, List.mem_map] at hm
  obtain ⟨⟨chunk, score⟩, hzip, rfl⟩ := hm
  exact h score (List.of_mem_zip hzip).2

/-- A search cuts short the one ranking of the chunks by their scores, in which no file comes twice.
-/
theorem search_eq_take_ranking {chunks : List Chunk} {scores : List Float}
    (h : ∀ score ∈ scores, score.isNaN = false) :
    ∃ ranking,
      (∀ other, IsRanking 0 (List.zipWith Scored.mk chunks scores) other ↔ other = ranking) ∧
      (ranking.map Scored.file).Nodup ∧
      (∀ limit, top 0 limit (List.zipWith Scored.mk chunks scores) = ranking.take limit) ∧
      (∀ limit, ranking.take limit <+: ranking.take (limit + 1)) ∧
      ∀ (index : Index Float) (query : String), index.chunks = chunks → tokens query ≠ [] →
        index.model.scores .float (tokens query) = scores →
          ∀ limit, index.search .float query limit = ranking.take limit := by
  let scored := List.zipWith Scored.mk chunks scores
  have hkeys : OrderedBy Binary64.key scored :=
    orderedBy_of_not_isNaN fun member hm => not_isNaN_of_mem_zipWith h hm
  have hranked : IsRanking 0 scored (ranked 0 scored) := isRanking_ranked hkeys 0
  refine ⟨ranked 0 scored, fun other => ?_, nodup_map_file_ranked 0 scored,
    fun limit => top_eq_take_ranked 0 limit scored, fun limit => ?_, ?_⟩
  · constructor
    · exact fun hother => hother.eq hkeys hranked
    · rintro rfl
      exact hranked
  · exact List.take_prefix_take_left (Nat.le_succ limit)
  · intro index query hchunks hquery hscores limit
    have hterms : ¬(tokens query).isEmpty = true := by simpa using hquery
    rw [Index.search, if_neg hterms, hchunks, hscores]
    exact top_eq_take_ranked 0 limit scored

/-- Chunks of three files in turns, and one of a file that scores below zero. -/
def sampleChunks : List Chunk :=
  [⟨"b.py", .function, "low", ""⟩, ⟨"a.py", .function, "first", ""⟩,
    ⟨"none.py", .function, "negative", ""⟩, ⟨"b.py", .type, "best", ""⟩,
    ⟨"a.py", .type, "second", ""⟩, ⟨"c.py", .module, "top", ""⟩, ⟨"b.py", .module, "late", ""⟩]

def sampleScores : List Float := [0.5, 2.0, -1.0, 2.0, 2.0, 3.0, 1.0]

def sampleIndex : Index Float := Index.build .float ⟨1.5, 0.75⟩ "root" 0 sampleChunks

theorem search_eq_take_ranking_of_sampleScores :
    (∃ ranking, IsRanking 0 (List.zipWith Scored.mk sampleChunks sampleScores) ranking ∧
      (ranking.take 7).map (fun best => best.chunk.name) = ["top", "best", "first"]) ∧
    ∀ limit, sampleIndex.search .float "absent" limit = [] := by
  constructor
  · have hscores : ∀ score ∈ sampleScores, score.isNaN = false := by decide
    obtain ⟨ranking, hunique, -, htop, -, -⟩ :=
      @search_eq_take_ranking sampleChunks sampleScores hscores
    have hpositive : (bestOfFiles (List.zipWith Scored.mk sampleChunks sampleScores)).filter
        (fun best => decide (0 < best.score)) =
          [⟨⟨"b.py", .type, "best", ""⟩, 2.0⟩, ⟨⟨"a.py", .function, "first", ""⟩, 2.0⟩,
            ⟨⟨"c.py", .module, "top", ""⟩, 3.0⟩] := rfl
    have hbehind : (2.0 : Float) < 3.0 := by decide
    have hequal : ¬(2.0 : Float) < 2.0 := by decide
    refine ⟨ranking, (hunique ranking).2 rfl, ?_⟩
    rw [← htop, top, hpositive]
    simp [List.mergeSort, hbehind, hequal]
  · have hscores : ∀ score ∈ List.replicate 7 (0 : Float), score.isNaN = false := by decide
    obtain ⟨ranking, -, -, htop, -, hsearch⟩ :=
      @search_eq_take_ranking sampleChunks (List.replicate 7 0) hscores
    have hpositive : (bestOfFiles (List.zipWith Scored.mk sampleChunks
        (List.replicate 7 (0 : Float)))).filter (fun best => decide (0 < best.score)) = [] := rfl
    have hquery : sampleIndex.model.scores .float (tokens "absent") = List.replicate 7 0 := by
      decide +kernel
    intro limit
    rw [hsearch sampleIndex "absent" rfl (by decide +kernel) hquery, ← htop, top, hpositive]
    simp

end Ranking

end CodeAtlas.Search
