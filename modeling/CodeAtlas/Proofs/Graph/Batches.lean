import CodeAtlas.Graph.EdgeList
import CodeAtlas.Proofs.Graph.Dedup
import Mathlib.Data.List.Forall2
import Mathlib.Data.List.Induction

/-!
# Edges in batches

Of a list `dedup` keeps the edges at certain places: those of no loop, with a key that no edge
before them has. So what it keeps of two lists together is what it keeps of the first, and of the
second what is new. Edges may therefore be divided into batches in any way, and each batch
deduplicated first. Batches of different files are kept block by block.
-/

namespace CodeAtlas.Graph

namespace Edge

/-! ## Places -/

/-- At this place stands an edge that is no loop, and none before it counts as the same one. -/
def CountsAt (edges : List Edge) (place : Nat) : Prop :=
  ∃ edge, edges[place]? = some edge ∧ edge.isLoop = false ∧
    ∀ other ∈ edges.take place, other.key ≠ edge.key

/-- The edges at the places that count, in the order of the places. -/
def KeepsCounted (edges kept : List Edge) : Prop :=
  ∃ places : List Nat, places.Pairwise (· < ·) ∧
    (∀ place, place ∈ places ↔ CountsAt edges place) ∧
    (places.map fun place => edges[place]?) = kept.map some

theorem KeepsCounted.eq {edges kept other : List Edge} (h : KeepsCounted edges kept)
    (hother : KeepsCounted edges other) : kept = other := by
  obtain ⟨places, hrising, hplaces, hkept⟩ := h
  obtain ⟨others, hothersRising, hothers, hotherKept⟩ := hother
  have hsame : places.Perm others := by
    rw [List.perm_ext_iff_of_nodup (hrising.imp Nat.ne_of_lt) (hothersRising.imp Nat.ne_of_lt)]
    exact fun place => (hplaces place).trans (hothers place).symm
  have heq : places = others :=
    hsame.eq_of_pairwise (fun _ _ _ _ hab hba => absurd hab (Nat.lt_asymm hba)) hrising
      hothersRising
  rw [heq, hotherKept] at hkept
  exact (List.map_inj_right fun _ _ => Option.some.inj).1 hkept.symm

theorem CountsAt.lt_length {edges : List Edge} {place : Nat} (h : CountsAt edges place) :
    place < edges.length := by
  obtain ⟨edge, hedge, -⟩ := h
  exact (List.getElem?_eq_some_iff.1 hedge).1

theorem countsAt_append_singleton {edges : List Edge} {last : Edge} {place : Nat} :
    CountsAt (edges ++ [last]) place ↔ CountsAt edges place ∨
      place = edges.length ∧ last.isLoop = false ∧ last.key ∉ edges.map key := by
  rcases Nat.lt_trichotomy place edges.length with hlt | rfl | hgt
  · have hfront : CountsAt (edges ++ [last]) place ↔ CountsAt edges place := by
      rw [CountsAt, CountsAt, List.getElem?_append_left hlt,
        List.take_append_of_le_length (Nat.le_of_lt hlt)]
    rw [hfront]
    exact ⟨.inl, fun h => h.resolve_right fun hlast => Nat.ne_of_lt hlt hlast.1⟩
  · have hnot : ¬CountsAt edges edges.length := fun h => Nat.lt_irrefl _ h.lt_length
    simp only [hnot, false_or, true_and]
    simp [CountsAt]
  · have hnone : ¬CountsAt (edges ++ [last]) place := by
      intro h
      have hlt := h.lt_length
      rw [List.length_append, List.length_singleton] at hlt
      omega
    have hnot : ¬CountsAt edges place := fun h => Nat.lt_asymm hgt h.lt_length
    have hne : place ≠ edges.length := Nat.ne_of_gt hgt
    simp [hnone, hnot, hne]

/-! ## Lists together -/

theorem dedupFrom_eq_filter (seen : List Key) (edges : List Edge) :
    dedupFrom seen edges = (dedup edges).filter fun edge => edge.key ∉ seen := by
  have hnew : ∀ edge ∈ dedupFrom seen edges, decide (edge.key ∉ seen) = true :=
    fun edge hm => decide_eq_true (mem_dedupFrom.1 hm).2.1
  calc dedupFrom seen edges
    _ = (dedupFrom seen edges).filter fun edge => edge.key ∉ seen :=
        (List.filter_eq_self.2 hnew).symm
    _ = dedup (edges.filter fun edge => edge.key ∉ seen) :=
        dedupFrom_filter (fun k => decide (k ∉ seen)) fun k hk => by simpa using hk
    _ = (dedup edges).filter fun edge => edge.key ∉ seen :=
        (dedup_filter (fun k => decide (k ∉ seen)) edges).symm

theorem dedupFrom_append (seen : List Key) (xs ys : List Edge) :
    dedupFrom seen (xs ++ ys) = dedupFrom seen xs ++
      (dedup ys).filter fun edge => edge.key ∉ seen ∧ edge.key ∉ xs.map key := by
  induction xs generalizing seen with
  | nil => simpa [dedupFrom] using dedupFrom_eq_filter seen ys
  | cons head rest ih =>
      rw [List.cons_append, dedupFrom, dedupFrom]
      split
      · next hskip =>
          rw [ih]
          congr 1
          refine List.filter_congr fun edge hm => ?_
          -- No edge that is kept has the key of one that was passed over here.
          have hkey : edge.key ∉ seen → edge.key ≠ head.key := by
            intro hseen he
            have hloop := (mem_dedup.1 hm).1
            rw [isLoop_congr he] at hloop
            rw [he] at hseen
            simp [hloop, hseen] at hskip
          simp only [List.map_cons, List.mem_cons, not_or, decide_eq_decide]
          exact ⟨fun h => ⟨h.1, hkey h.1, h.2⟩, fun h => ⟨h.1, h.2.2⟩⟩
      · rw [ih, List.cons_append]
        congr 2
        refine List.filter_congr fun edge _ => ?_
        simp only [List.map_cons, List.mem_cons, not_or, decide_eq_decide]
        exact ⟨fun h => ⟨h.1.2, h.1.1, h.2⟩, fun h => ⟨⟨h.2.1, h.1⟩, h.2.2⟩⟩

theorem dedup_append (xs ys : List Edge) :
    dedup (xs ++ ys) = dedup xs ++ (dedup ys).filter fun edge => edge.key ∉ xs.map key := by
  simpa [dedup] using dedupFrom_append [] xs ys

theorem dedup_dedup_append (xs ys : List Edge) :
    dedup (dedup xs ++ dedup ys) = dedup (xs ++ ys) := by
  rw [dedup_append, dedup_append, dedup_dedup, dedup_dedup]
  congr 1
  refine List.filter_congr fun edge hm => ?_
  have hloop := (mem_dedup.1 hm).1
  rw [decide_eq_decide, mem_keys_dedup, List.mem_map]
  refine not_congr ⟨?_, ?_⟩
  · rintro ⟨other, ho, -, hk⟩
    exact ⟨other, ho, hk⟩
  · rintro ⟨other, ho, hk⟩
    exact ⟨other, ho, by rw [isLoop_congr hk, hloop], hk⟩

theorem dedup_append_congr {xs ys others more : List Edge} (h : dedup xs = dedup others)
    (hmore : dedup ys = dedup more) : dedup (xs ++ ys) = dedup (others ++ more) := by
  rw [← dedup_dedup_append, h, hmore, dedup_dedup_append]

theorem dedup_flatten_congr {batches others : List (List Edge)}
    (h : List.Forall₂ (fun batch other => dedup batch = dedup other) batches others) :
    dedup batches.flatten = dedup others.flatten := by
  induction h with
  | nil => rfl
  | cons hbatch _ ih =>
      rw [List.flatten_cons, List.flatten_cons]
      exact dedup_append_congr hbatch ih

theorem keepsCounted_dedup (edges : List Edge) : KeepsCounted edges (dedup edges) := by
  induction edges using List.reverseRecOn with
  | nil => exact ⟨[], List.Pairwise.nil, by simp [CountsAt], rfl⟩
  | append_singleton edges last ih =>
      obtain ⟨places, hrising, hplaces, hkept⟩ := ih
      have hlt : ∀ place ∈ places, place < edges.length :=
        fun place hm => ((hplaces place).1 hm).lt_length
      have hfront : (places.map fun place => (edges ++ [last])[place]?) =
          (dedup edges).map some := by
        rw [← hkept]
        exact List.map_congr_left fun place hm => List.getElem?_append_left (hlt place hm)
      rw [dedup_append]
      by_cases hcounts : last.isLoop = false ∧ last.key ∉ edges.map key
      · refine ⟨places ++ [edges.length], ?_, fun place => ?_, ?_⟩
        · refine List.pairwise_append.2 ⟨hrising, List.pairwise_singleton _ _, ?_⟩
          simpa using hlt
        · rw [List.mem_append, List.mem_singleton, hplaces, countsAt_append_singleton]
          simp only [hcounts, not_false_eq_true, and_self, and_true]
        · have hlast : (dedup [last]).filter (fun edge => edge.key ∉ edges.map key) = [last] := by
            simp [dedup, dedupFrom, hcounts.1]
            simpa using hcounts.2
          rw [hlast, List.map_append, List.map_append, hfront]
          simp
      · refine ⟨places, hrising, fun place => ?_, ?_⟩
        · rw [hplaces, countsAt_append_singleton]
          simp only [hcounts, and_false, or_false]
        · have hnone : (dedup [last]).filter (fun edge => edge.key ∉ edges.map key) = [] := by
            rw [List.filter_eq_nil_iff]
            intro edge hm hnew
            obtain ⟨hloop, hfirst⟩ := mem_dedup.1 hm
            obtain rfl : edge = last := List.mem_singleton.1 (mem_of_first? hfirst)
            exact hcounts ⟨hloop, of_decide_eq_true hnew⟩
          rw [hnone, List.append_nil, hfront]

/-! ## Batches of different files -/

/-- No file is the source of an edge on both sides. -/
def SourcesApart (xs ys : List Edge) : Prop :=
  ∀ edge ∈ xs, ∀ other ∈ ys, edge.source ≠ other.source

theorem dedup_append_of_sourcesApart {xs ys : List Edge} (h : SourcesApart xs ys) :
    dedup (xs ++ ys) = dedup xs ++ dedup ys := by
  rw [dedup_append]
  congr 1
  rw [List.filter_eq_self]
  intro edge hm
  rw [decide_eq_true_eq, List.mem_map]
  rintro ⟨other, ho, hk⟩
  exact h other ho edge ((dedup_sublist ys).mem hm) (congrArg Prod.fst hk)

theorem dedup_flatten_of_sourcesApart {batches : List (List Edge)}
    (h : batches.Pairwise SourcesApart) : dedup batches.flatten = (batches.map dedup).flatten := by
  induction h with
  | nil => rfl
  | cons hbatch _ ih =>
      rw [List.flatten_cons, List.map_cons, List.flatten_cons, dedup_append_of_sourcesApart, ih]
      intro edge hedge other hother
      obtain ⟨batch, hm, hother⟩ := List.mem_flatten.1 hother
      exact hbatch batch hm edge hedge other hother

theorem SourcesApart.symm {xs ys : List Edge} (h : SourcesApart xs ys) : SourcesApart ys xs :=
  fun edge hedge other hother he => h other hother edge hedge he.symm

end Edge

namespace EdgeList

open Edge

/-- Deduplicating keeps the edges that are no loops and have a key that no edge before them has, and
those alone, in their order. It may be done to parts before it is done to the whole: so an edge list
is the same however its edges are divided into batches, and whichever of the batches were
deduplicated before. Where no file has edges in two batches, the list is made of the batches one by
one, and other orders of the batches put the same blocks in another order. -/
theorem merge_of_batches :
    (∀ edges kept, KeepsCounted edges kept ↔ kept = dedup edges) ∧
    (∀ edges, dedup (dedup edges) = dedup edges) ∧
    (∀ xs ys, dedup (xs ++ ys) = dedup (dedup xs ++ dedup ys)) ∧
    (∀ batches divided others : List (List Edge), divided.flatten = batches.flatten →
      List.Forall₂ (fun batch other => other = batch ∨ other = dedup batch) divided others →
      merge others = merge batches) ∧
    ∀ batches : List (List Edge), batches.Pairwise SourcesApart →
      ∀ others : List (List Edge), others.Perm batches →
        (merge batches).edges = (batches.map dedup).flatten ∧
        (merge others).edges = (others.map dedup).flatten ∧
        (others.map dedup).Perm (batches.map dedup) := by
  refine ⟨fun edges kept => ⟨fun h => h.eq (keepsCounted_dedup edges), ?_⟩, dedup_dedup,
    fun xs ys => (dedup_dedup_append xs ys).symm, ?_, ?_⟩
  · rintro rfl
    exact keepsCounted_dedup edges
  · intro batches divided others hflatten hothers
    have hdedup : dedup others.flatten = dedup batches.flatten := by
      rw [← hflatten]
      refine (dedup_flatten_congr (hothers.imp ?_)).symm
      rintro batch other (rfl | rfl)
      · rfl
      · exact (dedup_dedup batch).symm
    simp only [merge, ofEdges, hdedup]
  · intro batches hapart others hperm
    refine ⟨dedup_flatten_of_sourcesApart hapart, ?_, hperm.map dedup⟩
    exact dedup_flatten_of_sourcesApart (hapart.perm hperm.symm SourcesApart.symm)

/-- Edges of one file, of which a loop and the second note are dropped. -/
def doubledBatch : List Edge :=
  [⟨"a.py", "b.py", .instantiates, some "calls Pen()"⟩, ⟨"a.py", "a.py", .imports, none⟩,
    ⟨"a.py", "b.py", .instantiates, some "calls Box()"⟩]

def plainBatch : List Edge := [⟨"b.py", "c.py", .imports, none⟩, ⟨"b.py", "a.py", .imports, none⟩]

theorem merge_of_doubledBatch :
    KeepsCounted doubledBatch [⟨"a.py", "b.py", .instantiates, some "calls Pen()"⟩] ∧
      merge [dedup doubledBatch, plainBatch.take 1, plainBatch.drop 1] =
        merge [doubledBatch, plainBatch] ∧
      [doubledBatch, plainBatch].Pairwise SourcesApart ∧
      (merge [plainBatch, doubledBatch]).edges = dedup plainBatch ++ dedup doubledBatch := by
  obtain ⟨hkept, -, -, hmerge, hblocks⟩ := merge_of_batches
  have hapart : [doubledBatch, plainBatch].Pairwise SourcesApart := by
    simp [SourcesApart, doubledBatch, plainBatch]
  refine ⟨(hkept _ _).2 (by decide +kernel), ?_, hapart, ?_⟩
  · apply hmerge _ [doubledBatch, plainBatch.take 1, plainBatch.drop 1]
    · rfl
    · exact .cons (.inr rfl) (.cons (.inl rfl) (.cons (.inl rfl) .nil))
  · rw [(hblocks _ hapart _ (List.Perm.swap _ _ [])).2.1]
    simp

end EdgeList

end CodeAtlas.Graph
