import CodeAtlas.Proofs.Graph.Contents
import Mathlib

/-!
# Questions to a store

What a store answers if it holds an edge list: the neighbours of a file are the other ends of the
kept edges at this file, and the numbers are those of the kept edges.
-/

namespace CodeAtlas.Graph

namespace Edge

/-- The edge as it is seen from its source. -/
def forward (edge : Edge) : Neighbor := ⟨edge.target, edge.relation, .outgoing⟩

/-- The edge as it is seen from its target. -/
def backward (edge : Edge) : Neighbor := ⟨edge.source, edge.relation, .incoming⟩

theorem forward_eq_iff {edge : Edge} {row : Neighbor} : edge.forward = row ↔
    row.direction = .outgoing ∧ edge.target = row.file ∧ edge.relation = row.relation := by
  cases row
  simp only [forward, Neighbor.mk.injEq]
  grind

theorem backward_eq_iff {edge : Edge} {row : Neighbor} : edge.backward = row ↔
    row.direction = .incoming ∧ edge.source = row.file ∧ edge.relation = row.relation := by
  cases row
  simp only [backward, Neighbor.mk.injEq]
  grind

/-- Edges with different keys look different where what is seen of an edge determines its key. -/
theorem nodup_map_filter {edges : List Edge} (h : (edges.map key).Nodup) {keep : Edge → Bool}
    {look : Edge → Neighbor} (hkey : ∀ left right, keep left = true → keep right = true →
      look left = look right → left.key = right.key) :
    ((edges.filter keep).map look).Nodup := by
  refine (h.of_map.filter keep).map_on fun left hl right hr he => ?_
  rw [List.mem_filter] at hl hr
  exact List.inj_on_of_nodup_map h hl.1 hr.1 (hkey left right hl.2 hr.2 he)

theorem nodup_map_forward {edges : List Edge} (h : (edges.map key).Nodup) (path : String) :
    ((edges.filter fun edge => edge.source = path).map forward).Nodup := by
  refine nodup_map_filter h fun left right hl hr he => ?_
  simp only [decide_eq_true_eq] at hl hr
  simp only [forward, Neighbor.mk.injEq] at he
  simp [key, hl, hr, he]

theorem nodup_map_backward {edges : List Edge} (h : (edges.map key).Nodup) (path : String) :
    ((edges.filter fun edge => edge.target = path).map backward).Nodup := by
  refine nodup_map_filter h fun left right hl hr he => ?_
  simp only [decide_eq_true_eq] at hl hr
  simp only [backward, Neighbor.mk.injEq] at he
  simp [key, hl, hr, he]

end Edge

/-! ## Counts -/

namespace Stats

theorem totalEdges_ofCounts (files : Nat) (counts : List RelationCount) :
    (ofCounts files counts).totalEdges = (counts.map RelationCount.count).sum := by
  have hp := List.mergeSort_perm counts fun left right => (RelationCount.order left right).isLE
  rw [totalEdges, ← List.foldl_map, ← List.sum_eq_foldl]
  exact (hp.map RelationCount.count).sum_nat

/-- Where each relation that occurs is listed with a number that only depends on its text, this is
its count, and it is none for the others. -/
theorem count_ofCounts {files : Nat} {texts : List String} {number : String → Nat}
    (relation : Relation) (h : relation.name ∉ texts → number relation.name = 0) :
    (ofCounts files (texts.map fun text => ⟨text, number text⟩)).count relation =
      number relation.name := by
  unfold count
  split
  · next entry hf =>
      have hm := List.mem_mergeSort.1 (List.mem_of_find?_eq_some hf)
      obtain ⟨text, -, rfl⟩ := List.mem_map.1 hm
      have ht : text = relation.name := by simpa using List.find?_some hf
      rw [ht]
  · next hf =>
      refine (h fun hm => ?_).symm
      have hentry := List.find?_eq_none.1 hf ⟨relation.name, number relation.name⟩
        (List.mem_mergeSort.2 (List.mem_map.2 ⟨_, hm, rfl⟩))
      simp at hentry

end Stats

theorem Row.exists_mapM_of_perm {α : Type} {read : Row → Result α} {value : Edge → α}
    (h : ∀ edge, read (ofEdge edge) = .ok (value edge)) {rows : List Row} {edges : List Edge}
    (hp : rows.Perm (edges.map ofEdge)) :
    ∃ result, rows.mapM read = .ok result ∧ result.Perm (edges.map value) := by
  obtain ⟨sorted, rfl, hperm⟩ := exists_edges_of_perm hp
  exact ⟨sorted.map value, mapM_map_ofEdge h sorted, hperm.map value⟩

namespace Store

theorem nodup_eraseDups (texts : List String) : texts.eraseDups.Nodup := by
  cases texts with
  | nil => exact List.nodup_nil
  | cons text rest =>
      rw [List.eraseDups_cons, List.nodup_cons]
      refine ⟨fun hm => ?_, nodup_eraseDups _⟩
      simpa using List.mem_eraseDups.1 hm
termination_by texts.length
decreasing_by exact Nat.lt_succ_of_le (List.length_filter_le _ rest)

/-- Which of the repetitions of a text are left out makes a difference for the order alone. -/
theorem perm_eraseDups (texts : List String) : texts.eraseDups.Perm texts.dedup := by
  rw [List.perm_ext_iff_of_nodup (nodup_eraseDups texts) texts.nodup_dedup]
  simp

theorem relations_rows (store : Store) :
    store.rows.map Row.relation = store.edges.map StoredEdge.relation := by
  have hall : ∀ edges ⊆ store.edges,
      (edges.filterMap store.row?).map Row.relation = edges.map StoredEdge.relation := by
    intro edges hs
    induction edges with
    | nil => rfl
    | cons edge rest ih =>
        obtain ⟨hm, hs⟩ := List.cons_subset.1 hs
        obtain ⟨row, hr⟩ := Option.isSome_iff_exists.1 (row?_isSome hm)
        rw [List.filterMap_cons_some hr, List.map_cons, List.map_cons, ih hs,
          (row?_eq_some_iff.1 hr).2.2.1]
  exact hall store.edges (List.Subset.refl _)

theorem totalEdges_stats (store : Store) : store.stats.totalEdges = store.edges.length := by
  have hp := perm_eraseDups (store.edges.map StoredEdge.relation)
  have hc : (store.relationTexts.map fun text =>
        store.edges.countP fun edge => edge.relation = text) =
      store.relationTexts.map fun text => (store.edges.map StoredEdge.relation).count text := by
    refine List.map_congr_left fun text _ => ?_
    rw [List.count, List.countP_map]
    exact List.countP_congr fun edge _ => by simp
  rw [stats, Stats.totalEdges_ofCounts, List.map_map]
  refine (congrArg List.sum hc).trans ?_
  rw [relationTexts, (hp.map _).sum_nat, List.sum_map_count_dedup_eq_length, List.length_map]

/-- The index that leads from a file lists its edges in another order than they were stored. -/
theorem perm_rowsFrom (store : Store) (path : String) :
    (store.rowsFrom path).Perm (store.rows.filter fun row => row.source = path) := by
  have hsort := List.mergeSort_perm store.edges fun a b => (StoredEdge.order a b).isLE
  exact (hsort.filterMap store.row?).filter _

/-! ## Rows of edges -/

section

variable {store : Store} {edges : List Edge}

theorem outgoing_eq_of_perm (h : store.rows.Perm (edges.map Row.ofEdge)) (path : String) :
    ∃ result, store.outgoing path = .ok result ∧
      result.Perm ((edges.filter fun edge => edge.source = path).map Edge.forward) := by
  have hp : (store.rowsFrom path).Perm
      ((edges.filter fun edge => edge.source = path).map Row.ofEdge) := by
    have hleave := h.filter fun row => row.source = path
    rw [List.filter_map] at hleave
    exact (store.perm_rowsFrom path).trans hleave
  exact Row.exists_mapM_of_perm (fun edge => by simp [Row.ofEdge, Edge.forward]) hp

theorem incoming_eq_of_perm (h : store.rows.Perm (edges.map Row.ofEdge)) (path : String) :
    ∃ result, store.incoming path = .ok result ∧
      result.Perm ((edges.filter fun edge => edge.target = path).map Edge.backward) := by
  have hp : (store.rowsTo path).Perm
      ((edges.filter fun edge => edge.target = path).map Row.ofEdge) := by
    have hreach := h.filter fun row => row.target = path
    rwa [List.filter_map] at hreach
  exact Row.exists_mapM_of_perm (fun edge => by simp [Row.ofEdge, Edge.backward]) hp

end

namespace Holds

variable {store : Store} {edges : List Edge}

theorem perm_relations (h : store.Holds edges) : (store.edges.map StoredEdge.relation).Perm
    ((Edge.dedup edges).map fun edge => edge.relation.name) := by
  have hp := h.perm_rows.map Row.relation
  rwa [relations_rows, List.map_map] at hp

theorem totalEdges_stats (h : store.Holds edges) :
    store.stats.totalEdges = (Edge.dedup edges).length := by
  simpa [store.totalEdges_stats] using h.perm_relations.length_eq

theorem countP_relation (h : store.Holds edges) (relation : Relation) :
    (store.edges.countP fun edge => edge.relation = relation.name) =
      (Edge.dedup edges).countP fun edge => edge.relation = relation := by
  have hcount := h.perm_relations.countP_eq fun text => text = relation.name
  rw [List.countP_map, List.countP_map] at hcount
  refine hcount.trans (List.countP_congr fun edge _ => ?_)
  simp [Relation.name_injective.eq_iff]

theorem count_stats (h : store.Holds edges) (relation : Relation) :
    store.stats.count relation =
      (Edge.dedup edges).countP fun edge => edge.relation = relation := by
  rw [stats, Stats.count_ofCounts relation]
  · exact h.countP_relation relation
  · intro hn
    rw [List.countP_eq_zero]
    intro edge hm he
    refine hn (List.mem_eraseDups.2 (List.mem_map.2 ⟨edge, hm, ?_⟩))
    simpa using he

/-! ## Neighbours -/

theorem outgoing_eq (h : store.Holds edges) (path : String) :
    ∃ result, store.outgoing path = .ok result ∧
      result.Perm
        (((Edge.dedup edges).filter fun edge => edge.source = path).map Edge.forward) :=
  outgoing_eq_of_perm h.perm_rows path

theorem incoming_eq (h : store.Holds edges) (path : String) :
    ∃ result, store.incoming path = .ok result ∧
      result.Perm
        (((Edge.dedup edges).filter fun edge => edge.target = path).map Edge.backward) :=
  incoming_eq_of_perm h.perm_rows path

theorem neighbors_outgoing (h : store.Holds edges) (path : String) :
    ∃ result, store.neighbors path .outgoing = .ok result ∧
      result.Perm
        (((Edge.dedup edges).filter fun edge => edge.source = path).map Edge.forward) := by
  obtain ⟨result, hr, hperm⟩ := h.outgoing_eq path
  refine ⟨Neighbor.sort result, ?_, (List.mergeSort_perm _ _).trans hperm⟩
  simp [neighbors, Direction.includes, hr, bind, Except.bind, pure, Except.pure]

theorem neighbors_incoming (h : store.Holds edges) (path : String) :
    ∃ result, store.neighbors path .incoming = .ok result ∧
      result.Perm
        (((Edge.dedup edges).filter fun edge => edge.target = path).map Edge.backward) := by
  obtain ⟨result, hr, hperm⟩ := h.incoming_eq path
  refine ⟨Neighbor.sort result, ?_, (List.mergeSort_perm _ _).trans hperm⟩
  simp [neighbors, Direction.includes, hr, bind, Except.bind, pure, Except.pure]

end Holds

end Store

end CodeAtlas.Graph
