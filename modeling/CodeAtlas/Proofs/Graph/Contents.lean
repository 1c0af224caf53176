import CodeAtlas.Proofs.Graph.Loads
import CodeAtlas.Proofs.Sorting
import CodeAtlas.Proofs.Text.ByteOrder
import Mathlib.Data.List.Perm.Basic

/-!
# What a store holds

A store holds an edge list if its rows are the edges that `dedup` keeps of the list, and its files
are the ends of these. Loading and clearing keep this for the list that has been loaded. It
determines what the store is asked for: the edges come back in the order of their bytes, and so do
the files.
-/

namespace CodeAtlas.Graph

open Text.Utf8

/-! ## Orders -/

/-- Stands before another edge in the order of the bytes of source, target and relation. -/
def Edge.Precedes (left right : Edge) : Prop :=
  encode left.source < encode right.source ∨ left.source = right.source ∧
    (encode left.target < encode right.target ∨ left.target = right.target ∧
      encode left.relation.name < encode right.relation.name)

/-- What is made from a list and comes in another order is made from the list in that order. -/
theorem exists_map_of_perm {α β : Type} {make : α → β} {made : List β} {items : List α}
    (h : made.Perm (items.map make)) :
    ∃ result : List α, made = result.map make ∧ result.Perm items :=
  (congrFun₂ (List.eq_map_comp_perm make) made items).mpr h

namespace Row

instance : Std.TransCmp order :=
  inferInstanceAs (Std.TransCmp (compareLex (compareOn source)
    (compareLex (compareOn target) (compareOn relation))))

theorem mapM_map_ofEdge {α : Type} {read : Row → Result α} {value : Edge → α}
    (h : ∀ edge, read (ofEdge edge) = .ok (value edge)) (edges : List Edge) :
    (edges.map ofEdge).mapM read = .ok (edges.map value) := by
  induction edges with
  | nil => rfl
  | cons edge rest ih =>
      rw [List.map_cons, List.mapM_cons, h, ih]
      rfl

theorem mapM_toEdge (edges : List Edge) : (edges.map ofEdge).mapM toEdge = .ok edges := by
  rw [mapM_map_ofEdge toEdge_ofEdge, List.map_id']

theorem exists_edges_of_perm {rows : List Row} {edges : List Edge}
    (h : rows.Perm (edges.map ofEdge)) :
    ∃ result : List Edge, rows = result.map ofEdge ∧ result.Perm edges := exists_map_of_perm h

theorem order_eq_eq_iff {left right : Row} : order left right = .eq ↔ left.key = right.key := by
  simp [order, key, Ordering.then_eq_eq]

theorem order_ofEdge_eq_lt_iff {left right : Edge} :
    order (ofEdge left) (ofEdge right) = .lt ↔ left.Precedes right := by
  simp [order, ofEdge, Edge.Precedes, Ordering.then_eq_lt, compare_eq_lt_iff]

end Row

namespace Store

/-! ## Contents -/

/-- The store has the edges kept of a list and the files at their ends, and nothing else. -/
structure Holds (store : Store) (edges : List Edge) : Prop where
  mem_rows : ∀ row, row ∈ store.rows ↔ ∃ edge ∈ Edge.dedup edges, Row.ofEdge edge = row
  mem_paths : ∀ path, path ∈ store.paths ↔
    ∃ edge ∈ Edge.dedup edges, path = edge.source ∨ path = edge.target

theorem holds_empty : empty.Holds [] where
  mem_rows := by simp [empty, rows, Edge.dedup, Edge.dedupFrom]
  mem_paths := by simp [empty, paths, Edge.dedup, Edge.dedupFrom]

namespace Holds

variable {store : Store} {edges : List Edge}

theorem mem_keys (h : store.Holds edges) {edge : Edge} :
    (Row.ofEdge edge).key ∈ store.rows.map Row.key ↔
      edge.key ∈ (Edge.dedup edges).map Edge.key := by
  simp only [List.mem_map, h.mem_rows]
  constructor
  · intro hkey
    obtain ⟨row, ⟨other, hm, rfl⟩, hk⟩ := hkey
    exact ⟨other, hm, Row.key_ofEdge_eq_iff.1 hk⟩
  · intro hkey
    obtain ⟨other, hm, hk⟩ := hkey
    exact ⟨_, ⟨other, hm, rfl⟩, Row.key_ofEdge_eq_iff.2 hk⟩

theorem exists_mem_dedup {path : String} :
    (∃ edge ∈ Edge.dedup edges, path = edge.source ∨ path = edge.target) ↔
      ∃ edge ∈ edges, edge.isLoop = false ∧ (path = edge.source ∨ path = edge.target) := by
  constructor
  · intro h
    obtain ⟨edge, hm, he⟩ := h
    exact ⟨edge, (Edge.dedup_sublist edges).mem hm, (Edge.mem_dedup.1 hm).1, he⟩
  · intro h
    obtain ⟨edge, hm, hl, he⟩ := h
    obtain ⟨kept, hk, hkey⟩ := List.mem_map.1 (Edge.mem_keys_dedup.2 ⟨edge, hm, hl, rfl⟩)
    simp only [Edge.key, Prod.mk.injEq] at hkey
    exact ⟨kept, hk, by rw [hkey.1, hkey.2.1]; exact he⟩

theorem load (h : store.Holds edges) (strategy : Strategy) (more : List Edge) :
    (store.load strategy more).Holds (edges ++ more) where
  mem_rows row := by
    rw [mem_rows_load, h.mem_rows]
    simp only [Edge.mem_dedup_append]
    constructor
    · intro hrow
      rcases hrow with ⟨edge, hm, rfl⟩ | ⟨hk, edge, hm, rfl⟩
      · exact ⟨edge, .inl hm, rfl⟩
      · exact ⟨edge, .inr ⟨hm, mt h.mem_keys.2 hk⟩, rfl⟩
    · intro hrow
      rcases hrow with ⟨edge, hm | ⟨hm, hk⟩, rfl⟩
      · exact .inl ⟨edge, hm, rfl⟩
      · exact .inr ⟨mt h.mem_keys.1 hk, edge, hm, rfl⟩
  mem_paths path := by
    rw [mem_paths_load, h.mem_paths, exists_mem_dedup, exists_mem_dedup]
    simp only [List.mem_append]
    grind

theorem load_eq (h : store.Holds edges) (strategy : Strategy) {again : List Edge}
    (ha : again ⊆ edges) : store.load strategy again = store := by
  refine load_of_stored fun edge hm hl => h.mem_keys.2 ?_
  exact Edge.mem_keys_dedup.2 ⟨edge, ha hm, hl, rfl⟩

/-! ## Questions -/

theorem perm_rows (h : store.Holds edges) :
    store.rows.Perm ((Edge.dedup edges).map Row.ofEdge) := by
  have hn : (Edge.dedup edges).Nodup := (Edge.nodup_keys_dedup edges).of_map
  rw [List.perm_ext_iff_of_nodup store.nodup_rows (hn.map Row.ofEdge_injective)]
  intro row
  rw [h.mem_rows, List.mem_map]

theorem exported_eq (h : store.Holds edges) :
    ∃ result, store.exported = .ok result ∧ result.Perm (Edge.dedup edges) ∧
      result.Pairwise Edge.Precedes := by
  have hp := (List.mergeSort_perm store.rows fun a b => (Row.order a b).isLE).trans h.perm_rows
  have hs : (store.rows.mergeSort fun a b => (Row.order a b).isLE).Pairwise
      fun a b => Row.order a b = .lt := by
    refine pairwise_lt_mergeSort ?_
    have hk := store.nodup_keys_rows
    rw [List.Nodup, List.pairwise_map] at hk
    exact hk.imp fun hne he => hne (Row.order_eq_eq_iff.1 he)
  obtain ⟨result, hr, hperm⟩ := Row.exists_edges_of_perm hp
  rw [hr, List.pairwise_map] at hs
  refine ⟨result, ?_, hperm, hs.imp Row.order_ofEdge_eq_lt_iff.1⟩
  rw [exported, hr]
  exact Row.mapM_toEdge result

end Holds

theorem filePaths_sorted (store : Store) :
    store.filePaths.Pairwise (fun left right => encode left < encode right) ∧
      ∀ path, path ∈ store.filePaths ↔ path ∈ store.paths := by
  refine ⟨?_, fun path => List.mem_mergeSort⟩
  have hs : store.filePaths.Pairwise fun a b => compare a b = .lt := by
    refine pairwise_lt_mergeSort ?_
    exact store.paths_nodup.imp fun hne he => hne (Std.LawfulEqOrd.eq_of_compare he)
  exact hs.imp compare_eq_lt_iff.1

end Store

end CodeAtlas.Graph
