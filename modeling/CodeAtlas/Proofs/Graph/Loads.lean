import CodeAtlas.Proofs.Graph.Loading
import CodeAtlas.Proofs.Graph.Rows

/-!
# Loaded edges

Loading an edge list, in whatever batches and by either strategy, stores the edges that `dedup`
keeps of it, as far as their keys are new, and the files at the ends of all its edges but loops.
What is stored before stays. The two strategies differ in the order of rows alone.
-/

namespace CodeAtlas.Graph

namespace Store

/-! ## The edges that are stored, in turn -/

/-- The proper edges of a list in the order in which a strategy stores them. -/
def arranged (strategy : Strategy) (edges : List Edge) : List Edge :=
  match strategy with
  | .generic => edges.filter fun edge => !edge.isLoop
  | .perRelation => Relation.all.flatMap fun relation =>
      edges.filter fun edge => edge.relation = relation && !edge.isLoop

theorem addBatches_eq_foldl (store : Store) (batches : List (List Edge)) :
    store.addBatches batches = batches.flatten.foldl addEdge store := List.foldl_flatten.symm

theorem load_eq_foldl (store : Store) (strategy : Strategy) (edges : List Edge) :
    store.load strategy edges = (arranged strategy edges).foldl addEdge store := by
  cases strategy with
  | generic =>
      rw [load, addBatches_eq_foldl, ← List.filter_flatten, flatten_batches]
      rfl
  | perRelation =>
      simp only [load, addBatches_eq_foldl, flatten_batches, arranged, List.foldl_flatMap]

theorem mem_arranged {strategy : Strategy} {edges : List Edge} {edge : Edge} :
    edge ∈ arranged strategy edges ↔ edge ∈ edges ∧ edge.isLoop = false := by
  cases strategy with
  | generic => simp [arranged]
  | perRelation =>
      have ha : edge.relation ∈ Relation.all := edge.relation.mem_all
      simp [arranged, ha]

theorem first?_ofRelation {key : Edge.Key} {relation : Relation} {edges : List Edge} :
    Edge.first? key (edges.filter fun edge => edge.relation = relation && !edge.isLoop) =
      if key.2.2 = relation then Edge.first? key (edges.filter fun edge => !edge.isLoop)
      else none := by
  unfold Edge.first?
  split
  · next h =>
      rw [List.find?_filter, List.find?_filter]
      congr 1
      funext edge
      by_cases hk : edge.key = key
      · have hr : edge.relation = relation := by rw [← h, ← hk, Edge.key]
        simp [hk, hr]
      · simp [hk]
  · next h =>
      rw [List.find?_eq_none]
      intro edge hm hk
      have hr : edge.relation = relation := by
        have := (List.mem_filter.1 hm).2
        simp_all
      exact h (by rw [← of_decide_eq_true hk, ← hr, Edge.key])

theorem first?_arranged {strategy : Strategy} {edges : List Edge} {key : Edge.Key} :
    Edge.first? key (arranged strategy edges) =
      Edge.first? key (edges.filter fun edge => !edge.isLoop) := by
  cases strategy with
  | generic => rfl
  | perRelation =>
      simp only [arranged, Relation.all, List.flatMap_cons, List.flatMap_nil, List.append_nil,
        Edge.first?_append, first?_ofRelation]
      cases key.2.2 <;> simp

theorem first?_proper {edges : List Edge} {edge : Edge} (hl : edge.isLoop = false) :
    Edge.first? edge.key (edges.filter fun edge => !edge.isLoop) =
      Edge.first? edge.key edges := by
  rw [Edge.first?, List.find?_filter, Edge.first?]
  congr 1
  funext other
  by_cases hk : other.key = edge.key
  · simp [hk, Edge.isLoop_congr hk, hl]
  · simp [hk]

/-- An edge is kept of a list if it is the first of its key among the edges that are stored. -/
theorem mem_dedup_iff_first?_arranged {strategy : Strategy} {edges : List Edge} {edge : Edge} :
    edge ∈ Edge.dedup edges ↔ Edge.first? edge.key (arranged strategy edges) = some edge := by
  rw [first?_arranged, Edge.mem_dedup]
  constructor
  · intro h
    obtain ⟨hl, hf⟩ := h
    rw [first?_proper hl, hf]
  · intro hf
    have hl : edge.isLoop = false := by
      simpa using (List.mem_filter.1 (Edge.mem_of_first? hf)).2
    exact ⟨hl, by rw [← first?_proper hl, hf]⟩

/-! ## What is stored -/

theorem mem_rows_foldl_addEdge {store : Store} {edges : List Edge} {row : Row} :
    row ∈ (edges.foldl addEdge store).rows ↔ row ∈ store.rows ∨
      row.key ∉ store.rows.map Row.key ∧
        ∃ edge, Edge.first? edge.key edges = some edge ∧ Row.ofEdge edge = row := by
  induction edges generalizing store with
  | nil => simp [Edge.first?]
  | cons head rest ih =>
      rw [List.foldl_cons, ih, rows_addEdge]
      simp only [Edge.first?_cons]
      split
      · next hm =>
          -- The key of the head is stored, so the head is the first of no new row.
          grind [Row.key_ofEdge_eq_iff]
      · next hm =>
          grind [Row.key_ofEdge_eq_iff]

theorem mem_paths_foldl_addEdge {store : Store} {edges : List Edge} {path : String} :
    path ∈ (edges.foldl addEdge store).paths ↔
      path ∈ store.paths ∨ ∃ edge ∈ edges, path = edge.source ∨ path = edge.target := by
  induction edges generalizing store with
  | nil => simp
  | cons head rest ih =>
      rw [List.foldl_cons, ih, mem_paths_addEdge]
      grind

theorem mem_rows_load {store : Store} {strategy : Strategy} {edges : List Edge} {row : Row} :
    row ∈ (store.load strategy edges).rows ↔ row ∈ store.rows ∨
      row.key ∉ store.rows.map Row.key ∧ ∃ edge ∈ Edge.dedup edges, Row.ofEdge edge = row := by
  rw [load_eq_foldl, mem_rows_foldl_addEdge]
  simp only [@mem_dedup_iff_first?_arranged strategy]

theorem mem_paths_load {store : Store} {strategy : Strategy} {edges : List Edge} {path : String} :
    path ∈ (store.load strategy edges).paths ↔ path ∈ store.paths ∨
      ∃ edge ∈ edges, edge.isLoop = false ∧ (path = edge.source ∨ path = edge.target) := by
  rw [load_eq_foldl, mem_paths_foldl_addEdge]
  simp only [mem_arranged, and_assoc]

theorem load_of_stored {store : Store} {strategy : Strategy} {edges : List Edge}
    (h : ∀ edge ∈ edges, edge.isLoop = false →
      (Row.ofEdge edge).key ∈ store.rows.map Row.key) : store.load strategy edges = store := by
  have hstored : ∀ edge ∈ arranged strategy edges, store.addEdge edge = store := by
    intro edge hm
    obtain ⟨hm, hl⟩ := mem_arranged.1 hm
    exact addEdge_of_mem (h edge hm hl)
  rw [load_eq_foldl]
  generalize arranged strategy edges = stored at hstored
  induction stored with
  | nil => rfl
  | cons head rest ih =>
      rw [List.foldl_cons, hstored head List.mem_cons_self]
      exact ih fun edge hm => hstored edge (List.mem_cons_of_mem head hm)

theorem key_mem_rows_load {store : Store} {strategy : Strategy} {edges : List Edge} {edge : Edge}
    (hm : edge ∈ edges) (hl : edge.isLoop = false) :
    (Row.ofEdge edge).key ∈ (store.load strategy edges).rows.map Row.key := by
  obtain ⟨kept, hk, hkey⟩ := List.mem_map.1 (Edge.mem_keys_dedup.2 ⟨edge, hm, hl, rfl⟩)
  rw [← Row.key_ofEdge_eq_iff.2 hkey]
  by_cases hstored : (Row.ofEdge kept).key ∈ store.rows.map Row.key
  · obtain ⟨row, hr, he⟩ := List.mem_map.1 hstored
    exact List.mem_map.2 ⟨row, mem_rows_load.2 (.inl hr), he⟩
  · exact List.mem_map_of_mem (mem_rows_load.2 (.inr ⟨hstored, kept, hk, rfl⟩))

/-- Edges that have been loaded change nothing when they are loaded again, in whatever way. -/
theorem load_load (store : Store) (strategy again : Strategy) (edges : List Edge) :
    (store.load strategy edges).load again edges = store.load strategy edges :=
  load_of_stored fun _ hm hl => key_mem_rows_load hm hl

end Store

end CodeAtlas.Graph
