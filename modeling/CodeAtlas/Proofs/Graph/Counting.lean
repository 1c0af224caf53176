import CodeAtlas.Graph.EdgeList
import CodeAtlas.Proofs.Graph.Strategies
import Mathlib

/-!
# Counting laws

The statistics of a graph count its edges by relation. The same edges are counted when one goes
through the files and looks at what leaves each of them, or at what reaches it: an edge has one
source and one target, and both are files of the graph. So the numbers agree after every history,
and after a load into an empty graph they are those of the list that was loaded.
-/

namespace CodeAtlas.Graph

open Text.Utf8

/-! ## Sums over files -/

/-- Items are counted by what they are sorted under, if all of that is listed, and only once. -/
theorem sum_countP_eq_length {α β : Type} [DecidableEq β] {keys : List β} {items : List α}
    {key : α → β} (hn : keys.Nodup) (h : ∀ item ∈ items, key item ∈ keys) :
    (keys.map fun value => items.countP fun item => key item = value).sum = items.length := by
  have hcount (value : β) : (items.countP fun item => key item = value) =
      (items.map key : Multiset β).count value := by
    rw [Multiset.coe_count, List.count, List.countP_map]
    exact List.countP_congr fun item _ => by simp
  have hall : ∀ value ∈ (items.map key : Multiset β), value ∈ keys.toFinset := by
    intro value hm
    obtain ⟨item, hi, rfl⟩ := List.mem_map.1 (Multiset.mem_coe.1 hm)
    exact List.mem_toFinset.2 (h item hi)
  calc (keys.map fun value => items.countP fun item => key item = value).sum
      = ∑ value ∈ keys.toFinset, (items.map key : Multiset β).count value := by
        rw [List.sum_toFinset _ hn]
        exact congrArg List.sum (List.map_congr_left fun value _ => hcount value)
    _ = items.length := by rw [Multiset.sum_count_eq_card hall, Multiset.coe_card, List.length_map]

/-! ## Statistics -/

/-- The numbers of a graph with these files and these edges. -/
structure Stats.Describes (stats : Stats) (paths : List String) (edges : List Edge) : Prop where
  files : stats.files = paths.length
  mem_counts_iff : ∀ entry, entry ∈ stats.counts ↔ ∃ relation : Relation,
    entry = ⟨relation.name, edges.countP fun edge => edge.relation = relation⟩ ∧ 0 < entry.count
  nodup : (stats.counts.map RelationCount.relation).Nodup
  ordered : stats.counts.Pairwise fun left right => right.count < left.count ∨
    left.count = right.count ∧ encode left.relation < encode right.relation
  totalEdges : stats.totalEdges = edges.length

namespace RelationCount

theorem order_eq_lt_iff {left right : RelationCount} : order left right = .lt ↔
    right.count < left.count ∨
      left.count = right.count ∧ encode left.relation < encode right.relation := by
  rw [order, Ordering.then_eq_lt, Nat.compare_eq_lt, Nat.compare_eq_eq, compare_eq_lt_iff, eq_comm]

end RelationCount

namespace Store

variable {store : Store} {edges : List Edge}

theorem length_filePaths (store : Store) : store.filePaths.length = store.files.length := by
  rw [filePaths, List.length_mergeSort, paths, List.length_map]

theorem nodup_filePaths (store : Store) : store.filePaths.Nodup :=
  (List.mergeSort_perm _ _).nodup_iff.2 store.paths_nodup

/-- Every relation text of the table is listed with the number of its edges, and no other. -/
theorem mem_counts_stats {entry : RelationCount} : entry ∈ store.stats.counts ↔
    entry.count = (store.edges.countP fun edge => edge.relation = entry.relation) ∧
      0 < entry.count := by
  have htexts : entry.relation ∈ store.relationTexts ↔
      0 < store.edges.countP fun edge => edge.relation = entry.relation := by
    simp [relationTexts, List.countP_pos_iff]
  rw [stats, Stats.ofCounts, List.mem_mergeSort, List.mem_map]
  constructor
  · rintro ⟨text, hm, rfl⟩
    exact ⟨rfl, htexts.1 hm⟩
  · rintro ⟨hcount, hpos⟩
    refine ⟨entry.relation, htexts.2 (hcount ▸ hpos), ?_⟩
    rw [← hcount]

theorem nodup_relations_stats (store : Store) :
    (store.stats.counts.map RelationCount.relation).Nodup := by
  have hp : (store.stats.counts.map RelationCount.relation).Perm store.relationTexts := by
    refine ((List.mergeSort_perm _ _).map RelationCount.relation).trans ?_
    rw [List.map_map]
    exact (List.map_id' store.relationTexts).symm ▸ .refl _
  exact hp.nodup_iff.2 (nodup_eraseDups _)

theorem pairwise_counts_stats (store : Store) : store.stats.counts.Pairwise
    fun left right => RelationCount.order left right = .lt := by
  refine pairwise_lt_mergeSort ?_
  rw [List.pairwise_map]
  refine (nodup_eraseDups _).imp fun hne he => hne ?_
  exact (RelationCount.mk.inj (RelationCount.order_eq_eq_iff.1 he)).1

namespace Holds

theorem exists_name_of_countP_pos (h : store.Holds edges) {text : String}
    (hpos : 0 < store.edges.countP fun edge => edge.relation = text) :
    ∃ relation : Relation, relation.name = text := by
  obtain ⟨edge, hm, he⟩ := List.countP_pos_iff.1 hpos
  have hname := h.perm_relations.mem_iff.1 (List.mem_map.2 ⟨edge, hm, rfl⟩)
  obtain ⟨kept, -, hkept⟩ := List.mem_map.1 hname
  exact ⟨kept.relation, hkept.trans (of_decide_eq_true he)⟩

theorem describes_stats (h : store.Holds edges) {exported : List Edge}
    (hp : exported.Perm (Edge.dedup edges)) :
    store.stats.Describes store.filePaths exported where
  files := store.length_filePaths.symm
  mem_counts_iff entry := by
    rw [mem_counts_stats]
    constructor
    · rintro ⟨hcount, hpos⟩
      obtain ⟨relation, hname⟩ := h.exists_name_of_countP_pos (hcount ▸ hpos)
      refine ⟨relation, ?_, hpos⟩
      rw [← hname, h.countP_relation, ← hp.countP_eq] at hcount
      rw [← hcount, hname]
    · rintro ⟨relation, rfl, hpos⟩
      refine ⟨?_, hpos⟩
      rw [h.countP_relation, hp.countP_eq]
  nodup := store.nodup_relations_stats
  ordered := store.pairwise_counts_stats.imp RelationCount.order_eq_lt_iff.1
  totalEdges := h.totalEdges_stats.trans hp.length_eq.symm

/-! ## Rows of all files -/

theorem exists_rows (h : store.Holds edges) {direction : Direction} (hd : direction ≠ .both) :
    ∃ rows : String → List Neighbor,
      (∀ path, store.neighbors path direction = .ok (rows path)) ∧
      (store.filePaths.map fun path => (rows path).length).sum = store.stats.totalEdges := by
  have hmem (path : String) : path ∈ store.filePaths ↔
      ∃ edge ∈ Edge.dedup edges, path = edge.source ∨ path = edge.target :=
    (store.filePaths_sorted.2 path).trans (h.mem_paths path)
  rw [h.totalEdges_stats]
  cases direction with
  | both => exact absurd rfl hd
  | outgoing =>
      choose rows hrows hperm using h.neighbors_outgoing
      refine ⟨rows, hrows, ?_⟩
      rw [← sum_countP_eq_length store.nodup_filePaths fun edge hm =>
        (hmem edge.source).2 ⟨edge, hm, .inl rfl⟩]
      refine congrArg List.sum (List.map_congr_left fun path _ => ?_)
      rw [(hperm path).length_eq, List.length_map, ← List.countP_eq_length_filter]
  | incoming =>
      choose rows hrows hperm using h.neighbors_incoming
      refine ⟨rows, hrows, ?_⟩
      rw [← sum_countP_eq_length store.nodup_filePaths fun edge hm =>
        (hmem edge.target).2 ⟨edge, hm, .inr rfl⟩]
      refine congrArg List.sum (List.map_congr_left fun path _ => ?_)
      rw [(hperm path).length_eq, List.length_map, ← List.countP_eq_length_filter]

end Holds

end Store

/-! ## Local graphs after operations -/

namespace Operation

variable {opened : Handle.Opened} {store : Store}

theorem hasStore_after (h : Handle.HasStore opened store) (operation : Operation) :
    Handle.HasStore (operation.after opened) (operation.onStore store) := by
  cases operation with
  | load edges strategy =>
      obtain ⟨next, hp, hn⟩ := Handle.perform_load h edges strategy
      rw [after, action, Action.perform_forget, hp]
      exact hn
  | loadWithFallback edges =>
      obtain ⟨next, hp, hn⟩ := Handle.perform_load h edges .generic
      rw [after, action, Action.perform_forget, perform_loadWithFallback, hp]
      exact hn
  | clear =>
      obtain ⟨next, hp, hn⟩ := Handle.perform_clear h
      rw [after, action, hp]
      exact hn
  | neighbors file direction =>
      rw [after, action, Action.perform_forget, Handle.perform_neighbors h]
      exact h
  | stats =>
      rw [after, action, Action.perform_forget, Handle.perform_stats h]
      exact h
  | close =>
      obtain ⟨handle, workspace⟩ := opened
      obtain ⟨database, rfl, hstore⟩ := h
      exact ⟨database, rfl, hstore⟩

/-- After any operations a local graph holds what has been loaded since it was last cleared. -/
theorem exists_hasStore_afterAll (operations : List Operation) {edges : List Edge}
    (h : Handle.HasStore opened store) (hs : store.Holds edges) :
    ∃ last : Store, Handle.HasStore (afterAll operations opened) last ∧
      last.Holds (operations.foldl loaded edges) := by
  induction operations generalizing opened store edges with
  | nil => exact ⟨store, h, hs⟩
  | cons operation rest ih =>
      rw [afterAll, List.foldl_cons, List.foldl_cons]
      exact ih (hasStore_after h operation) (hs.onStore operation)

end Operation

/-! ## Lists that are loaded -/

theorem lookup_map {α β : Type} [DecidableEq α] (value : α → β) (keys : List α) (key : α) :
    (keys.map fun key => (key, value key)).lookup key =
      if key ∈ keys then some (value key) else none := by
  induction keys with
  | nil => rfl
  | cons first rest ih =>
      rw [List.map_cons, List.lookup_cons, ih]
      by_cases he : key = first
      · simp [he]
      · have hne : (key == first) = false := by simpa using he
        simp [he, hne]

namespace EdgeList

/-- Each relation is looked up under the number of its edges, and one that does not occur is not
listed. -/
theorem lookup_counts (list : EdgeList) (relation : Relation) :
    (list.counts.lookup relation).getD 0 = list.count relation := by
  have hcounts : list.counts = (Relation.all.filter fun relation => list.count relation ≠ 0).map
      fun relation => (relation, list.count relation) := by
    rw [counts, List.filter_map]
    rfl
  rw [hcounts, lookup_map]
  by_cases hzero : list.count relation = 0 <;> simp [hzero, Relation.mem_all]

end EdgeList

/-! ## The laws -/

/-- The statistics of an open graph are the numbers of a list. -/
def Handle.Tallies (opened : Handle.Opened) (list : EdgeList) : Prop :=
  ∃ stats, Handle.stats.perform opened = (.ok stats, opened) ∧ stats.totalEdges = list.size ∧
    ∀ relation, stats.count relation = (list.counts.lookup relation).getD 0

theorem Handle.tallies_of_loads {opened : Handle.Opened} (h : Handle.HasStore opened .empty)
    {list : EdgeList} {operation : Operation} (hl : operation.Loads list.edges) :
    Handle.Tallies (operation.after opened) list := by
  obtain ⟨strategy, next, hp, hn⟩ := hl.perform_action h
  have hholds : (Store.empty.load strategy list.edges).Holds list.edges :=
    Store.holds_empty.load strategy list.edges
  have hnext : operation.after opened = next := congrArg Prod.snd hp
  rw [hnext]
  refine ⟨_, Handle.perform_stats hn, ?_, fun relation => ?_⟩
  · rw [hholds.totalEdges_stats, list.distinct, EdgeList.size]
  · rw [hholds.count_stats, list.distinct, EdgeList.lookup_counts, EdgeList.count]

/-- Of a local graph that was empty once, statistics give the number of files, and for each relation
that occurs among the exported edges how many of these have it, in a strict order; their total is
the number of rows at all files in either direction. After a list has been loaded into a graph that
is empty or has just been cleared, in whatever way, the numbers are those of the list. -/
theorem stats_of_history :
    (∀ (operations : List Operation) (opened : Handle.Opened), Handle.HasStore opened .empty →
      let last := Operation.afterAll operations opened
      ∃ (store : Store) (exported : List Edge), Handle.HasStore last store ∧
        Handle.stats.perform last = (.ok store.stats, last) ∧
        store.exported = .ok exported ∧
        store.stats.Describes store.filePaths exported ∧
        ∀ direction ≠ .both, ∃ rows : String → List Neighbor,
          (∀ path, (Handle.neighbors path direction).perform last = (.ok (rows path), last)) ∧
          (store.filePaths.map fun path => (rows path).length).sum = store.stats.totalEdges) ∧
    ∀ (list : EdgeList) (operation : Operation), operation.Loads list.edges →
      ∀ (opened : Handle.Opened) (store : Store), Handle.HasStore opened store →
        (store = .empty → Handle.Tallies (operation.after opened) list) ∧
        Handle.Tallies (Operation.afterAll [.clear, operation] opened) list := by
  constructor
  · intro operations opened h last
    obtain ⟨store, hstore, hholds⟩ :=
      Operation.exists_hasStore_afterAll operations h Store.holds_empty
    obtain ⟨exported, hexported, hperm, -⟩ := hholds.exported_eq
    refine ⟨store, exported, hstore, Handle.perform_stats hstore, hexported,
      hholds.describes_stats hperm, fun direction hd => ?_⟩
    obtain ⟨rows, hrows, hsum⟩ := hholds.exists_rows hd
    refine ⟨rows, fun path => ?_, hsum⟩
    rw [Handle.perform_neighbors hstore, hrows]
  · intro list operation hl opened store h
    refine ⟨?_, Handle.tallies_of_loads (Operation.hasStore_after h .clear) hl⟩
    rintro rfl
    exact Handle.tallies_of_loads h hl

/-- A database with a file that nothing has been stored in. -/
def Handle.sampleOpened : Handle.Opened := (.database (.stored 0), { databases := [some .empty] })

/-- Edges are loaded one way and cleared again, and then others are loaded another way, some of them
twice and one from a file to itself. -/
def Operation.sampleHistory : List Operation :=
  [.load [⟨"x.py", "y.py", .inherits, some "X inherits Y"⟩] .generic, .stats, .clear,
    .load [⟨"a.py", "b.py", .imports, none⟩, ⟨"c.py", "c.py", .imports, none⟩] .perRelation,
    .loadWithFallback [⟨"a.py", "b.py", .imports, some "again"⟩, ⟨"b.py", "a.py", .imports, none⟩],
    .neighbors "a.py" .both, .close]

def EdgeList.sampleList : EdgeList :=
  .ofEdges [⟨"a.py", "b.py", .imports, none⟩, ⟨"a.py", "b.py", .inherits, some "A inherits B"⟩,
    ⟨"b.py", "c.py", .imports, none⟩, ⟨"a.py", "b.py", .imports, none⟩]

theorem stats_of_history_sampleHistory :
    let opened := Operation.afterAll Operation.sampleHistory Handle.sampleOpened
    let operation := Operation.loadWithFallback EdgeList.sampleList.edges
    Handle.HasStore Handle.sampleOpened .empty ∧
    operation.Loads EdgeList.sampleList.edges ∧
    (∃ (store : Store) (exported : List Edge), Handle.HasStore opened store ∧
      store.exported = .ok exported ∧ store.stats.Describes store.filePaths exported) ∧
    ∃ stats, Handle.stats.perform (Operation.afterAll [.clear, operation] opened) =
        (.ok stats, Operation.afterAll [.clear, operation] opened) ∧
      stats.totalEdges = 3 ∧ stats.count .imports = 2 ∧ stats.count .instantiates = 0 := by
  intro opened operation
  have hempty : Handle.HasStore Handle.sampleOpened .empty := ⟨.stored 0, rfl, rfl⟩
  have hloads : operation.Loads EdgeList.sampleList.edges := .loadWithFallback
  obtain ⟨store, exported, hstore, -, hexported, hdescribes, -⟩ :=
    stats_of_history.1 Operation.sampleHistory Handle.sampleOpened hempty
  obtain ⟨stats, hstats, htotal, hcount⟩ :=
    (stats_of_history.2 EdgeList.sampleList operation hloads opened store hstore).2
  refine ⟨hempty, hloads, ⟨store, exported, hstore, hexported, hdescribes⟩, stats, hstats, ?_, ?_,
    ?_⟩
  · rw [htotal]
    decide
  · rw [hcount]
    decide
  · rw [hcount]
    decide

end CodeAtlas.Graph
