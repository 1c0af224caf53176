import CodeAtlas.Proofs.Graph.History
import CodeAtlas.Proofs.Graph.Neighbors

/-!
# Strategies

Whether edges are loaded in one pass or relation by relation does not show. The two strategies give
new files other numbers and store new edges in another order, but the rows and the files are the
same in the end. As all that is added has a known relation, the rows that cannot be read keep their
order as well, and so does the first of them, which decides how a question fails. Stores that agree
in this much give the same answers, and still agree after whatever is done with both of them.
-/

namespace CodeAtlas.Graph

namespace StoredEdge

instance : Std.TransCmp order :=
  inferInstanceAs (Std.TransCmp (compareLex (compareOn source)
    (compareLex (compareOn target) (compareOn relation))))

theorem order_eq_eq_iff {left right : StoredEdge} : order left right = .eq ↔
    left.key = right.key := by
  simp [order, key, Ordering.then_eq_eq]

def unknowns (edges : List StoredEdge) : List StoredEdge :=
  edges.filter fun edge => ¬ Relation.IsName edge.relation

end StoredEdge

namespace RelationCount

instance : Std.TransCmp order :=
  inferInstanceAs (Std.TransCmp (compareLex (fun left right => compareOn count right left)
    (compareOn relation)))

theorem order_eq_eq_iff {left right : RelationCount} : order left right = .eq ↔ left = right := by
  cases left
  cases right
  simp [order, Ordering.then_eq_eq]
  grind

end RelationCount

theorem Stats.ofCounts_eq_of_perm {left right : List RelationCount} (h : left.Perm right)
    (files : Nat) : ofCounts files left = ofCounts files right :=
  congrArg (Stats.mk files)
    (mergeSort_eq_of_perm h fun _ _ _ _ he => RelationCount.order_eq_eq_iff.1 he)

namespace Store

/-! ## What loading leaves as it was -/

/-- Files keep their numbers, and behind the edges that were there stand edges with known relations.
-/
structure Extends (store next : Store) : Prop where
  files : store.files ⊆ next.files
  edges : ∃ added, next.edges = store.edges ++ added ∧
    ∀ edge ∈ added, Relation.IsName edge.relation

namespace Extends

variable {store middle next : Store}

theorem refl (store : Store) : store.Extends store where
  files := List.Subset.refl _
  edges := ⟨[], (List.append_nil _).symm, by simp⟩

theorem trans (h : store.Extends middle) (hn : middle.Extends next) : store.Extends next where
  files := List.Subset.trans h.files hn.files
  edges := by
    obtain ⟨first, hf, hfirst⟩ := h.edges
    obtain ⟨second, hs, hsecond⟩ := hn.edges
    refine ⟨first ++ second, by rw [hs, hf, List.append_assoc], fun edge hm => ?_⟩
    exact (List.mem_append.1 hm).elim (hfirst edge) (hsecond edge)

theorem addFile (store : Store) (path : String) : store.Extends (store.addFile path) := by
  unfold Store.addFile
  split
  · exact refl store
  · exact ⟨List.subset_append_left _ _, [], (List.append_nil _).symm, by simp⟩

theorem addRow (store : Store) {row : Row} (h : row.IsKnown) :
    store.Extends (store.addRow row) := by
  unfold Store.addRow
  split
  · unfold Store.connect
    dsimp only
    split
    · exact refl store
    · refine ⟨List.Subset.refl _, _, rfl, fun edge hm => ?_⟩
      rw [List.mem_singleton.1 hm]
      exact h
  · exact refl store

theorem addEdge (store : Store) (edge : Edge) : store.Extends (store.addEdge edge) :=
  ((addFile store edge.source).trans (addFile _ edge.target)).trans
    (addRow _ (Relation.isName_name edge.relation))

theorem load (store : Store) (strategy : Strategy) (edges : List Edge) :
    store.Extends (store.load strategy edges) := by
  rw [load_eq_foldl]
  generalize arranged strategy edges = stored
  induction stored generalizing store with
  | nil => exact refl store
  | cons edge rest ih => exact (addEdge store edge).trans (ih (store.addEdge edge))

theorem row? (h : store.Extends next) {edge : StoredEdge} (hm : edge ∈ store.edges) :
    next.row? edge = store.row? edge := by
  obtain ⟨row, hr⟩ := Option.isSome_iff_exists.1 (row?_isSome hm)
  obtain ⟨hs, ht, hrest⟩ := row?_eq_some_iff.1 hr
  have keeps {number : Nat} {path : String} (hp : store.pathOf? number = some path) :
      next.pathOf? number = some path := by
    obtain ⟨file, hf, hfile⟩ := pathOf?_eq_some_iff.1 hp
    exact pathOf?_eq_some_iff.2 ⟨file, h.files hf, hfile⟩
  rw [hr]
  exact row?_eq_some_iff.2 ⟨keeps hs, keeps ht, hrest⟩

theorem unknowns_edges (h : store.Extends next) :
    StoredEdge.unknowns next.edges = StoredEdge.unknowns store.edges := by
  obtain ⟨added, he, hadded⟩ := h.edges
  have hnone : StoredEdge.unknowns added = [] :=
    List.filter_eq_nil_iff.2 fun edge hm => by simpa using hadded edge hm
  rw [he, StoredEdge.unknowns, List.filter_append]
  exact (congrArg _ hnone).trans (List.append_nil _)

end Extends

/-! ## Rows that cannot be read -/

variable {store next left right : Store} {path : String}

theorem unknowns_filterMap_row? (edges : List StoredEdge) :
    Row.unknowns (edges.filterMap store.row?) =
      (StoredEdge.unknowns edges).filterMap store.row? := by
  rw [Row.unknowns, StoredEdge.unknowns, List.filter_filterMap, List.filterMap_filter]
  congr 1
  funext edge
  cases hr : store.row? edge with
  | none => simp
  | some row =>
      have hrelation : edge.relation = row.relation := (row?_eq_some_iff.1 hr).2.2.1
      by_cases hk : Relation.IsName row.relation <;>
        simp [Option.filter, Row.IsKnown, hrelation, hk]

theorem unknowns_rowsTo (store : Store) (path : String) : Row.unknowns (store.rowsTo path) =
    ((StoredEdge.unknowns store.edges).filterMap store.row?).filter fun row =>
      row.target = path := by
  rw [rowsTo, Row.unknowns, List.filter_comm, rows]
  exact congrArg _ (unknowns_filterMap_row? store.edges)

theorem unknowns_rowsFrom (store : Store) (path : String) : Row.unknowns (store.rowsFrom path) =
    ((((StoredEdge.unknowns store.edges).mergeSort fun a b =>
      (StoredEdge.order a b).isLE)).filterMap store.row?).filter fun row => row.source = path := by
  have hsort : StoredEdge.unknowns (store.edges.mergeSort fun a b => (StoredEdge.order a b).isLE) =
      (StoredEdge.unknowns store.edges).mergeSort fun a b => (StoredEdge.order a b).isLE := by
    refine filter_mergeSort _ fun a ha b hb he => ?_
    exact List.inj_on_of_nodup_map store.keys_nodup ha hb (StoredEdge.order_eq_eq_iff.1 he)
  rw [rowsFrom, Row.unknowns, List.filter_comm, ← hsort]
  exact congrArg _ (unknowns_filterMap_row? _)

namespace Extends

theorem filterMap_row? (h : store.Extends next) {edges : List StoredEdge}
    (hs : edges ⊆ store.edges) : edges.filterMap next.row? = edges.filterMap store.row? :=
  List.filterMap_congr fun _ hm => h.row? (hs hm)

theorem rowsTo (h : store.Extends next) (path : String) :
    Row.unknowns (next.rowsTo path) = Row.unknowns (store.rowsTo path) := by
  rw [unknowns_rowsTo, unknowns_rowsTo, h.unknowns_edges, h.filterMap_row?]
  exact List.filter_subset_self _

theorem rowsFrom (h : store.Extends next) (path : String) :
    Row.unknowns (next.rowsFrom path) = Row.unknowns (store.rowsFrom path) := by
  rw [unknowns_rowsFrom, unknowns_rowsFrom, h.unknowns_edges, h.filterMap_row?]
  intro edge hm
  exact (List.mem_filter.1 (List.mem_mergeSort.1 hm)).1

end Extends

/-! ## Stores that agree -/

/-- The stores have the same rows and files, and meet the rows that cannot be read in one order. -/
structure Alike (left right : Store) : Prop where
  rows : left.rows.Perm right.rows
  paths : left.paths.Perm right.paths
  leaving : ∀ path, Row.unknowns (left.rowsFrom path) = Row.unknowns (right.rowsFrom path)
  reaching : ∀ path, Row.unknowns (left.rowsTo path) = Row.unknowns (right.rowsTo path)

namespace Alike

theorem refl (store : Store) : store.Alike store := ⟨.refl _, .refl _, fun _ => rfl, fun _ => rfl⟩

/-- Stores that agree do so after a load, even if each is loaded by a strategy of its own. -/
theorem load (h : left.Alike right) (first second : Strategy) (edges : List Edge) :
    (left.load first edges).Alike (right.load second edges) where
  rows := by
    rw [List.perm_ext_iff_of_nodup (nodup_rows _) (nodup_rows _)]
    intro row
    rw [mem_rows_load, mem_rows_load, h.rows.mem_iff, (h.rows.map Row.key).mem_iff]
  paths := by
    refine (List.perm_ext_iff_of_nodup (Store.paths_nodup _) (Store.paths_nodup _)).2 fun path => ?_
    exact mem_paths_load.trans ((or_congr_left h.paths.mem_iff).trans mem_paths_load.symm)
  leaving path := by
    rw [(Extends.load left first edges).rowsFrom, (Extends.load right second edges).rowsFrom,
      h.leaving]
  reaching path := by
    rw [(Extends.load left first edges).rowsTo, (Extends.load right second edges).rowsTo,
      h.reaching]

theorem onStore (h : left.Alike right) (operation : Operation) :
    (operation.onStore left).Alike (operation.onStore right) := by
  cases operation with
  | load edges strategy => exact h.load strategy strategy edges
  | loadWithFallback edges => exact h.load .generic .generic edges
  | clear => exact refl empty
  | neighbors file direction => exact h
  | stats => exact h
  | close => exact h

theorem foldl_onStore (h : left.Alike right) (operations : List Operation) :
    (operations.foldl (fun store operation => operation.onStore store) left).Alike
      (operations.foldl (fun store operation => operation.onStore store) right) := by
  induction operations generalizing left right with
  | nil => exact h
  | cons operation rest ih => exact ih (h.onStore operation)

end Alike

/-! ## Equal answers -/

/-- The stores give the same answer to every question, errors included. -/
structure SameAnswers (left right : Store) : Prop where
  exported : left.exported = right.exported
  filePaths : left.filePaths = right.filePaths
  stats : left.stats = right.stats
  neighbors : ∀ path direction, left.neighbors path direction = right.neighbors path direction

/-- What is read of rows and then sorted depends on them, and on the first that cannot be read. -/
theorem Row.sort_mapM_look_congr {far : Row → String} {direction : Direction}
    {first second : List Row} (hp : first.Perm second)
    (hu : Row.unknowns first = Row.unknowns second) :
    (first.mapM (Row.look far direction)).map Neighbor.sort =
      (second.mapM (Row.look far direction)).map Neighbor.sort := by
  cases h : Row.unknowns first with
  | cons row more => rw [Row.mapM_look_of_unknown h, Row.mapM_look_of_unknown (hu ▸ h)]
  | nil =>
      obtain ⟨edges, rfl, hfirst⟩ := @Row.mapM_look_of_known far direction _ h
      obtain ⟨others, rfl, hsecond⟩ := @Row.mapM_look_of_known far direction _ (hu ▸ h)
      have hedges : edges.Perm others := (List.map_perm_map_iff Row.ofEdge_injective).1 hp
      rw [hfirst, hsecond]
      exact congrArg Except.ok (Neighbor.sort_eq_of_perm (hedges.map _))

theorem stats_eq (store : Store) : store.stats = Stats.ofCounts store.paths.length
    ((store.rows.map Row.relation).eraseDups.map fun text =>
      ⟨text, (store.rows.map Row.relation).count text⟩) := by
  rw [relations_rows, stats, paths, List.length_map]
  refine congrArg _ (List.map_congr_left fun text _ => ?_)
  rw [List.count, List.countP_map]
  rfl

namespace Alike

theorem neighbors_outgoing (h : left.Alike right) (path : String) :
    left.neighbors path .outgoing = right.neighbors path .outgoing := by
  rw [neighbors_outgoing_eq, neighbors_outgoing_eq]
  refine Row.sort_mapM_look_congr ?_ (h.leaving path)
  exact (left.perm_rowsFrom path).trans ((h.rows.filter _).trans (right.perm_rowsFrom path).symm)

theorem neighbors_incoming (h : left.Alike right) (path : String) :
    left.neighbors path .incoming = right.neighbors path .incoming := by
  rw [neighbors_incoming_eq, neighbors_incoming_eq]
  exact Row.sort_mapM_look_congr (h.rows.filter _) (h.reaching path)

theorem stats (h : left.Alike right) : left.stats = right.stats := by
  have hrelations := h.rows.map Row.relation
  have hcount (text : String) := hrelations.count_eq text
  rw [stats_eq, stats_eq, h.paths.length_eq]
  simp only [hcount]
  apply Stats.ofCounts_eq_of_perm
  refine List.Perm.map _ ?_
  exact (perm_eraseDups _).trans (hrelations.dedup.trans (perm_eraseDups _).symm)

theorem sameAnswers (h : left.Alike right) : left.SameAnswers right where
  exported := by
    have hrows := mergeSort_eq_of_perm h.rows fun a ha b hb he =>
      List.inj_on_of_nodup_map left.nodup_keys_rows ha hb (Row.order_eq_eq_iff.1 he)
    rw [exported, hrows, ← exported]
  filePaths := mergeSort_eq_of_perm h.paths fun _ _ _ _ he => Std.LawfulEqOrd.eq_of_compare he
  stats := h.stats
  neighbors path direction := by
    cases direction with
    | outgoing => exact h.neighbors_outgoing path
    | incoming => exact h.neighbors_incoming path
    | both => rw [neighbors_both_eq, neighbors_both_eq, h.neighbors_outgoing, h.neighbors_incoming]

end Alike

theorem eq_of_key_eq_of_load {strategy : Strategy} {edges : List Edge} {row other : Row}
    (h : row ∈ store.rows) (ho : other ∈ (store.load strategy edges).rows)
    (hk : other.key = row.key) : other = row :=
  List.inj_on_of_nodup_map (nodup_keys_rows _) ho (mem_rows_load.2 (.inl h)) hk

end Store

/-! ## Loading without one pass -/

/-- Loads relation by relation alone. To load in one pass is refused and changes nothing. -/
def withoutOnePass {σ : Type} (what : String) (load : Strategy → Action σ LoadSummary) :
    Strategy → Action σ LoadSummary
  | .generic => Action.ofResult (.error (.unsupported what))
  | .perRelation => load .perRelation

theorem perform_loadWithFallback_withoutOnePass {σ : Type} (what : String)
    (load : Strategy → Action σ LoadSummary) (state : σ) :
    (loadWithFallback (withoutOnePass what load)).perform state =
      (load .perRelation).perform state := rfl

namespace Store

/-- In whatever way edges are loaded into a graph, and also if it refuses to load in one pass, it
gives the same answers afterwards, errors included, and still does after any operations that
follow. What was stored before is stored as it was, with its note. -/
theorem sameAnswers_of_load {opened : Handle.Opened} {store : Store}
    (h : Handle.HasStore opened store) (edges : List Edge) (what : String) :
    (store.load .generic edges).SameAnswers (store.load .perRelation edges) ∧
    (∀ strategy, ∀ row ∈ store.rows, row ∈ (store.load strategy edges).rows ∧
      ∀ other ∈ (store.load strategy edges).rows, other.key = row.key → other = row) ∧
    ∃ accepting refusing,
      (loadWithFallback (Handle.load edges)).perform opened =
        (.ok ⟨edges.length, .generic⟩, accepting) ∧
      (loadWithFallback (withoutOnePass what (Handle.load edges))).perform opened =
        (.ok ⟨edges.length, .perRelation⟩, refusing) ∧
      Handle.HasStore accepting (store.load .generic edges) ∧
      Handle.HasStore refusing (store.load .perRelation edges) ∧
      ∀ operations : List Operation,
        (operations.foldl (fun store operation => operation.onStore store)
          (store.load .generic edges)).SameAnswers
        (operations.foldl (fun store operation => operation.onStore store)
          (store.load .perRelation edges)) := by
  have halike : (store.load .generic edges).Alike (store.load .perRelation edges) :=
    (Alike.refl store).load .generic .perRelation edges
  obtain ⟨accepting, haccept, hstore⟩ := Handle.perform_load h edges .generic
  obtain ⟨refusing, hrefuse, hother⟩ := Handle.perform_load h edges .perRelation
  refine ⟨halike.sameAnswers, fun strategy row hm => ?_, accepting, refusing, ?_, ?_, hstore,
    hother, fun operations => (halike.foldl_onStore operations).sameAnswers⟩
  · exact ⟨mem_rows_load.2 (.inl hm), fun other ho hk => eq_of_key_eq_of_load hm ho hk⟩
  · rw [perform_loadWithFallback, haccept]
  · rw [perform_loadWithFallback_withoutOnePass, hrefuse]

/-- Edges of two new files, and one that `sampleStore` has without a note. -/
def sampleEdges : List Edge :=
  [⟨"d.py", "a.py", .instantiates, none⟩, ⟨"e.py", "b.py", .imports, none⟩,
    ⟨"a.py", "b.py", .imports, some "import b"⟩]

theorem sameAnswers_of_sampleEdges :
    Handle.HasStore (.database (.stored 0), { databases := [some sampleStore] }) sampleStore ∧
    sampleStore.load .generic sampleEdges ≠ sampleStore.load .perRelation sampleEdges ∧
    (sampleStore.load .generic sampleEdges).SameAnswers
      (sampleStore.load .perRelation sampleEdges) ∧
    ∀ other ∈ (sampleStore.load .generic sampleEdges).rows,
      other.key = ("a.py", "b.py", "IMPORTS") → other.note = none := by
  have hstore : Handle.HasStore (.database (.stored 0), { databases := [some sampleStore] })
      sampleStore := ⟨.stored 0, rfl, rfl⟩
  obtain ⟨hsame, hkept, -⟩ := sameAnswers_of_load hstore sampleEdges "one pass"
  refine ⟨hstore, by decide, hsame, fun other ho hk => ?_⟩
  rw [(hkept .generic ⟨"a.py", "b.py", "IMPORTS", none⟩ (by decide)).2 other ho hk]

end Store

end CodeAtlas.Graph
