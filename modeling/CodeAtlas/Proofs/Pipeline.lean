import CodeAtlas.Batch
import CodeAtlas.Proofs.Extraction.Edges
import CodeAtlas.Proofs.Graph.EdgeFile
import CodeAtlas.Proofs.Graph.Operation
import CodeAtlas.Proofs.Graph.Queries

/-!
# From a tree to its graph

The edges of the files of a tree are extracted, written to a file, read from there and loaded. None
is lost on the way and none is added: the graph answers from the edges that come of each file.
-/

namespace CodeAtlas

open CodeAtlas.Extraction CodeAtlas.Graph

/-! ## Extracted edges -/

theorem Batch.flatten_results_ofFiles {α : Type} (files : List String)
    (work : String → Result (List α)) : (ofFiles files work).results.flatten =
      files.flatMap fun file => (work file).toOption.getD [] := by
  rw [results, ofFiles, List.filterMap_map]
  change (files.filterMap fun file => (work file).toOption).flatten = _
  induction files with
  | nil => rfl
  | cons file rest ih => cases hw : (work file).toOption <;> simp [hw, ih]

namespace SourceTree

variable {tree : SourceTree} {convention : Convention} {file : String} {files : List String}

/-- The edges of a file; none if it cannot be extracted. -/
def emitted (tree : SourceTree) (convention : Convention) (file : String) : List Edge :=
  (tree.extract convention file).toOption.getD []

/-- A file is extracted, and there is an edge from it to another one. -/
def Emits (tree : SourceTree) (convention : Convention) (file target : String)
    (relation : Relation) : Prop :=
  ∃ edges, tree.extract convention file = .ok edges ∧
    ∃ edge ∈ edges, edge.source = file ∧ edge.target = target ∧ edge.relation = relation

theorem mem_emitted {edge : Edge} : edge ∈ tree.emitted convention file ↔
    ∃ edges, tree.extract convention file = .ok edges ∧ edge ∈ edges := by
  unfold emitted
  cases tree.extract convention file <;> simp [Except.toOption]

theorem extract_eq_ok_iff {edges : List Edge} : tree.extract convention file = .ok edges ↔
    ∃ content, tree.read file = .ok content ∧
      ofContent tree convention file content = .ok edges := by
  unfold extract
  cases tree.read file <;> simp [bind, Except.bind]

theorem grounded_of_mem_emitted {edge : Edge} (h : edge ∈ tree.emitted convention file) :
    Grounded tree file edge := by
  obtain ⟨edges, he, hm⟩ := mem_emitted.1 h
  obtain ⟨content, -, hc⟩ := extract_eq_ok_iff.1 he
  exact grounded_of_mem_ofContent hc hm

theorem nodup_keys_emitted : ((tree.emitted convention file).map Edge.key).Nodup := by
  unfold emitted
  cases he : tree.extract convention file with
  | error cause => exact List.nodup_nil
  | ok edges =>
      obtain ⟨content, -, hc⟩ := extract_eq_ok_iff.1 he
      exact nodup_keys_of_ofContent hc

/-- The edges of all files, file by file. -/
def emittedAll (tree : SourceTree) (convention : Convention) (files : List String) : List Edge :=
  files.flatMap (tree.emitted convention)

theorem mem_emittedAll {edge : Edge} : edge ∈ tree.emittedAll convention files ↔
    edge.source ∈ files ∧ edge ∈ tree.emitted convention edge.source := by
  simp only [emittedAll, List.mem_flatMap]
  constructor
  · intro h
    obtain ⟨file, hf, hm⟩ := h
    rw [(grounded_of_mem_emitted hm).source]
    exact ⟨hf, hm⟩
  · intro h
    obtain ⟨hf, hm⟩ := h
    exact ⟨_, hf, hm⟩

theorem exists_mem_emittedAll {target : String} {relation : Relation} :
    (∃ edge ∈ tree.emittedAll convention files,
        edge.source = file ∧ edge.target = target ∧ edge.relation = relation) ↔
      file ∈ files ∧ tree.Emits convention file target relation := by
  simp only [mem_emittedAll, mem_emitted, Emits]
  constructor
  · intro h
    obtain ⟨edge, ⟨hf, edges, he, hm⟩, rfl, ht, hr⟩ := h
    exact ⟨hf, edges, he, edge, hm, rfl, ht, hr⟩
  · intro h
    obtain ⟨hf, edges, he, edge, hm, rfl, ht, hr⟩ := h
    exact ⟨edge, ⟨hf, edges, he, hm⟩, rfl, ht, hr⟩

/-- Files differ in the sources of their edges, so no edge of one counts as one of another. -/
theorem nodup_keys_emittedAll (h : files.Nodup) :
    ((tree.emittedAll convention files).map Edge.key).Nodup := by
  rw [emittedAll, List.map_flatMap, List.nodup_flatMap]
  refine ⟨fun file _ => nodup_keys_emitted, h.imp fun {left right} hne => ?_⟩
  intro key hl hr
  obtain ⟨first, hm, rfl⟩ := List.mem_map.1 hl
  obtain ⟨second, hm', he⟩ := List.mem_map.1 hr
  have hs := congrArg Prod.fst he
  simp only [Edge.key] at hs
  rw [(grounded_of_mem_emitted hm).source, (grounded_of_mem_emitted hm').source] at hs
  exact hne hs.symm

theorem dedup_emittedAll (h : files.Nodup) :
    Edge.dedup (tree.emittedAll convention files) = tree.emittedAll convention files := by
  refine Edge.dedup_eq_self (fun edge hm => ?_) (nodup_keys_emittedAll h)
  exact (grounded_of_mem_emitted (mem_emittedAll.1 hm).2).isLoop_eq_false

theorem edges_merge_extractFiles (h : files.Nodup) :
    (EdgeList.merge (Batch.ofFiles files (tree.extract convention)).results).edges =
      tree.emittedAll convention files := by
  have hflat : (Batch.ofFiles files (tree.extract convention)).results.flatten =
      tree.emittedAll convention files := Batch.flatten_results_ofFiles _ _
  rw [EdgeList.merge, EdgeList.ofEdges, hflat]
  exact dedup_emittedAll h

end SourceTree

/-! ## Loaded edges -/

namespace Graph.Operation

open Handle

variable {opened : Opened} {store : Store} {edges : List Edge} {loads : List Operation}

theorem perform_loads_of_holds (hs : HasStore opened store) (h : store.Holds edges)
    (hl : ∀ operation ∈ loads, operation.Loads edges) :
    ∃ last, (forM loads action).perform opened = (.ok (), last) ∧ HasStore last store := by
  induction loads generalizing opened with
  | nil => exact ⟨opened, rfl, hs⟩
  | cons operation rest ih =>
      obtain ⟨strategy, next, hp, hn⟩ := (hl operation List.mem_cons_self).perform_action hs
      rw [h.load_eq strategy (List.Subset.refl edges)] at hn
      obtain ⟨last, hrest, hlast⟩ := ih hn fun other hm => hl other (List.mem_cons_of_mem _ hm)
      refine ⟨last, ?_, hlast⟩
      rw [List.forM_cons, Action.perform_bind, hp]
      exact hrest

/-- Loads of one list, however many and in whatever ways, leave a local graph that was empty with
this list. -/
theorem perform_loads_of_empty (hs : HasStore opened .empty) (hne : loads ≠ [])
    (hl : ∀ operation ∈ loads, operation.Loads edges) :
    ∃ last store, (forM loads action).perform opened = (.ok (), last) ∧ HasStore last store ∧
      store.Holds edges := by
  obtain ⟨operation, rest, rfl⟩ := List.exists_cons_of_ne_nil hne
  obtain ⟨strategy, next, hp, hn⟩ := (hl operation List.mem_cons_self).perform_action hs
  have hholds : (Store.empty.load strategy edges).Holds edges :=
    Store.holds_empty.load strategy edges
  obtain ⟨last, hrest, hlast⟩ := perform_loads_of_holds hn hholds
    fun other hm => hl other (List.mem_cons_of_mem _ hm)
  refine ⟨last, _, ?_, hlast, hholds⟩
  rw [List.forM_cons, Action.perform_bind, hp]
  exact hrest

end Graph.Operation

/-! ## The whole way -/

/-- A local graph answers from the edges that come of files of a tree: they are what is at the ends
of a file, they are stored with their notes, each once, and they are counted. -/
structure SourceTree.Mirrors (tree : SourceTree) (convention : Convention) (files : List String)
    (opened : Handle.Opened) : Prop where
  outgoing : ∀ file, ∃ rows, (Handle.neighbors file .outgoing).perform opened = (.ok rows, opened) ∧
    rows.Nodup ∧ ∀ row, row ∈ rows ↔ row.direction = .outgoing ∧ file ∈ files ∧
      tree.Emits convention file row.file row.relation
  incoming : ∀ target, ∃ rows,
    (Handle.neighbors target .incoming).perform opened = (.ok rows, opened) ∧
    rows.Nodup ∧ ∀ row, row ∈ rows ↔ row.direction = .incoming ∧ row.file ∈ files ∧
      tree.Emits convention row.file target row.relation
  stored : ∃ store rows, Handle.HasStore opened store ∧ store.exported = .ok rows ∧
    rows.Perm (files.flatMap (tree.emitted convention))
  counted : ∃ stats, Handle.stats.perform opened = (.ok stats, opened) ∧
    stats.totalEdges = (files.map fun file => (tree.emitted convention file).length).sum ∧
    ∀ relation, stats.count relation = (files.map fun file =>
      (tree.emitted convention file).countP fun edge => edge.relation = relation).sum

namespace SourceTree

variable {tree : SourceTree} {convention : Convention} {files : List String}

theorem mirrors_of_holds {opened : Handle.Opened} {store : Store} (hfiles : files.Nodup)
    (hs : Handle.HasStore opened store) (h : store.Holds (tree.emittedAll convention files)) :
    tree.Mirrors convention files opened := by
  have hkeys : ((tree.emittedAll convention files).map Edge.key).Nodup :=
    nodup_keys_emittedAll hfiles
  have hkept : Edge.dedup (tree.emittedAll convention files) = tree.emittedAll convention files :=
    dedup_emittedAll hfiles
  constructor
  · intro file
    obtain ⟨rows, hrows, hperm⟩ := h.neighbors_outgoing file
    rw [hkept] at hperm
    refine ⟨rows, by rw [Handle.perform_neighbors hs, hrows], ?_, fun row => ?_⟩
    · exact hperm.nodup_iff.2 (Edge.nodup_map_forward hkeys file)
    · rw [hperm.mem_iff, ← exists_mem_emittedAll]
      simp only [List.mem_map, List.mem_filter, decide_eq_true_eq, Edge.forward_eq_iff]
      grind
  · intro target
    obtain ⟨rows, hrows, hperm⟩ := h.neighbors_incoming target
    rw [hkept] at hperm
    refine ⟨rows, by rw [Handle.perform_neighbors hs, hrows], ?_, fun row => ?_⟩
    · exact hperm.nodup_iff.2 (Edge.nodup_map_backward hkeys target)
    · rw [hperm.mem_iff, ← exists_mem_emittedAll]
      simp only [List.mem_map, List.mem_filter, decide_eq_true_eq, Edge.backward_eq_iff]
      grind
  · obtain ⟨rows, hrows, hperm, -⟩ := h.exported_eq
    rw [hkept] at hperm
    exact ⟨store, rows, hs, hrows, hperm⟩
  · refine ⟨store.stats, Handle.perform_stats hs, ?_, fun relation => ?_⟩
    · rw [h.totalEdges_stats, hkept, emittedAll, List.length_flatMap]
    · rw [h.count_stats, hkept, emittedAll, List.countP_flatMap]
      rfl

/-- A graph mirrors the files of a tree after their edges have been extracted, saved, read back and
loaded: reading and loading do not fail, and it makes no difference how and how often the list is
loaded. -/
theorem mirrors_of_pipeline (hroot : tree.files.isDirectory tree.root = true)
    (hfiles : files.Nodup) :
    ∃ batch, tree.extractFiles convention files = .ok batch ∧
      ∀ disk path saved, (EdgeList.merge batch.results).save disk path = (.ok (), saved) →
        ∃ list, EdgeList.load saved path = .ok list ∧
          ∀ loads opened, loads ≠ [] → (∀ operation ∈ loads, operation.Loads list.edges) →
            Handle.HasStore opened .empty →
            ∃ last, (forM loads Operation.action).perform opened = (.ok (), last) ∧
              tree.Mirrors convention files last := by
  refine ⟨.ofFiles files (tree.extract convention), ?_, fun disk path saved hsave => ?_⟩
  · rw [extractFiles, checkRoot, if_pos hroot]
    rfl
  · refine ⟨_, EdgeList.load_save hsave, fun loads opened hne hl hopened => ?_⟩
    obtain ⟨last, store, hrun, hstore, hholds⟩ := Operation.perform_loads_of_empty hopened hne hl
    rw [edges_merge_extractFiles hfiles] at hholds
    exact ⟨last, hrun, mirrors_of_holds hfiles hstore hholds⟩

theorem mirrors_of_sampleTree :
    (sampleTree.emittedAll .capitalized ["draw.py", "shapes.py"]).map Edge.key =
        [("draw.py", "shapes.py", .imports), ("draw.py", "shapes.py", .inherits),
          ("draw.py", "shapes.py", .instantiates)] ∧
      ∃ batch saved list last,
        sampleTree.extractFiles .capitalized ["draw.py", "shapes.py"] = .ok batch ∧
        (EdgeList.merge batch.results).save {} "edges.json" = (.ok (), saved) ∧
        EdgeList.load saved "edges.json" = .ok list ∧
        (forM [.load list.edges .perRelation, .loadWithFallback list.edges]
          Operation.action).perform (.database (.transient .empty), {}) = (.ok (), last) ∧
        sampleTree.Mirrors .capitalized ["draw.py", "shapes.py"] last := by
  refine ⟨by decide +kernel, ?_⟩
  obtain ⟨batch, hbatch, hrest⟩ := @mirrors_of_pipeline sampleTree .capitalized
    ["draw.py", "shapes.py"] (by decide +kernel) (by decide)
  have hsave : (EdgeList.merge batch.results).save {} "edges.json" = (.ok (),
      ⟨[(["edges.json"], .file (.text (EdgeList.merge batch.results).toText))]⟩) := rfl
  obtain ⟨list, hlist, hloads⟩ := hrest {} "edges.json" _ hsave
  obtain ⟨last, hlast, hmirrors⟩ := hloads
    [.load list.edges .perRelation, .loadWithFallback list.edges]
    (.database (.transient .empty), {}) (by simp)
    (by simp [Operation.Loads.load, Operation.Loads.loadWithFallback])
    ⟨.transient .empty, rfl, rfl⟩
  exact ⟨batch, _, list, last, hbatch, hsave, hlist, hlast, hmirrors⟩

end SourceTree

end CodeAtlas
