import CodeAtlas.Graph.Store
import CodeAtlas.Proofs.Graph.Dedup
import Mathlib.Data.List.Nodup

/-!
# Rows of a store

What storing files and edges does to the rows, seen through the join of the two tables: numbers and
paths determine each other, so an edge is new to the table exactly if its row is new to the join.
-/

namespace CodeAtlas.Graph

theorem Relation.name_injective : Function.Injective Relation.name := by
  intro left right h
  cases left <;> cases right <;> first | rfl | exact absurd h (by decide)

@[simp] theorem Relation.ofName_name (relation : Relation) :
    ofName relation.name = .ok relation := by
  cases relation <;> rfl

namespace Row

@[simp] theorem key_ofEdge (edge : Edge) :
    (ofEdge edge).key = (edge.source, edge.target, edge.relation.name) := rfl

theorem key_ofEdge_eq_iff {left right : Edge} :
    (ofEdge left).key = (ofEdge right).key ↔ left.key = right.key := by
  simp [Edge.key, Relation.name_injective.eq_iff]

theorem ofEdge_injective : Function.Injective ofEdge := by
  intro left right h
  simp only [ofEdge, Row.mk.injEq, Relation.name_injective.eq_iff] at h
  cases left
  simp_all

@[simp] theorem toEdge_ofEdge (edge : Edge) : toEdge (ofEdge edge) = .ok edge := by
  simp [toEdge, ofEdge, bind, Except.bind, pure, Except.pure]

end Row

namespace Store

/-! ## Numbers and paths -/

theorem eq_of_number_eq {store : Store} {left right : StoredFile} (hl : left ∈ store.files)
    (hr : right ∈ store.files) (h : left.number = right.number) : left = right :=
  List.inj_on_of_nodup_map store.numbers_nodup hl hr h

theorem eq_of_path_eq {store : Store} {left right : StoredFile} (hl : left ∈ store.files)
    (hr : right ∈ store.files) (h : left.path = right.path) : left = right :=
  List.inj_on_of_nodup_map store.paths_nodup hl hr h

theorem fileAt?_eq_some_iff {store : Store} {path : String} {file : StoredFile} :
    store.fileAt? path = some file ↔ file ∈ store.files ∧ file.path = path := by
  constructor
  · intro h
    exact ⟨mem_files_of_fileAt? h, by simpa using List.find?_some h⟩
  · intro h
    obtain ⟨hm, rfl⟩ := h
    have hs : (store.fileAt? file.path).isSome := by
      simpa [fileAt?] using ⟨file, hm, rfl⟩
    obtain ⟨found, hf⟩ := Option.isSome_iff_exists.1 hs
    have hp : found.path = file.path := by simpa using List.find?_some hf
    rw [hf, eq_of_path_eq (mem_files_of_fileAt? hf) hm hp]

theorem mem_paths_iff {store : Store} {path : String} :
    path ∈ store.paths ↔ ∃ file, store.fileAt? path = some file := by
  simp [paths, fileAt?_eq_some_iff]

theorem pathOf?_eq_some_iff {store : Store} {number : Nat} {path : String} :
    store.pathOf? number = some path ↔
      ∃ file ∈ store.files, file.number = number ∧ file.path = path := by
  simp only [pathOf?, Option.map_eq_some_iff]
  constructor
  · intro h
    obtain ⟨file, hf, rfl⟩ := h
    exact ⟨file, List.mem_of_find?_eq_some hf, by simpa using List.find?_some hf, rfl⟩
  · intro h
    obtain ⟨file, hm, rfl, rfl⟩ := h
    have hs : (store.files.find? fun other => other.number = file.number).isSome := by
      simpa using ⟨file, hm, rfl⟩
    obtain ⟨found, hf⟩ := Option.isSome_iff_exists.1 hs
    have hn : found.number = file.number := by simpa using List.find?_some hf
    exact ⟨found, hf, by rw [eq_of_number_eq (List.mem_of_find?_eq_some hf) hm hn]⟩

theorem pathOf?_number {store : Store} {file : StoredFile} (h : file ∈ store.files) :
    store.pathOf? file.number = some file.path := pathOf?_eq_some_iff.2 ⟨file, h, rfl, rfl⟩

theorem pathOf?_inj {store : Store} {m n : Nat} {path : String}
    (hm : store.pathOf? m = some path) (hn : store.pathOf? n = some path) : m = n := by
  obtain ⟨left, hl, rfl, hp⟩ := pathOf?_eq_some_iff.1 hm
  obtain ⟨right, hr, rfl, hq⟩ := pathOf?_eq_some_iff.1 hn
  rw [eq_of_path_eq hl hr (hp.trans hq.symm)]

/-! ## The join -/

theorem row?_eq_some_iff {store : Store} {edge : StoredEdge} {row : Row} :
    store.row? edge = some row ↔ store.pathOf? edge.source = some row.source ∧
      store.pathOf? edge.target = some row.target ∧ edge.relation = row.relation ∧
      edge.note = row.note := by
  cases row
  cases hs : store.pathOf? edge.source <;> cases ht : store.pathOf? edge.target <;>
    simp [row?, hs, ht]

theorem row?_isSome {store : Store} {edge : StoredEdge} (h : edge ∈ store.edges) :
    (store.row? edge).isSome := by
  obtain ⟨hs, ht⟩ := store.ends_stored edge h
  obtain ⟨source, hs, hsn⟩ := List.mem_map.1 hs
  obtain ⟨target, ht, htn⟩ := List.mem_map.1 ht
  simp [row?, ← hsn, ← htn, pathOf?_number hs, pathOf?_number ht]

theorem mem_rows {store : Store} {row : Row} :
    row ∈ store.rows ↔ ∃ edge ∈ store.edges, store.row? edge = some row := List.mem_filterMap

theorem ends_mem_paths {store : Store} {row : Row} (h : row ∈ store.rows) :
    row.source ∈ store.paths ∧ row.target ∈ store.paths := by
  obtain ⟨edge, -, hr⟩ := mem_rows.1 h
  obtain ⟨hs, ht, -, -⟩ := row?_eq_some_iff.1 hr
  obtain ⟨source, hs, -, hsp⟩ := pathOf?_eq_some_iff.1 hs
  obtain ⟨target, ht, -, htp⟩ := pathOf?_eq_some_iff.1 ht
  exact ⟨List.mem_map.2 ⟨source, hs, hsp⟩, List.mem_map.2 ⟨target, ht, htp⟩⟩

theorem key_eq_iff_of_row? {store : Store} {left right : StoredEdge} {leftRow rightRow : Row}
    (hl : store.row? left = some leftRow) (hr : store.row? right = some rightRow) :
    left.key = right.key ↔ leftRow.key = rightRow.key := by
  obtain ⟨hls, hlt, hlr, -⟩ := row?_eq_some_iff.1 hl
  obtain ⟨hrs, hrt, hrr, -⟩ := row?_eq_some_iff.1 hr
  simp only [StoredEdge.key, Row.key, Prod.mk.injEq]
  constructor
  · intro h
    obtain ⟨hs, ht, h⟩ := h
    rw [hs, hrs] at hls
    rw [ht, hrt] at hlt
    exact ⟨by simpa using hls.symm, by simpa using hlt.symm, by rw [← hlr, h, hrr]⟩
  · intro h
    obtain ⟨hs, ht, h⟩ := h
    exact ⟨pathOf?_inj hls (hs ▸ hrs), pathOf?_inj hlt (ht ▸ hrt), by rw [hlr, h, hrr]⟩

theorem nodup_keys_rows (store : Store) : (store.rows.map Row.key).Nodup := by
  have h := store.keys_nodup
  rw [List.Nodup, List.pairwise_map] at h ⊢
  rw [rows, List.pairwise_filterMap]
  refine h.imp fun hne leftRow hl rightRow hr he => hne ?_
  exact (key_eq_iff_of_row? hl hr).2 he

theorem nodup_rows (store : Store) : store.rows.Nodup := store.nodup_keys_rows.of_map

/-! ## Storing a file -/

theorem addFile_of_mem {store : Store} {path : String} (h : path ∈ store.paths) :
    store.addFile path = store := dif_pos h

theorem paths_addFile (store : Store) (path : String) :
    (store.addFile path).paths =
      if path ∈ store.paths then store.paths else store.paths ++ [path] := by
  unfold addFile
  split <;> simp [paths]

theorem mem_paths_addFile {store : Store} {path other : String} :
    other ∈ (store.addFile path).paths ↔ other ∈ store.paths ∨ other = path := by
  rw [paths_addFile]
  split
  · constructor
    · exact .inl
    · rintro (h | rfl) <;> assumption
  · simp

theorem pathOf?_addFile {store : Store} {path : String} {number : Nat}
    (h : number ∈ store.files.map StoredFile.number) :
    (store.addFile path).pathOf? number = store.pathOf? number := by
  obtain ⟨file, hm, rfl⟩ := List.mem_map.1 h
  have hm' : file ∈ (store.addFile path).files := by
    unfold addFile
    split
    · exact hm
    · exact List.mem_append_left _ hm
  rw [pathOf?_number hm, pathOf?_number hm']

theorem rows_addFile (store : Store) (path : String) :
    (store.addFile path).rows = store.rows := by
  have he : (store.addFile path).edges = store.edges := by
    unfold addFile
    split <;> rfl
  rw [rows, rows, he]
  refine List.filterMap_congr fun edge hm => ?_
  obtain ⟨hs, ht⟩ := store.ends_stored edge hm
  rw [row?, row?, pathOf?_addFile hs, pathOf?_addFile ht]

/-! ## Storing an edge -/

section Connecting

variable {store : Store} {source target : StoredFile} {relation : String} {note : Option String}
  (hs : source ∈ store.files) (ht : target ∈ store.files)

theorem paths_connect : (store.connect source target relation note hs ht).paths = store.paths := by
  unfold connect
  dsimp only
  split <;> rfl

theorem rows_connect :
    (store.connect source target relation note hs ht).rows =
      if (source.path, target.path, relation) ∈ store.rows.map Row.key then store.rows
      else store.rows ++ [⟨source.path, target.path, relation, note⟩] := by
  let edge : StoredEdge := ⟨source.number, target.number, relation, note⟩
  have hr : store.row? edge = some ⟨source.path, target.path, relation, note⟩ := by
    simp [edge, row?_eq_some_iff, pathOf?_number hs, pathOf?_number ht]
  have hk : edge.key ∈ store.edges.map StoredEdge.key ↔
      (source.path, target.path, relation) ∈ store.rows.map Row.key := by
    simp only [List.mem_map]
    constructor
    · intro h
      obtain ⟨present, hm, he⟩ := h
      obtain ⟨row, hrow⟩ := Option.isSome_iff_exists.1 (row?_isSome hm)
      exact ⟨row, mem_rows.2 ⟨present, hm, hrow⟩, (key_eq_iff_of_row? hrow hr).1 he⟩
    · intro h
      obtain ⟨row, hm, he⟩ := h
      obtain ⟨present, hm, hrow⟩ := mem_rows.1 hm
      exact ⟨present, hm, (key_eq_iff_of_row? hrow hr).2 he⟩
  by_cases hm : edge.key ∈ store.edges.map StoredEdge.key
  · rw [if_pos (hk.1 hm), connect, dif_pos hm]
  · rw [if_neg (mt hk.2 hm), connect, dif_neg hm]
    change List.filterMap store.row? (store.edges ++ [edge]) = _
    rw [List.filterMap_append, List.filterMap_cons, hr]
    rfl

theorem connect_of_mem (h : (source.path, target.path, relation) ∈ store.rows.map Row.key) :
    store.connect source target relation note hs ht = store := by
  obtain ⟨row, hm, hk⟩ := List.mem_map.1 h
  obtain ⟨present, hm, hr⟩ := mem_rows.1 hm
  have hnew : store.row? ⟨source.number, target.number, relation, note⟩ =
      some ⟨source.path, target.path, relation, note⟩ := by
    simp [row?_eq_some_iff, pathOf?_number hs, pathOf?_number ht]
  refine dif_pos (List.mem_map.2 ⟨present, hm, ?_⟩)
  exact (key_eq_iff_of_row? hr hnew).2 hk

end Connecting

theorem addRow_eq_connect {store : Store} {row : Row} {source target : StoredFile}
    (hs : store.fileAt? row.source = some source) (ht : store.fileAt? row.target = some target) :
    store.addRow row = store.connect source target row.relation row.note
      (mem_files_of_fileAt? hs) (mem_files_of_fileAt? ht) := by
  unfold addRow
  split
  · next s t hs' ht' =>
      obtain rfl : source = s := Option.some.inj (hs.symm.trans hs')
      obtain rfl : target = t := Option.some.inj (ht.symm.trans ht')
      rfl
  · next hn => exact (hn source target hs ht).elim

theorem paths_addRow (store : Store) (row : Row) : (store.addRow row).paths = store.paths := by
  unfold addRow
  split
  · exact paths_connect _ _
  · rfl

theorem rows_addRow {store : Store} {row : Row} (hs : row.source ∈ store.paths)
    (ht : row.target ∈ store.paths) :
    (store.addRow row).rows =
      if row.key ∈ store.rows.map Row.key then store.rows else store.rows ++ [row] := by
  obtain ⟨source, hs⟩ := mem_paths_iff.1 hs
  obtain ⟨target, ht⟩ := mem_paths_iff.1 ht
  rw [addRow_eq_connect hs ht, rows_connect, (fileAt?_eq_some_iff.1 hs).2,
    (fileAt?_eq_some_iff.1 ht).2]
  rfl

theorem mem_paths_addEdge {store : Store} {edge : Edge} {path : String} :
    path ∈ (store.addEdge edge).paths ↔
      path ∈ store.paths ∨ path = edge.source ∨ path = edge.target := by
  rw [addEdge, paths_addRow, mem_paths_addFile, mem_paths_addFile, or_assoc]

theorem rows_addEdge (store : Store) (edge : Edge) :
    (store.addEdge edge).rows =
      if (Row.ofEdge edge).key ∈ store.rows.map Row.key then store.rows
      else store.rows ++ [Row.ofEdge edge] := by
  have hs : (Row.ofEdge edge).source ∈ ((store.addFile edge.source).addFile edge.target).paths :=
    mem_paths_addFile.2 (.inl (mem_paths_addFile.2 (.inr rfl)))
  have ht : (Row.ofEdge edge).target ∈ ((store.addFile edge.source).addFile edge.target).paths :=
    mem_paths_addFile.2 (.inr rfl)
  rw [addEdge, rows_addRow hs ht, rows_addFile, rows_addFile]

theorem addEdge_of_mem {store : Store} {edge : Edge}
    (h : (Row.ofEdge edge).key ∈ store.rows.map Row.key) : store.addEdge edge = store := by
  obtain ⟨row, hm, hk⟩ := List.mem_map.1 h
  obtain ⟨hs, ht⟩ := ends_mem_paths hm
  simp only [Row.key, Row.ofEdge, Prod.mk.injEq] at hk
  rw [hk.1] at hs
  rw [hk.2.1] at ht
  rw [addEdge, addFile_of_mem hs, addFile_of_mem ht]
  obtain ⟨source, hs⟩ := mem_paths_iff.1 hs
  obtain ⟨target, ht⟩ := mem_paths_iff.1 ht
  rw [addRow_eq_connect hs ht]
  apply connect_of_mem
  rw [(fileAt?_eq_some_iff.1 hs).2, (fileAt?_eq_some_iff.1 ht).2]
  exact h

end Store

end CodeAtlas.Graph
