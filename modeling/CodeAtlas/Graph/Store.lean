import CodeAtlas.Graph.Loading
import CodeAtlas.Graph.Neighbor
import CodeAtlas.Graph.Stats

/-!
# Graph store

A graph of files kept as two tables in order of insertion: files under numbers, and edges between
numbers. The tables keep to a schema: no number, no path and no edge occurs twice, and an edge
stands between files that are stored. What is asked is answered from rows, in which the files of an
edge are joined by their numbers. An edge's relation is any text; only known relations can be read
back.
-/

namespace CodeAtlas.Graph

/-- An edge with the paths of its files. -/
structure Row where
  source : String
  target : String
  relation : String
  note : Option String
deriving DecidableEq, Repr

namespace Row

def key (row : Row) : String × String × String := (row.source, row.target, row.relation)

def ofEdge (edge : Edge) : Row := ⟨edge.source, edge.target, edge.relation.name, edge.note⟩

def toEdge (row : Row) : Result Edge := do
  return ⟨row.source, row.target, ← Relation.ofName row.relation, row.note⟩

def order (left right : Row) : Ordering :=
  (compare left.source right.source).then
    ((compare left.target right.target).then (compare left.relation right.relation))

end Row

structure StoredFile where
  number : Nat
  path : String
deriving DecidableEq, Repr

/-- An edge between the files with two numbers. -/
structure StoredEdge where
  source : Nat
  target : Nat
  relation : String
  note : Option String
deriving DecidableEq, Repr

namespace StoredEdge

def key (edge : StoredEdge) : Nat × Nat × String := (edge.source, edge.target, edge.relation)

/-- Edges by source, target and relation, files by their age. -/
def order (left right : StoredEdge) : Ordering :=
  (compare left.source right.source).then
    ((compare left.target right.target).then (compare left.relation right.relation))

end StoredEdge

structure Store where
  files : List StoredFile := []
  edges : List StoredEdge := []
  /-- The last number given to a file. -/
  lastNumber : Nat := 0
  numbers_le : ∀ file ∈ files, file.number ≤ lastNumber := by simp
  numbers_nodup : (files.map StoredFile.number).Nodup := by simp
  paths_nodup : (files.map StoredFile.path).Nodup := by simp
  ends_stored : ∀ edge ∈ edges, edge.source ∈ files.map StoredFile.number ∧
    edge.target ∈ files.map StoredFile.number := by simp
  keys_nodup : (edges.map StoredEdge.key).Nodup := by simp
deriving DecidableEq, Repr

namespace Store

def empty : Store := {}

/-! ## Files -/

def paths (store : Store) : List String := store.files.map StoredFile.path

def fileAt? (store : Store) (path : String) : Option StoredFile :=
  store.files.find? fun file => file.path = path

def pathOf? (store : Store) (number : Nat) : Option String :=
  (store.files.find? fun file => file.number = number).map StoredFile.path

theorem mem_files_of_fileAt? {store : Store} {path : String} {file : StoredFile}
    (found : store.fileAt? path = some file) : file ∈ store.files :=
  List.mem_of_find?_eq_some found

/-- A number that has not been given is greater than all others. -/
theorem next_not_mem (store : Store) :
    store.lastNumber + 1 ∉ store.files.map StoredFile.number := by
  intro h
  obtain ⟨file, hm, he⟩ := List.mem_map.1 h
  have := store.numbers_le file hm
  omega

/-- Stores a file under the next number unless its path is stored. -/
def addFile (store : Store) (path : String) : Store :=
  if fresh : path ∈ store.paths then store
  else {
    files := store.files ++ [⟨store.lastNumber + 1, path⟩]
    edges := store.edges
    lastNumber := store.lastNumber + 1
    numbers_le := by
      have := store.numbers_le
      grind
    numbers_nodup := by
      have := store.numbers_nodup
      have := store.next_not_mem
      grind
    paths_nodup := by
      have := store.paths_nodup
      grind [paths]
    ends_stored := by
      have := store.ends_stored
      grind
    keys_nodup := store.keys_nodup }

/-! ## Edges -/

/-- Stores an edge between two stored files unless there is one with its key. -/
def connect (store : Store) (source target : StoredFile) (relation : String) (note : Option String)
    (hs : source ∈ store.files) (ht : target ∈ store.files) : Store :=
  let edge : StoredEdge := ⟨source.number, target.number, relation, note⟩
  if fresh : edge.key ∈ store.edges.map StoredEdge.key then store
  else { store with
    edges := store.edges ++ [edge]
    ends_stored := by
      have := store.ends_stored
      grind
    keys_nodup := by
      have := store.keys_nodup
      grind }

/-- Stores a row between the files with its paths, where both are stored. -/
def addRow (store : Store) (row : Row) : Store :=
  match hs : store.fileAt? row.source, ht : store.fileAt? row.target with
  | some source, some target =>
      store.connect source target row.relation row.note (mem_files_of_fileAt? hs)
        (mem_files_of_fileAt? ht)
  | _, _ => store

/-- Stores an edge with the files at its ends. -/
def addEdge (store : Store) (edge : Edge) : Store :=
  ((store.addFile edge.source).addFile edge.target).addRow (Row.ofEdge edge)

def addBatches (store : Store) (batches : List (List Edge)) : Store :=
  batches.foldl (fun store batch => batch.foldl addEdge store) store

/-- Loads edges in one pass or relation by relation. A loop is passed over. -/
def load (store : Store) (strategy : Strategy) (edges : List Edge) : Store :=
  match strategy with
  | .generic =>
      store.addBatches ((batches edges).map fun batch => batch.filter fun edge => !edge.isLoop)
  | .perRelation =>
      Relation.all.foldl (fun store relation =>
        store.addBatches (batches (edges.filter fun edge =>
          edge.relation = relation && !edge.isLoop))) store

/-- Takes out the edges and leaves the files. -/
def deleteEdges (store : Store) : Store where
  files := store.files
  lastNumber := store.lastNumber
  numbers_le := store.numbers_le
  numbers_nodup := store.numbers_nodup
  paths_nodup := store.paths_nodup

/-- Takes out the files, and with them the edges between them. -/
def deleteFiles (store : Store) : Store where
  lastNumber := store.lastNumber

theorem le_foldr_max {number : Nat} {numbers : List Nat} (stored : number ∈ numbers) :
    number ≤ numbers.foldr max 0 := by
  induction numbers with
  | nil => cases stored
  | cons first rest ih =>
      rw [List.foldr_cons]
      cases stored with
      | head => exact Nat.le_max_left _ _
      | tail _ stored => exact Nat.le_trans (ih stored) (Nat.le_max_right _ _)

/-- Forgets which numbers were given to files that are no longer there. -/
def resetNumbers (store : Store) : Store :=
  { store with
    lastNumber := (store.files.map StoredFile.number).foldr max 0
    numbers_le := fun _ stored => le_foldr_max (List.mem_map_of_mem stored) }

def clear (store : Store) : Store := store.deleteEdges.deleteFiles.resetNumbers

theorem clear_eq_empty (store : Store) : store.clear = empty := rfl

/-! ## Queries -/

def row? (store : Store) (edge : StoredEdge) : Option Row := do
  return ⟨← store.pathOf? edge.source, ← store.pathOf? edge.target, edge.relation, edge.note⟩

def rows (store : Store) : List Row := store.edges.filterMap store.row?

/-- The rows that leave a file, by the age of their target and by relation. -/
def rowsFrom (store : Store) (path : String) : List Row :=
  ((store.edges.mergeSort fun left right => (StoredEdge.order left right).isLE).filterMap
    store.row?).filter fun row => row.source = path

def rowsTo (store : Store) (path : String) : List Row :=
  store.rows.filter fun row => row.target = path

def outgoing (store : Store) (path : String) : Result (List Neighbor) :=
  (store.rowsFrom path).mapM fun row => do
    return ⟨row.target, ← Relation.ofName row.relation, .outgoing⟩

def incoming (store : Store) (path : String) : Result (List Neighbor) :=
  (store.rowsTo path).mapM fun row => do
    return ⟨row.source, ← Relation.ofName row.relation, .incoming⟩

def neighbors (store : Store) (path : String) (direction : Direction) :
    Result (List Neighbor) := do
  let outgoing ← if direction.includes .outgoing then store.outgoing path else pure []
  let incoming ← if direction.includes .incoming then store.incoming path else pure []
  return Neighbor.sort (outgoing ++ incoming)

/-- The relation texts that occur, each once. -/
def relationTexts (store : Store) : List String :=
  (store.edges.map StoredEdge.relation).eraseDups

def stats (store : Store) : Stats :=
  Stats.ofCounts store.files.length
    (store.relationTexts.map fun relation =>
      ⟨relation, store.edges.countP fun edge => edge.relation = relation⟩)

/-- Every edge, by source, target and relation. -/
def exported (store : Store) : Result (List Edge) :=
  (store.rows.mergeSort fun left right => (Row.order left right).isLE).mapM Row.toEdge

def filePaths (store : Store) : List String :=
  store.paths.mergeSort fun left right => (compare left right).isLE

/-- Puts in a row as it is, with the files at its ends. A row that is stored already is refused. -/
def insertRow (store : Store) (row : Row) : Result Store :=
  if row.key ∈ store.rows.map Row.key then .error (.database .duplicateRow)
  else .ok (((store.addFile row.source).addFile row.target).addRow row)

end Store

end CodeAtlas.Graph
