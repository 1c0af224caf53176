import CodeAtlas.Proofs.Graph.Strategies
import CodeAtlas.Proofs.Remote.Grammar

/-!
# Agreement of local graphs and servers

A graph may be held by a local store or by a server. The server is asked queries, and it is taken
for granted that it answers each of them with a result set that lists the rows of the query, in
whatever order. What a client makes of these answers is then what the store would have answered, and
the client has read them to their ends.
-/

namespace CodeAtlas.Graph

/-! ## Finite graphs -/

/-- Files, each once, and edges from one file to another, at most one for each source, target and
relation. -/
structure FileGraph where
  files : List String
  edges : List Edge
  files_nodup : files.Nodup
  keys_nodup : (edges.map Edge.key).Nodup
  proper : ∀ edge ∈ edges, edge.isLoop = false
  ends_mem : ∀ edge ∈ edges, edge.source ∈ files ∧ edge.target ∈ files

namespace FileGraph

/-- The neighbours of a file at the end or at the start of its edges. -/
def neighbors (graph : FileGraph) (path : String) : Direction → List Neighbor
  | .incoming => (graph.edges.filter fun edge => edge.target = path).map Edge.backward
  | _ => (graph.edges.filter fun edge => edge.source = path).map Edge.forward

/-- The neighbours in one direction, if it is wanted. -/
def neighborsIn (graph : FileGraph) (path : String) (wanted direction : Direction) :
    List Neighbor := if wanted.includes direction then graph.neighbors path direction else []

theorem direction_of_mem_neighbors {graph : FileGraph} {path : String} {direction : Direction}
    (hd : direction ≠ .both) {row : Neighbor} (hm : row ∈ graph.neighbors path direction) :
    row.direction = direction := by
  cases direction with
  | both => exact absurd rfl hd
  | outgoing =>
      obtain ⟨edge, -, rfl⟩ := List.mem_map.1 hm
      rfl
  | incoming =>
      obtain ⟨edge, -, rfl⟩ := List.mem_map.1 hm
      rfl

/-- The names of the relations of the edges. -/
def relations (graph : FileGraph) : List String := graph.edges.map fun edge => edge.relation.name

def counts (graph : FileGraph) : List RelationCount :=
  graph.relations.dedup.map fun name => ⟨name, graph.relations.count name⟩

def store (graph : FileGraph) : Store :=
  (graph.files.foldl Store.addFile .empty).load .generic graph.edges

end FileGraph

namespace Store

variable {store : Store} {graph : FileGraph}

/-- The store has the files and the edges of a graph, in any order and under any numbers. -/
structure Represents (store : Store) (graph : FileGraph) : Prop where
  paths : store.paths.Perm graph.files
  rows : store.rows.Perm (graph.edges.map Row.ofEdge)

theorem mem_paths_foldl_addFile {files : List String} {path : String} :
    path ∈ (files.foldl addFile store).paths ↔ path ∈ store.paths ∨ path ∈ files := by
  induction files generalizing store with
  | nil => simp
  | cons file rest ih => rw [List.foldl_cons, ih, mem_paths_addFile, List.mem_cons, or_assoc]

theorem rows_foldl_addFile (store : Store) (files : List String) :
    (files.foldl addFile store).rows = store.rows := by
  induction files generalizing store with
  | nil => rfl
  | cons file rest ih => rw [List.foldl_cons, ih, rows_addFile]

/-- A store where the files of a graph have been put in and its edges loaded has the graph. -/
theorem represents_store (graph : FileGraph) : graph.store.Represents graph where
  paths := by
    refine (List.perm_ext_iff_of_nodup (Store.paths_nodup _) graph.files_nodup).2 fun path => ?_
    change path ∈ graph.store.paths ↔ _
    rw [FileGraph.store, mem_paths_load, mem_paths_foldl_addFile]
    have hends := graph.ends_mem
    grind [empty, paths]
  rows := by
    have hkept : Edge.dedup graph.edges = graph.edges :=
      Edge.dedup_eq_self graph.proper graph.keys_nodup
    rw [List.perm_ext_iff_of_nodup (nodup_rows _)
      (graph.keys_nodup.of_map.map Row.ofEdge_injective)]
    intro row
    rw [FileGraph.store, mem_rows_load, rows_foldl_addFile, hkept, List.mem_map]
    simp [empty, Store.rows]

namespace Represents

theorem neighbors_eq (h : store.Represents graph) (path : String) (wanted : Direction) :
    store.neighbors path wanted = .ok (Neighbor.sort
      (graph.neighborsIn path wanted .outgoing ++ graph.neighborsIn path wanted .incoming)) := by
  obtain ⟨outgoing, ho, hleave⟩ := outgoing_eq_of_perm h.rows path
  obtain ⟨incoming, hi, hreach⟩ := incoming_eq_of_perm h.rows path
  rw [neighbors, ho, hi]
  cases wanted with
  | outgoing => exact congrArg Except.ok (Neighbor.sort_eq_of_perm (hleave.append_right _))
  | incoming => exact congrArg Except.ok (Neighbor.sort_eq_of_perm (hreach.append_left _))
  | both => exact congrArg Except.ok (Neighbor.sort_eq_of_perm (hleave.append hreach))

theorem stats_eq (h : store.Represents graph) :
    store.stats = Stats.ofCounts graph.files.length graph.counts := by
  have hr : (store.rows.map Row.relation).Perm graph.relations := by
    have hp := h.rows.map Row.relation
    rwa [List.map_map] at hp
  have hcount (name : String) := hr.count_eq name
  rw [Store.stats_eq, h.paths.length_eq]
  simp only [hcount]
  exact Stats.ofCounts_eq_of_perm (((perm_eraseDups _).trans hr.dedup).map _) _

end Represents

end Store

end CodeAtlas.Graph

namespace CodeAtlas.Remote

open CodeAtlas.Graph

/-! ## Result sets -/

/-- A value in a row of an answer. -/
inductive Value where
  | text (value : String)
  | number (value : Nat)

/-- A text comes as a string or as a status. -/
inductive Value.IsShown : Value → Reply → Prop where
  | bytes (text : String) : IsShown (.text text) (.bytes (Text.Utf8.encode text))
  | status (text : String) : IsShown (.text text) (.status text)
  | number (value : Nat) : IsShown (.number value) (.number value)

/-- A cell has some tag with the value. -/
inductive Value.IsCell (value : Value) : Reply → Prop where
  | pair (tag : Reply) {shown : Reply} : value.IsShown shown → IsCell value (.list [tag, shown])

/-- The cells of a row, one for each of its values. -/
abbrev IsRow (values : List Value) (row : ResultRow) : Prop := List.Forall₂ Value.IsCell values row

/-- The reply is a list of a header, rows and statistics, and the rows come in any order. -/
inductive IsResultSet (rows : List (List Value)) : Reply → Prop where
  | compact (header statistics : Reply) {listed : List (List Value)} {items : List ResultRow} :
      listed.Perm rows → List.Forall₂ IsRow listed items →
        IsResultSet rows (.list [header, .list (items.map .list), statistics])

theorem IsResultSet.exists_rows {rows : List (List Value)} {reply : Reply}
    (h : IsResultSet rows reply) : ∃ items sections, reply = .list sections ∧
      reply.rows = .ok items ∧ ∃ listed, listed.Perm rows ∧ List.Forall₂ IsRow listed items := by
  cases h with
  | @compact header statistics listed items hp hi =>
      refine ⟨items, _, rfl, ?_, listed, hp, hi⟩
      rw [Reply.rows, List.filterMap_map]
      exact congrArg Except.ok (List.filterMap_some)

namespace IsRow

variable {values : List Value} {row : ResultRow}

theorem exists_cell? (h : IsRow values row) {value : Value} {column : Nat}
    (hv : values[column]? = some value) :
    ∃ shown, row.cell? column = some shown ∧ value.IsShown shown := by
  induction h generalizing column with
  | nil => simp at hv
  | cons hcell _ ih =>
      cases column with
      | zero =>
          obtain rfl := Option.some.inj hv
          cases hcell with
          | pair tag hs => exact ⟨_, rfl, hs⟩
      | succ column => exact ih hv

theorem text?_eq (h : IsRow values row) {text : String} (column : Nat)
    (hv : values[column]? = some (.text text)) : row.text? column = some text := by
  obtain ⟨shown, hc, hs⟩ := h.exists_cell? hv
  rw [ResultRow.text?, hc]
  cases hs with
  | bytes => rw [Option.bind_some, Reply.text?, Text.Utf8.decode_encode]; rfl
  | status => rfl

theorem number?_eq (h : IsRow values row) {number : Nat} (column : Nat)
    (hv : values[column]? = some (.number number)) : row.number? column = some (number : Int) := by
  obtain ⟨shown, hc, hs⟩ := h.exists_cell? hv
  rw [ResultRow.number?, hc]
  cases hs with
  | number => rfl

end IsRow

/-! ## Queries -/

/-- What a server is asked. -/
inductive Query where
  | neighbors (path : String) (direction : Direction)
  | files
  | relations

namespace Query

def statement : Query → String
  | neighbors path direction => Cypher.neighbors path direction
  | files => Cypher.countFiles
  | relations => Cypher.countRelations

def neighborValues (row : Neighbor) : List Value := [.text row.file, .text row.relation.name]

def countValues (entry : RelationCount) : List Value := [.text entry.relation, .number entry.count]

def rows (graph : FileGraph) : Query → List (List Value)
  | neighbors path direction => (graph.neighbors path direction).map neighborValues
  | files => [[.number graph.files.length]]
  | relations => graph.counts.map countValues

/-- The bytes answer a query about a graph. -/
def IsAnswered (graph : FileGraph) (query : Query) (bytes : Bytes) : Prop :=
  ∃ reply, IsResultSet (query.rows graph) reply ∧ Reply.IsWritten reply bytes

/-- The bytes answer queries about a graph, one after the other. -/
inductive AreAnswered (graph : FileGraph) : List Query → Bytes → Prop where
  | nil : AreAnswered graph [] []
  | cons {query : Query} {queries : List Query} {bytes more : Bytes} :
      query.IsAnswered graph bytes → AreAnswered graph queries more →
        AreAnswered graph (query :: queries) (bytes ++ more)

theorem AreAnswered.exists_of_append {graph : FileGraph} {first second : List Query} {bytes : Bytes}
    (h : AreAnswered graph (first ++ second) bytes) : ∃ before after, bytes = before ++ after ∧
      AreAnswered graph first before ∧ AreAnswered graph second after := by
  induction first generalizing bytes with
  | nil => exact ⟨[], bytes, rfl, .nil, h⟩
  | cons query queries ih =>
      cases h with
      | @cons _ _ answer more hq hmore =>
          obtain ⟨before, after, rfl, hfirst, hsecond⟩ := ih hmore
          exact ⟨answer ++ before, after, (List.append_assoc ..).symm, .cons hq hfirst, hsecond⟩

/-- What is asked for the neighbours of a file in one direction, if it is wanted. -/
def forNeighborsIn (path : String) (wanted direction : Direction) : List Query :=
  if wanted.includes direction then [neighbors path direction] else []

def forNeighbors (path : String) (wanted : Direction) : List Query :=
  forNeighborsIn path wanted .outgoing ++ forNeighborsIn path wanted .incoming

def forStats : List Query := [files, relations]

end Query

namespace Client

variable {graph : FileGraph} {client : Client} {rest : Bytes}

/-- The client has a connection, from which it has yet to read a stream. -/
structure Receives (client : Client) (stream : Bytes) : Prop where
  isConnected : client.isConnected = true
  stream : client.stream = stream

/-- The client when it has asked queries, with the rest of what the server sends. -/
def asked (client : Client) (queries : List Query) (rest : Bytes) : Client :=
  { client with
    stream := rest
    sent := client.sent ++ queries.map fun query => statementCommand client.graph query.statement }

theorem Receives.asked {stream : Bytes} (h : client.Receives stream) (queries : List Query)
    (rest : Bytes) : (client.asked queries rest).Receives rest := ⟨h.isConnected, rfl⟩

theorem Receives.asked_nil (h : client.Receives rest) : client.asked [] rest = client := by
  rw [Client.asked, List.map_nil, List.append_nil, ← h.stream]

theorem asked_asked (client : Client) (first second : List Query) (middle rest : Bytes) :
    (client.asked first middle).asked second rest = client.asked (first ++ second) rest := by
  rw [asked, asked, asked, List.map_append, List.append_assoc]

theorem perform_rows {query : Query} {bytes : Bytes} (h : query.IsAnswered graph bytes)
    (hc : client.Receives (bytes ++ rest)) :
    ∃ items listed, (rows query.statement).perform client = (.ok items, client.asked [query] rest) ∧
      listed.Perm (query.rows graph) ∧ List.Forall₂ IsRow listed items := by
  obtain ⟨reply, hset, hw⟩ := h
  obtain ⟨items, sections, rfl, hrows, listed, hp, hi⟩ := hset.exists_rows
  refine ⟨items, listed, ?_, hp, hi⟩
  have hcall : client.call (statementCommand client.graph query.statement) =
      (.ok (.list sections), client.asked [query] rest) := by
    rw [call, hc.stream, hw.read_append]
    rfl
  have hquery : (Client.query query.statement).perform client =
      (.ok (.list sections), client.asked [query] rest) := by
    refine (if_pos hc.isConnected).trans ?_
    rw [hcall]
  rw [rows, Action.perform_bind, hquery]
  exact congrArg (Prod.mk · _) hrows

/-! ## Neighbours -/

theorem neighborsOf_eq {direction : Direction} {neighbors : List Neighbor} {items : List ResultRow}
    (hd : ∀ row ∈ neighbors, row.direction = direction)
    (h : List.Forall₂ IsRow (neighbors.map Query.neighborValues) items) :
    neighborsOf direction items = .ok neighbors := by
  induction neighbors generalizing items with
  | nil =>
      cases h
      rfl
  | cons row rest ih =>
      cases h with
      | cons hrow hrest =>
          obtain ⟨rfl, hd⟩ := List.forall_mem_cons.1 hd
          rw [neighborsOf, hrow.text?_eq 0 rfl, hrow.text?_eq 1 rfl]
          simp only [Relation.ofName_name, ih hd hrest]
          rfl

theorem perform_neighborsIn {path : String} {wanted direction : Direction} {bytes : Bytes}
    (hd : direction ≠ .both)
    (h : Query.AreAnswered graph (Query.forNeighborsIn path wanted direction) bytes)
    (hc : client.Receives (bytes ++ rest)) :
    ∃ result, (neighborsIn path wanted direction).perform client =
        (.ok result, client.asked (Query.forNeighborsIn path wanted direction) rest) ∧
      result.Perm (graph.neighborsIn path wanted direction) := by
  rw [neighborsIn, FileGraph.neighborsIn]
  rw [Query.forNeighborsIn] at h ⊢
  by_cases hw : wanted.includes direction = true
  · rw [if_pos hw] at h
    rw [if_pos hw, if_pos hw, if_pos hw, Action.perform_bind]
    cases h with
    | @cons query _ bytes _ hq hmore =>
        cases hmore
        rw [List.append_nil] at hc
        obtain ⟨items, listed, hr, hp, hi⟩ := perform_rows hq hc
        obtain ⟨result, rfl, hresult⟩ := exists_map_of_perm hp
        have hread := neighborsOf_eq
          (fun row hm => FileGraph.direction_of_mem_neighbors hd (hresult.mem_iff.1 hm)) hi
        refine ⟨result, ?_, hresult⟩
        rw [Query.statement] at hr
        rw [hr]
        exact congrArg (Prod.mk · _) hread
  · rw [if_neg hw] at h
    rw [if_neg hw, if_neg hw, if_neg hw]
    cases h
    refine ⟨[], ?_, .refl _⟩
    rw [List.nil_append] at hc
    rw [hc.asked_nil]
    rfl

theorem perform_neighbors {path : String} {wanted : Direction} {bytes : Bytes}
    (h : Query.AreAnswered graph (Query.forNeighbors path wanted) bytes)
    (hc : client.Receives (bytes ++ rest)) :
    (neighbors path wanted).perform client =
      (.ok (Neighbor.sort
        (graph.neighborsIn path wanted .outgoing ++ graph.neighborsIn path wanted .incoming)),
        client.asked (Query.forNeighbors path wanted) rest) := by
  obtain ⟨before, after, rfl, hbefore, hafter⟩ := h.exists_of_append
  rw [List.append_assoc] at hc
  obtain ⟨outgoing, ho, hout⟩ := perform_neighborsIn (by decide) hbefore hc
  obtain ⟨incoming, hi, hin⟩ := perform_neighborsIn (by decide) hafter (hc.asked _ _)
  rw [neighbors, Action.perform_bind, ho]
  dsimp only
  rw [Action.perform_bind, hi]
  dsimp only
  rw [asked_asked, Action.perform_pure, Neighbor.sort_eq_of_perm (hout.append hin)]
  rfl

/-! ## Statistics -/

theorem relationCount?_eq {entry : RelationCount} {row : ResultRow}
    (h : IsRow (Query.countValues entry) row) : relationCount? row = some entry := by
  rw [relationCount?, h.text?_eq 0 rfl, h.number?_eq 1 rfl]
  rfl

theorem filterMap_relationCount? {counts : List RelationCount} {items : List ResultRow}
    (h : List.Forall₂ IsRow (counts.map Query.countValues) items) :
    items.filterMap relationCount? = counts := by
  induction counts generalizing items with
  | nil =>
      cases h
      rfl
  | cons entry rest ih =>
      cases h with
      | cons hrow hrest =>
          rw [List.filterMap_cons_some (relationCount?_eq hrow), ih hrest]

theorem perform_stats {bytes : Bytes} (h : Query.AreAnswered graph Query.forStats bytes)
    (hc : client.Receives (bytes ++ rest)) :
    stats.perform client =
      (.ok (Stats.ofCounts graph.files.length graph.counts), client.asked Query.forStats rest) := by
  cases h with
  | @cons _ _ first _ hfiles hmore =>
  cases hmore with
  | @cons _ _ second _ hrelations hnil =>
  cases hnil
  rw [List.append_nil, List.append_assoc] at hc
  obtain ⟨items, listed, hr, hp, hi⟩ := perform_rows hfiles hc
  obtain ⟨others, counted, hr', hp', hi'⟩ := perform_rows hrelations (hc.asked _ _)
  obtain rfl : listed = [[.number graph.files.length]] := List.perm_singleton.1 hp
  obtain ⟨counts, rfl, hcounts⟩ := exists_map_of_perm hp'
  change (rows Cypher.countFiles).perform _ = _ at hr
  change (rows Cypher.countRelations).perform _ = _ at hr'
  rw [stats, Action.perform_bind, hr]
  dsimp only
  rw [Action.perform_bind, hr']
  dsimp only
  rw [asked_asked, Action.perform_pure, filterMap_relationCount? hi',
    Stats.ofCounts_eq_of_perm hcounts]
  cases hi with
  | @cons _ row _ items hrow hnil =>
  rw [List.head?_cons, Option.bind_some, hrow.number?_eq 0 rfl]
  rfl

end Client

/-! ## Agreement -/

def sampleGraph : FileGraph where
  files := ["a.py", "b.py", "c.py"]
  edges := [⟨"a.py", "b.py", .imports, none⟩, ⟨"a.py", "b.py", .inherits, some "A"⟩]
  files_nodup := by decide
  keys_nodup := by decide
  proper := by decide
  ends_mem := by decide

def textCell (text : String) : Reply := .list [.number 2, .bytes (Text.Utf8.encode text)]

def numberCell (number : Nat) : Reply := .list [.number 3, .number number]

def resultSet (items : List ResultRow) : Reply :=
  .list [.list [], .list (items.map .list), .list [.status "done"]]

/-- No neighbours in one direction, and two in the other. -/
def sampleNeighbors : Bytes :=
  Reply.frames [resultSet [],
    resultSet [[textCell "a.py", textCell "INHERITS"], [textCell "a.py", textCell "IMPORTS"]]]

def sampleCounts : Bytes :=
  Reply.frames [resultSet [[numberCell 3]],
    resultSet [[textCell "INHERITS", numberCell 1], [textCell "IMPORTS", numberCell 1]]]

def sampleClient (stream : Bytes) : Client :=
  { graph := "g", address := "localhost:6379", stream := stream ++ [0x2B] }

end CodeAtlas.Remote
