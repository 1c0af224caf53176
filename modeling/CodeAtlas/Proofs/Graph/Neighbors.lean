import CodeAtlas.Proofs.Graph.Queries

/-!
# Neighbours of a file

The neighbours of a file are read from the rows at it, and a row can be read just where its relation
is a known one. So a question fails where an edge that is asked for has another relation text, and
else its answer is known from the stored edges: each of them once, and in a strict order. What is
asked for in both directions is what comes in, and behind it what goes out.
-/

namespace CodeAtlas.Graph

open Text.Utf8

/-! ## Known relations -/

namespace Relation

def IsName (text : String) : Prop := text ∈ all.map name

instance : DecidablePred IsName := fun text => inferInstanceAs (Decidable (text ∈ all.map name))

theorem isName_iff {text : String} : IsName text ↔ ∃ relation : Relation, relation.name = text := by
  simp [IsName, Relation.mem_all]

theorem isName_name (relation : Relation) : IsName relation.name := isName_iff.2 ⟨relation, rfl⟩

/-- What is answered to a text that is no relation's. -/
def unknown (text : String) : Error :=
  .invalidArgument s!"unknown relation '{text}' (expected IMPORTS, INHERITS or INSTANTIATES)"

theorem ofName_of_not_isName {text : String} (h : ¬ IsName text) :
    ofName text = .error (unknown text) := by
  have hn : names.lookup text = none := by
    rw [List.lookup_eq_none_iff]
    intro entry hm
    obtain ⟨relation, -, rfl⟩ := List.mem_map.1 hm
    exact bne_iff_ne.2 fun he => h (isName_iff.2 ⟨relation, he.symm⟩)
  rw [ofName, hn]
  rfl

end Relation

/-! ## Reading rows -/

namespace Row

def IsKnown (row : Row) : Prop := Relation.IsName row.relation

instance : DecidablePred IsKnown := fun row =>
  inferInstanceAs (Decidable (Relation.IsName row.relation))

theorem isKnown_iff {row : Row} : row.IsKnown ↔ ∃ edge, ofEdge edge = row := by
  constructor
  · intro h
    obtain ⟨relation, hr⟩ := Relation.isName_iff.1 h
    exact ⟨⟨row.source, row.target, relation, row.note⟩, by simp [ofEdge, hr]⟩
  · rintro ⟨edge, rfl⟩
    exact Relation.isName_name edge.relation

def unknowns (rows : List Row) : List Row := rows.filter fun row => ¬ row.IsKnown

theorem exists_edges_of_unknowns {rows : List Row} (h : unknowns rows = []) :
    ∃ edges : List Edge, rows = edges.map ofEdge := by
  have hknown : ∀ row ∈ rows, row ∈ Set.range ofEdge := by
    intro row hm
    exact isKnown_iff.1 (by simpa using List.filter_eq_nil_iff.1 h row hm)
  have hrange : rows ∈ Set.range (List.map ofEdge) := by
    rw [Set.range_list_map]
    exact hknown
  obtain ⟨edges, he⟩ := hrange
  exact ⟨edges, he.symm⟩

/-- A row as one of its ends sees it, at which the far one is a neighbour. -/
def look (far : Row → String) (direction : Direction) (row : Row) : Result Neighbor := do
  return ⟨far row, ← Relation.ofName row.relation, direction⟩

def seen (far : Row → String) (direction : Direction) (edge : Edge) : Neighbor :=
  ⟨far (ofEdge edge), edge.relation, direction⟩

section

variable {far : Row → String} {direction : Direction} {rows : List Row}

theorem look_ofEdge (edge : Edge) :
    (ofEdge edge).look far direction = .ok (seen far direction edge) := by
  have hr : Relation.ofName (ofEdge edge).relation = .ok edge.relation :=
    Relation.ofName_name edge.relation
  rw [look, hr]
  rfl

theorem look_of_not_isKnown {row : Row} (h : ¬ row.IsKnown) :
    row.look far direction = .error (Relation.unknown row.relation) := by
  rw [look, Relation.ofName_of_not_isName h]
  rfl

theorem mapM_look_of_known (h : unknowns rows = []) : ∃ edges : List Edge,
    rows = edges.map ofEdge ∧
      rows.mapM (look far direction) = .ok (edges.map (seen far direction)) := by
  obtain ⟨edges, rfl⟩ := exists_edges_of_unknowns h
  exact ⟨edges, rfl, mapM_map_ofEdge look_ofEdge edges⟩

theorem mapM_look_of_unknown {first : Row} {more : List Row} (h : unknowns rows = first :: more) :
    rows.mapM (look far direction) = .error (Relation.unknown first.relation) := by
  obtain ⟨before, after, rfl, hbefore, hfirst, -⟩ := List.filter_eq_cons_iff.1 h
  have hknown : unknowns before = [] := List.filter_eq_nil_iff.2 hbefore
  obtain ⟨edges, -, hread⟩ := @mapM_look_of_known far direction _ hknown
  have hfail : first.look far direction = _ := look_of_not_isKnown (by simpa using hfirst)
  rw [List.mapM_append, List.mapM_cons, hread, hfail]
  rfl

theorem direction_of_mapM_look {result : List Neighbor}
    (h : rows.mapM (look far direction) = .ok result) :
    ∀ neighbor ∈ result, neighbor.direction = direction := by
  intro neighbor hm
  cases hu : unknowns rows with
  | cons first more =>
      rw [mapM_look_of_unknown hu] at h
      cases h
  | nil =>
      obtain ⟨edges, -, hread⟩ := @mapM_look_of_known far direction rows hu
      obtain rfl : edges.map (seen far direction) = result := Except.ok.inj (hread.symm.trans h)
      obtain ⟨edge, -, rfl⟩ := List.mem_map.1 hm
      rfl

end

end Row

/-! ## The order of neighbours -/

theorem Direction.name_injective : Function.Injective Direction.name := by
  intro left right h
  cases left <;> cases right <;> first | rfl | exact absurd h (by decide)

namespace Neighbor

instance : Std.TransCmp order :=
  inferInstanceAs (Std.TransCmp (compareLex (compareOn fun row => row.direction.name)
    (compareLex (compareOn fun row => row.relation.name) (compareOn file))))

theorem order_eq_eq_iff {left right : Neighbor} : order left right = .eq ↔ left = right := by
  cases left
  cases right
  simp only [order, Ordering.then_eq_eq, Std.LawfulEqCmp.compare_eq_iff_eq, mk.injEq,
    Direction.name_injective.eq_iff, Relation.name_injective.eq_iff]
  grind

/-- Stands before another neighbour in the order of the bytes of relation and file. -/
def Precedes (left right : Neighbor) : Prop :=
  encode left.relation.name < encode right.relation.name ∨
    left.relation = right.relation ∧ encode left.file < encode right.file

theorem precedes_of_order {left right : Neighbor} (hd : left.direction = right.direction)
    (h : order left right = .lt) : left.Precedes right := by
  simpa [order, hd, Precedes, Ordering.then_eq_lt, compare_eq_lt_iff,
    Relation.name_injective.eq_iff] using h

theorem perm_sort (rows : List Neighbor) : (sort rows).Perm rows := List.mergeSort_perm rows _

theorem sort_eq_of_perm {left right : List Neighbor} (h : left.Perm right) :
    sort left = sort right :=
  mergeSort_eq_of_perm h fun _ _ _ _ he => order_eq_eq_iff.1 he

theorem pairwise_precedes_sort {rows : List Neighbor} {direction : Direction} (hn : rows.Nodup)
    (hd : ∀ row ∈ rows, row.direction = direction) : (sort rows).Pairwise Precedes := by
  have hlt : (sort rows).Pairwise fun a b => order a b = .lt :=
    pairwise_lt_mergeSort (hn.imp fun hne he => hne (order_eq_eq_iff.1 he))
  refine hlt.imp_of_mem fun {left right} hl hr h => precedes_of_order ?_ h
  rw [hd left ((perm_sort rows).mem_iff.1 hl), hd right ((perm_sort rows).mem_iff.1 hr)]

theorem Precedes.ne {left right : Neighbor} (h : left.Precedes right) : left ≠ right := by
  rintro rfl
  rcases h with h | ⟨-, h⟩ <;> exact List.lt_irrefl _ h

theorem sort_append {outgoing incoming : List Neighbor}
    (ho : ∀ row ∈ outgoing, row.direction = .outgoing)
    (hi : ∀ row ∈ incoming, row.direction = .incoming) :
    sort (outgoing ++ incoming) = sort incoming ++ sort outgoing := by
  apply @eq_of_pairwise_isLE Neighbor order
  · have hparts := (perm_sort incoming).append (perm_sort outgoing)
    exact (perm_sort _).trans (List.perm_append_comm.trans hparts.symm)
  · intro a _ b _ he
    exact order_eq_eq_iff.1 he
  · exact pairwise_isLE_mergeSort _
  · rw [List.pairwise_append]
    refine ⟨pairwise_isLE_mergeSort _, pairwise_isLE_mergeSort _, fun left hl right hr => ?_⟩
    have hleft := hi left ((perm_sort _).mem_iff.1 hl)
    have hright := ho right ((perm_sort _).mem_iff.1 hr)
    have hnames : compare Direction.incoming.name Direction.outgoing.name = .lt := by decide
    simp [order, hleft, hright, hnames]

end Neighbor

/-! ## Neighbours in one direction -/

namespace Row

/-- What is answered from the rows at a file, of which no two have the same far end and relation. It
is the first relation that is not known, or else a neighbour for each row. -/
theorem mapM_look_cases {far : Row → String} {direction : Direction} {rows stored : List Row}
    (hp : rows.Perm stored) (hn : (stored.map fun row => (far row, row.relation)).Nodup) :
    (∃ row ∈ stored, ¬ row.IsKnown ∧
      rows.mapM (look far direction) = .error (Relation.unknown row.relation)) ∨
    (∀ row ∈ stored, row.IsKnown) ∧ ∃ result, rows.mapM (look far direction) = .ok result ∧
      result.Nodup ∧ ∀ neighbor, neighbor ∈ result ↔ neighbor.direction = direction ∧
        ∃ row ∈ stored, far row = neighbor.file ∧ row.relation = neighbor.relation.name := by
  cases hu : unknowns rows with
  | cons first more =>
      left
      have hm : first ∈ unknowns rows := hu ▸ List.mem_cons_self
      obtain ⟨hm, hf⟩ := List.mem_filter.1 hm
      exact ⟨first, hp.mem_iff.1 hm, by simpa using hf, mapM_look_of_unknown hu⟩
  | nil =>
      right
      obtain ⟨edges, rfl, hread⟩ := mapM_look_of_known hu
      refine ⟨fun row hm => ?_, edges.map (seen far direction), hread, ?_, fun neighbor => ?_⟩
      · obtain ⟨edge, -, he⟩ := List.mem_map.1 (hp.mem_iff.2 hm)
        exact isKnown_iff.2 ⟨edge, he⟩
      · -- An edge shows its far end and its relation.
        have hends := (hp.map fun row => (far row, row.relation)).nodup_iff.2 hn
        rw [List.map_map] at hends
        refine List.Nodup.of_map (fun neighbor => (neighbor.file, neighbor.relation.name)) ?_
        rwa [List.map_map]
      · simp only [← hp.mem_iff, List.mem_map]
        constructor
        · rintro ⟨edge, he, rfl⟩
          exact ⟨rfl, ofEdge edge, ⟨edge, he, rfl⟩, rfl, rfl⟩
        · rintro ⟨hd, _, ⟨edge, he, rfl⟩, hfile, hr⟩
          have hrelation : edge.relation = neighbor.relation := Relation.name_injective hr
          refine ⟨edge, he, ?_⟩
          rw [seen, hfile, hrelation, ← hd]

end Row

namespace Store

variable {store : Store} {path : String}

/-- An edge with this relation text stands between the files with these paths. -/
def Stores (store : Store) (source target relation : String) : Prop :=
  ∃ edge ∈ store.edges, store.pathOf? edge.source = some source ∧
    store.pathOf? edge.target = some target ∧ edge.relation = relation

/-- There is such an edge at a file, looked at in a direction. -/
def Meets (store : Store) (path : String) (direction : Direction) (file relation : String) : Prop :=
  direction.includes .outgoing = true ∧ store.Stores path file relation ∨
    direction.includes .incoming = true ∧ store.Stores file path relation

theorem stores_iff {source target relation : String} : store.Stores source target relation ↔
    ∃ row ∈ store.rows, row.source = source ∧ row.target = target ∧ row.relation = relation := by
  constructor
  · intro h
    obtain ⟨edge, hm, hs, ht, hr⟩ := h
    refine ⟨⟨source, target, relation, edge.note⟩, mem_rows.2 ⟨edge, hm, ?_⟩, rfl, rfl, rfl⟩
    exact row?_eq_some_iff.2 ⟨hs, ht, hr, rfl⟩
  · rintro ⟨row, hm, rfl, rfl, rfl⟩
    obtain ⟨edge, hm, hr⟩ := mem_rows.1 hm
    obtain ⟨hs, ht, hr, -⟩ := row?_eq_some_iff.1 hr
    exact ⟨edge, hm, hs, ht, hr⟩

theorem meets_outgoing_iff {file relation : String} :
    store.Meets path .outgoing file relation ↔ store.Stores path file relation := by
  simp [Meets, Direction.includes]

theorem meets_incoming_iff {file relation : String} :
    store.Meets path .incoming file relation ↔ store.Stores file path relation := by
  simp [Meets, Direction.includes]

theorem meets_both_iff {file relation : String} : store.Meets path .both file relation ↔
    store.Meets path .outgoing file relation ∨ store.Meets path .incoming file relation := by
  simp [Meets, Direction.includes]

/-- A question fails for an edge that is asked for and whose relation is not known. -/
def Refuses (store : Store) (path : String) (direction : Direction) : Prop :=
  ∃ file relation, store.Meets path direction file relation ∧ ¬ Relation.IsName relation ∧
    store.neighbors path direction = .error (Relation.unknown relation)

/-- Every edge that is asked for can be read. -/
def IsReadable (store : Store) (path : String) (direction : Direction) : Prop :=
  ∀ file relation, store.Meets path direction file relation → Relation.IsName relation

/-- A question for one direction fails, or lists the other ends of the edges, each once and in
order. -/
def Answers (store : Store) (path : String) (direction : Direction) : Prop :=
  store.Refuses path direction ∨ store.IsReadable path direction ∧
    ∃ rows, store.neighbors path direction = .ok rows ∧ rows.Pairwise Neighbor.Precedes ∧
      ∀ row, row ∈ rows ↔ row.direction = direction ∧
        store.Meets path direction row.file row.relation.name

theorem answers_of_rows {far : Row → String} {direction : Direction} {rows stored : List Row}
    (hq : store.neighbors path direction =
      (rows.mapM (Row.look far direction)).map Neighbor.sort)
    (hp : rows.Perm stored) (hn : (stored.map fun row => (far row, row.relation)).Nodup)
    (hm : ∀ file relation, store.Meets path direction file relation ↔
      ∃ row ∈ stored, far row = file ∧ row.relation = relation) :
    store.Answers path direction := by
  rcases Row.mapM_look_cases hp hn with ⟨row, hr, hu, he⟩ | ⟨hknown, result, he, hnodup, hmem⟩
  · left
    refine ⟨far row, row.relation, (hm _ _).2 ⟨row, hr, rfl, rfl⟩, hu, ?_⟩
    rw [hq, he]
    rfl
  · right
    constructor
    · intro file relation h
      obtain ⟨row, hr, -, rfl⟩ := (hm _ _).1 h
      exact hknown row hr
    · refine ⟨Neighbor.sort result, by rw [hq, he]; rfl, ?_, fun row => ?_⟩
      · exact Neighbor.pairwise_precedes_sort hnodup fun row hr => ((hmem row).1 hr).1
      · rw [(Neighbor.perm_sort result).mem_iff, hmem, hm]

theorem neighbors_outgoing_eq (store : Store) (path : String) : store.neighbors path .outgoing =
    ((store.rowsFrom path).mapM (Row.look Row.target .outgoing)).map Neighbor.sort := by
  have hq : store.outgoing path = (store.rowsFrom path).mapM (Row.look Row.target .outgoing) := rfl
  rw [← hq]
  cases h : store.outgoing path <;>
    simp [neighbors, Direction.includes, h, bind, Except.bind, pure, Except.pure, Except.map]

theorem neighbors_incoming_eq (store : Store) (path : String) : store.neighbors path .incoming =
    ((store.rowsTo path).mapM (Row.look Row.source .incoming)).map Neighbor.sort := by
  have hq : store.incoming path = (store.rowsTo path).mapM (Row.look Row.source .incoming) := rfl
  rw [← hq]
  cases h : store.incoming path <;>
    simp [neighbors, Direction.includes, h, bind, Except.bind, pure, Except.pure, Except.map]

theorem nodup_map_rows {ends : Row → String × String} {keep : Row → Bool}
    (h : ∀ left right, keep left = true → keep right = true → ends left = ends right →
      left.key = right.key) : ((store.rows.filter keep).map ends).Nodup := by
  have hkeys := store.nodup_keys_rows
  rw [List.Nodup, List.pairwise_map] at hkeys ⊢
  refine (hkeys.filter keep).imp_of_mem fun {left right} hl hr hne he => hne ?_
  exact h left right (List.mem_filter.1 hl).2 (List.mem_filter.1 hr).2 he

theorem answers_outgoing (store : Store) (path : String) : store.Answers path .outgoing := by
  apply answers_of_rows (store.neighbors_outgoing_eq path) (store.perm_rowsFrom path)
  · apply nodup_map_rows
    intro left right hl hr he
    simp_all [Row.key]
  · intro file relation
    simp only [meets_outgoing_iff, stores_iff, List.mem_filter, decide_eq_true_eq]
    grind

theorem answers_incoming (store : Store) (path : String) : store.Answers path .incoming := by
  apply answers_of_rows (store.neighbors_incoming_eq path) (List.Perm.refl _)
  · apply nodup_map_rows
    intro left right hl hr he
    simp_all [Row.key]
  · intro file relation
    simp only [meets_incoming_iff, stores_iff, rowsTo, List.mem_filter, decide_eq_true_eq]
    grind

/-! ## Neighbours in both directions -/

theorem neighbors_both_eq (store : Store) (path : String) : store.neighbors path .both = do
    let outgoing ← store.neighbors path .outgoing
    let incoming ← store.neighbors path .incoming
    return incoming ++ outgoing := by
  rw [neighbors_outgoing_eq, neighbors_incoming_eq]
  have hq : store.neighbors path .both = do
      let outgoing ← (store.rowsFrom path).mapM (Row.look Row.target .outgoing)
      let incoming ← (store.rowsTo path).mapM (Row.look Row.source .incoming)
      return Neighbor.sort (outgoing ++ incoming) := rfl
  rw [hq]
  cases ho : (store.rowsFrom path).mapM (Row.look Row.target .outgoing) with
  | error cause => rfl
  | ok outgoing =>
      cases hi : (store.rowsTo path).mapM (Row.look Row.source .incoming) with
      | error cause => rfl
      | ok incoming =>
          exact congrArg Except.ok (Neighbor.sort_append (Row.direction_of_mapM_look ho)
            (Row.direction_of_mapM_look hi))

theorem refuses_or_isReadable (store : Store) (path : String) (direction : Direction) :
    store.Refuses path direction ∨
      store.IsReadable path direction ∧ ∃ rows, store.neighbors path direction = .ok rows := by
  have one_way {direction : Direction} (h : store.Answers path direction) :
      store.Refuses path direction ∨
        store.IsReadable path direction ∧ ∃ rows, store.neighbors path direction = .ok rows :=
    h.imp_right fun h => ⟨h.1, h.2.imp fun _ hr => hr.1⟩
  cases direction with
  | outgoing => exact one_way (store.answers_outgoing path)
  | incoming => exact one_way (store.answers_incoming path)
  | both =>
      simp only [Refuses, IsReadable, neighbors_both_eq, meets_both_iff]
      rcases one_way (store.answers_outgoing path) with
        ⟨file, relation, hm, hu, ho⟩ | ⟨hout, outgoing, ho⟩
      · exact .inl ⟨file, relation, .inl hm, hu, by rw [ho]; rfl⟩
      · rcases one_way (store.answers_incoming path) with
          ⟨file, relation, hm, hu, hi⟩ | ⟨hin, incoming, hi⟩
        · exact .inl ⟨file, relation, .inr hm, hu, by rw [ho, hi]; rfl⟩
        · refine .inr ⟨fun file relation hm => ?_, incoming ++ outgoing, by rw [ho, hi]; rfl⟩
          exact hm.elim (hout file relation) (hin file relation)

theorem refuses_of_error {direction : Direction} {error : Error}
    (h : store.neighbors path direction = .error error) : store.Refuses path direction := by
  rcases store.refuses_or_isReadable path direction with hr | ⟨-, rows, hr⟩
  · exact hr
  · rw [hr] at h
    cases h

theorem exists_error_iff {direction : Direction} :
    (∃ error, store.neighbors path direction = .error error) ↔
      ∃ file relation, store.Meets path direction file relation ∧ ¬ Relation.IsName relation := by
  constructor
  · rintro ⟨error, h⟩
    obtain ⟨file, relation, hm, hu, -⟩ := refuses_of_error h
    exact ⟨file, relation, hm, hu⟩
  · rintro ⟨file, relation, hm, hu⟩
    rcases store.refuses_or_isReadable path direction with ⟨_, _, -, -, he⟩ | ⟨hk, -⟩
    · exact ⟨_, he⟩
    · exact absurd (hk file relation hm) hu

theorem exists_ok_of_isReadable {direction : Direction} (h : store.IsReadable path direction) :
    ∃ rows, store.neighbors path direction = .ok rows := by
  rcases store.refuses_or_isReadable path direction with ⟨file, relation, hm, hu, -⟩ | ⟨-, hr⟩
  · exact absurd (h file relation hm) hu
  · exact hr

theorem Answers.of_ok {direction : Direction} (h : store.Answers path direction)
    {rows : List Neighbor} (hr : store.neighbors path direction = .ok rows) :
    rows.Pairwise Neighbor.Precedes ∧ rows.Nodup ∧
      ∀ row, row ∈ rows ↔ row.direction = direction ∧
        store.Meets path direction row.file row.relation.name := by
  rcases h with ⟨_, _, -, -, he⟩ | ⟨-, result, he, hs, hm⟩
  · rw [hr] at he
    cases he
  · obtain rfl : rows = result := Except.ok.inj (hr.symm.trans he)
    exact ⟨hs, hs.imp fun h => h.ne, hm⟩

theorem neighbors_both_eq_ok_iff {rows : List Neighbor} :
    store.neighbors path .both = .ok rows ↔ ∃ incoming outgoing,
      store.neighbors path .incoming = .ok incoming ∧
      store.neighbors path .outgoing = .ok outgoing ∧ incoming ++ outgoing = rows := by
  rw [neighbors_both_eq]
  cases ho : store.neighbors path .outgoing with
  | error cause => simp [bind, Except.bind]
  | ok outgoing =>
      cases hi : store.neighbors path .incoming with
      | error cause => simp [bind, Except.bind]
      | ok incoming => simp [bind, Except.bind, pure, Except.pure]

/-- The neighbours of a file in both directions are those that come in and then those that go out.
Each of the two lists is in strict order and has just the other ends of the stored edges, so that a
file is listed at another one just where that one is listed at it. A question fails just where an
edge that is asked for has an unknown relation, and the answer names such a relation. -/
theorem neighbors_of_edges (store : Store) (path : String) :
    (∀ rows, store.neighbors path .both = .ok rows ↔ ∃ incoming outgoing,
      store.neighbors path .incoming = .ok incoming ∧
      store.neighbors path .outgoing = .ok outgoing ∧ incoming ++ outgoing = rows) ∧
    (∀ rows, store.neighbors path .outgoing = .ok rows →
      rows.Pairwise Neighbor.Precedes ∧ rows.Nodup ∧
        ∀ row, row ∈ rows ↔
          row.direction = .outgoing ∧ store.Stores path row.file row.relation.name) ∧
    (∀ rows, store.neighbors path .incoming = .ok rows →
      rows.Pairwise Neighbor.Precedes ∧ rows.Nodup ∧
        ∀ row, row ∈ rows ↔
          row.direction = .incoming ∧ store.Stores row.file path row.relation.name) ∧
    (∀ file relation outgoing incoming, store.neighbors path .outgoing = .ok outgoing →
      store.neighbors file .incoming = .ok incoming →
        (⟨file, relation, .outgoing⟩ ∈ outgoing ↔ ⟨path, relation, .incoming⟩ ∈ incoming)) ∧
    (∀ direction, (∃ reason, store.neighbors path direction = .error (.invalidArgument reason)) ↔
      ∃ file relation, ¬ Relation.IsName relation ∧
        (direction.includes .outgoing = true ∧ store.Stores path file relation ∨
          direction.includes .incoming = true ∧ store.Stores file path relation)) ∧
    (∀ direction error, store.neighbors path direction = .error error →
      ∃ relation, ¬ Relation.IsName relation ∧ error = Relation.unknown relation) ∧
    ((∃ error, store.neighbors path .both = .error error) ↔
      (∃ error, store.neighbors path .incoming = .error error) ∨
        ∃ error, store.neighbors path .outgoing = .error error) := by
  have hfails (direction : Direction) :
      (∃ error, store.neighbors path direction = .error error) ↔
        ∃ file relation, store.Meets path direction file relation ∧ ¬ Relation.IsName relation :=
    exists_error_iff
  refine ⟨fun rows => neighbors_both_eq_ok_iff, ?_, ?_, ?_, fun direction => ?_, ?_, ?_⟩
  · intro rows hr
    simpa only [meets_outgoing_iff] using (store.answers_outgoing path).of_ok hr
  · intro rows hr
    simpa only [meets_incoming_iff] using (store.answers_incoming path).of_ok hr
  · intro file relation outgoing incoming ho hi
    obtain ⟨-, -, hout⟩ := (store.answers_outgoing path).of_ok ho
    obtain ⟨-, -, hin⟩ := (store.answers_incoming file).of_ok hi
    rw [hout, hin, meets_outgoing_iff, meets_incoming_iff]
    simp only [true_and]
  · constructor
    · rintro ⟨reason, h⟩
      obtain ⟨file, relation, hm, hu⟩ := (hfails direction).1 ⟨_, h⟩
      exact ⟨file, relation, hu, hm⟩
    · rintro ⟨file, relation, hu, hm⟩
      obtain ⟨error, h⟩ := (hfails direction).2 ⟨file, relation, hm, hu⟩
      obtain ⟨_, other, -, -, he⟩ := refuses_of_error h
      exact ⟨_, he⟩
  · intro direction error h
    obtain ⟨_, relation, -, hu, he⟩ := refuses_of_error h
    rw [h] at he
    exact ⟨relation, hu, Except.error.inj he⟩
  · simp only [hfails, meets_both_iff]
    grind

/-- A store with an edge of a file to itself and one whose relation is not known. -/
def sampleStore : Store where
  files := [⟨1, "a.py"⟩, ⟨2, "b.py"⟩, ⟨3, "c.py"⟩]
  edges := [⟨1, 1, "INHERITS", none⟩, ⟨1, 2, "IMPORTS", none⟩, ⟨3, 2, "INSTANTIATES", none⟩,
    ⟨2, 1, "USES", none⟩]
  lastNumber := 3
  numbers_le := by decide
  numbers_nodup := by decide
  paths_nodup := by decide
  ends_stored := by decide
  keys_nodup := by decide

theorem neighbors_of_sampleStore :
    ∃ outgoing incoming, sampleStore.neighbors "a.py" .outgoing = .ok outgoing ∧
      sampleStore.neighbors "b.py" .incoming = .ok incoming ∧
      outgoing.Pairwise Neighbor.Precedes ∧
      ⟨"b.py", .imports, .outgoing⟩ ∈ outgoing ∧ ⟨"a.py", .imports, .incoming⟩ ∈ incoming ∧
      ∃ reason, sampleStore.neighbors "a.py" .both = .error (.invalidArgument reason) := by
  have hleave : ∀ edge ∈ sampleStore.edges, sampleStore.pathOf? edge.source = some "a.py" →
      Relation.IsName edge.relation := by decide
  have hreach : ∀ edge ∈ sampleStore.edges, sampleStore.pathOf? edge.target = some "b.py" →
      Relation.IsName edge.relation := by decide
  obtain ⟨outgoing, ho⟩ : ∃ rows, sampleStore.neighbors "a.py" .outgoing = .ok rows := by
    refine exists_ok_of_isReadable fun file relation hm => ?_
    obtain ⟨edge, he, hs, -, rfl⟩ := meets_outgoing_iff.1 hm
    exact hleave edge he hs
  obtain ⟨incoming, hi⟩ : ∃ rows, sampleStore.neighbors "b.py" .incoming = .ok rows := by
    refine exists_ok_of_isReadable fun file relation hm => ?_
    obtain ⟨edge, he, -, ht, rfl⟩ := meets_incoming_iff.1 hm
    exact hreach edge he ht
  have himport : sampleStore.Stores "a.py" "b.py" "IMPORTS" :=
    ⟨⟨1, 2, "IMPORTS", none⟩, by decide, by decide, by decide, rfl⟩
  have huse : sampleStore.Stores "b.py" "a.py" "USES" :=
    ⟨⟨2, 1, "USES", none⟩, by decide, by decide, by decide, rfl⟩
  obtain ⟨-, hlist, -, hmirror, hfails, -, -⟩ := neighbors_of_edges sampleStore "a.py"
  obtain ⟨hsorted, -, hmem⟩ := hlist outgoing ho
  have hout : (⟨"b.py", .imports, .outgoing⟩ : Neighbor) ∈ outgoing := (hmem _).2 ⟨rfl, himport⟩
  refine ⟨outgoing, incoming, ho, hi, hsorted, hout, (hmirror _ _ _ _ ho hi).1 hout, ?_⟩
  exact (hfails .both).2 ⟨"b.py", "USES", by decide, .inr ⟨rfl, huse⟩⟩

end Store

end CodeAtlas.Graph
