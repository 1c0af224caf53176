import CodeAtlas.Extraction
import CodeAtlas.Proofs.Action
import CodeAtlas.Proofs.Extraction.Bindings
import CodeAtlas.Proofs.Graph.Dedup

/-!
# The edges of a file

The edges that come of a file lead to other files of the tree, each once for each relation. A class
base or a call leads only where an import leads as well, and does so just when its symbol comes from
there.
-/

namespace CodeAtlas.Extraction

open CodeAtlas.Graph
open Syntax (Outline)

variable {tree : SourceTree} {convention : Convention} {file : String} {outline : Outline}

/-! ## With repetitions -/

theorem mem_edgesOf {edge : Edge} : edge ∈ edgesOf tree convention file outline ↔
    (∃ link ∈ links tree file outline, edge = ⟨file, link.target, .imports, none⟩) ∨
    (∃ className symbol target, .base className symbol ∈ outline.references ∧
      ComesFrom tree file outline symbol target ∧
      edge = ⟨file, target, .inherits, some s!"{className} inherits {symbol.name}"⟩) ∨
    (∃ symbol target, .call symbol ∈ outline.references ∧ convention symbol.name = true ∧
      ComesFrom tree file outline symbol target ∧
      edge = ⟨file, target, .instantiates, some s!"calls {symbol.name}()"⟩) := by
  simp only [edgesOf, List.mem_append, List.mem_map, List.mem_filterMap]
  refine or_congr (by simp only [eq_comm]) ⟨?_, ?_⟩
  · intro h
    obtain ⟨reference, hr, he⟩ := h
    cases reference with
    | base className symbol =>
        obtain ⟨target, ht, rfl⟩ := Option.map_eq_some_iff.1 he
        exact .inl ⟨className, symbol, target, hr, lookup_eq_some_iff.1 ht, rfl⟩
    | call symbol =>
        rw [referenceEdge?, Option.ite_none_right_eq_some] at he
        obtain ⟨target, ht, rfl⟩ := Option.map_eq_some_iff.1 he.2
        exact .inr ⟨symbol, target, hr, he.1, lookup_eq_some_iff.1 ht, rfl⟩
  · intro h
    rcases h with ⟨className, symbol, target, hr, hc, rfl⟩ | ⟨symbol, target, hr, hconv, hc, rfl⟩
    · exact ⟨_, hr, Option.map_eq_some_iff.2 ⟨target, lookup_eq_some_iff.2 hc, rfl⟩⟩
    · refine ⟨_, hr, ?_⟩
      rw [referenceEdge?, if_pos hconv]
      exact Option.map_eq_some_iff.2 ⟨target, lookup_eq_some_iff.2 hc, rfl⟩

theorem ComesFrom.exists_link {symbol : Symbol} {target : String}
    (h : ComesFrom tree file outline symbol target) :
    ∃ link ∈ links tree file outline, link.target = target :=
  exists_link_of_lookup (lookup_eq_some_iff.2 h)

/-- What holds of every edge of a file. -/
structure Grounded (tree : SourceTree) (file : String) (edge : Edge) : Prop where
  source : edge.source = file
  contains : tree.Contains edge.target
  target_ne : edge.target ≠ file
  note : edge.note.isSome ↔ edge.relation ≠ .imports

theorem Grounded.isLoop_eq_false {edge : Edge} (h : Grounded tree file edge) :
    edge.isLoop = false := by
  simpa [Edge.isLoop, h.source] using h.target_ne.symm

theorem grounded_of_link {edge : Edge} (hs : edge.source = file)
    (hn : edge.note.isSome ↔ edge.relation ≠ .imports)
    (h : ∃ link ∈ links tree file outline, link.target = edge.target) :
    Grounded tree file edge := by
  obtain ⟨link, hl, ht⟩ := h
  obtain ⟨hc, hne⟩ := contains_of_mem_links hl
  rw [ht] at hc hne
  exact ⟨hs, hc, hne, hn⟩

theorem exists_link_of_mem_edgesOf {edge : Edge} (h : edge ∈ edgesOf tree convention file outline) :
    ∃ link ∈ links tree file outline, link.target = edge.target := by
  rcases mem_edgesOf.1 h with ⟨link, hl, rfl⟩ | ⟨_, _, _, -, hc, rfl⟩ | ⟨_, _, -, -, hc, rfl⟩
  · exact ⟨link, hl, rfl⟩
  · exact hc.exists_link
  · exact hc.exists_link

theorem grounded_of_mem_edgesOf {edge : Edge} (h : edge ∈ edgesOf tree convention file outline) :
    Grounded tree file edge := by
  have hlink := exists_link_of_mem_edgesOf h
  rcases mem_edgesOf.1 h with ⟨_, -, rfl⟩ | ⟨_, _, _, -, -, rfl⟩ | ⟨_, _, -, -, -, rfl⟩
  · exact grounded_of_link rfl (by simp) hlink
  · exact grounded_of_link rfl (by simp) hlink
  · exact grounded_of_link rfl (by simp) hlink

/-! ## Without repetitions -/

theorem exists_mem_dedup_edgesOf {target : String} {relation : Relation} :
    (∃ edge ∈ Edge.dedup (edgesOf tree convention file outline),
        edge.relation = relation ∧ edge.target = target) ↔
      ∃ edge ∈ edgesOf tree convention file outline,
        edge.relation = relation ∧ edge.target = target := by
  constructor
  · intro h
    obtain ⟨edge, hm, he⟩ := h
    exact ⟨edge, (Edge.dedup_sublist _).mem hm, he⟩
  · intro h
    obtain ⟨edge, hm, hr, ht⟩ := h
    have hl := (grounded_of_mem_edgesOf hm).isLoop_eq_false
    obtain ⟨kept, hk, hkey⟩ := List.mem_map.1 (Edge.mem_keys_dedup.2 ⟨edge, hm, hl, rfl⟩)
    simp only [Edge.key, Prod.mk.injEq] at hkey
    exact ⟨kept, hk, hkey.2.2.trans hr, hkey.2.1.trans ht⟩

theorem nodup_targets_dedup_edgesOf : ((Edge.dedup (edgesOf tree convention file outline)).map
    fun edge => (edge.target, edge.relation)).Nodup := by
  have hn := Edge.nodup_keys_dedup (edgesOf tree convention file outline)
  rw [List.Nodup, List.pairwise_map] at hn ⊢
  refine hn.imp_of_mem fun {left right} hl hr hne he => hne ?_
  have hls := (grounded_of_mem_edgesOf ((Edge.dedup_sublist _).mem hl)).source
  have hrs := (grounded_of_mem_edgesOf ((Edge.dedup_sublist _).mem hr)).source
  simp only [Prod.mk.injEq] at he
  simp only [Edge.key, hls, hrs, he.1, he.2]

theorem ofContent_eq_ok_iff {content : Content} {edges : List Edge} :
    ofContent tree convention file content = .ok edges ↔
      ∃ text outline, textOf file content = .ok text ∧ Outline.ofText? text = some outline ∧
        Edge.dedup (edgesOf tree convention file outline) = edges := by
  unfold ofContent
  cases textOf file content with
  | error fault => simp [bind, Except.bind]
  | ok text =>
      cases ho : Outline.ofText? text with
      | none => simp [bind, Except.bind, ho, throw, throwThe, MonadExceptOf.throw]
      | some outline => simp [bind, Except.bind, ho, pure, Except.pure]

theorem grounded_of_mem_ofContent {content : Content} {edges : List Edge}
    (h : ofContent tree convention file content = .ok edges) {edge : Edge} (hm : edge ∈ edges) :
    Grounded tree file edge := by
  obtain ⟨_, _, -, -, rfl⟩ := ofContent_eq_ok_iff.1 h
  exact grounded_of_mem_edgesOf ((Edge.dedup_sublist _).mem hm)

theorem nodup_keys_of_ofContent {content : Content} {edges : List Edge}
    (h : ofContent tree convention file content = .ok edges) : (edges.map Edge.key).Nodup := by
  obtain ⟨_, _, -, -, rfl⟩ := ofContent_eq_ok_iff.1 h
  exact Edge.nodup_keys_dedup _

/-- The edges of a file leave it for other files of the tree, no two of them for the same one with
the same relation. Those that are not imports carry a note and lead where an import leads. There is
an edge of inheritance to just the files that the symbol of a class base comes from, and one of
instantiation to just those that the symbol of a callee comes from which makes an object. -/
theorem grounded_of_ofContent {content : Content} {edges : List Edge}
    (h : ofContent tree convention file content = .ok edges) :
    (∀ edge ∈ edges, Grounded tree file edge ∧
      ∃ imported ∈ edges, imported.relation = .imports ∧ imported.target = edge.target) ∧
    (edges.map fun edge => (edge.target, edge.relation)).Nodup ∧
    ∃ text outline, textOf file content = .ok text ∧ Outline.ofText? text = some outline ∧
      (∀ target, (∃ edge ∈ edges, edge.relation = .inherits ∧ edge.target = target) ↔
        ∃ className symbol, .base className symbol ∈ outline.references ∧
          ComesFrom tree file outline symbol target) ∧
      ∀ target, (∃ edge ∈ edges, edge.relation = .instantiates ∧ edge.target = target) ↔
        ∃ symbol, .call symbol ∈ outline.references ∧ convention symbol.name = true ∧
          ComesFrom tree file outline symbol target := by
  obtain ⟨text, outline, htext, houtline, rfl⟩ := ofContent_eq_ok_iff.1 h
  refine ⟨fun edge hm => ?_, nodup_targets_dedup_edgesOf, text, outline, htext, houtline, ?_, ?_⟩
  · have hedge := (Edge.dedup_sublist _).mem hm
    obtain ⟨link, hl, ht⟩ := exists_link_of_mem_edgesOf hedge
    refine ⟨grounded_of_mem_edgesOf hedge, exists_mem_dedup_edgesOf.2 ?_⟩
    exact ⟨⟨file, link.target, .imports, none⟩, mem_edgesOf.2 (.inl ⟨link, hl, rfl⟩), rfl, ht⟩
  · intro target
    rw [exists_mem_dedup_edgesOf]
    constructor
    · intro hedge
      obtain ⟨edge, hm, hr, rfl⟩ := hedge
      rcases mem_edgesOf.1 hm with
        ⟨_, -, rfl⟩ | ⟨className, symbol, _, hb, hc, rfl⟩ | ⟨_, _, -, -, -, rfl⟩
      · cases hr
      · exact ⟨className, symbol, hb, hc⟩
      · cases hr
    · intro hbase
      obtain ⟨className, symbol, hb, hc⟩ := hbase
      exact ⟨_, mem_edgesOf.2 (.inr (.inl ⟨className, symbol, target, hb, hc, rfl⟩)), rfl, rfl⟩
  · intro target
    rw [exists_mem_dedup_edgesOf]
    constructor
    · intro hedge
      obtain ⟨edge, hm, hr, rfl⟩ := hedge
      rcases mem_edgesOf.1 hm with
        ⟨_, -, rfl⟩ | ⟨_, _, _, -, -, rfl⟩ | ⟨symbol, _, hs, hconv, hc, rfl⟩
      · cases hr
      · cases hr
      · exact ⟨symbol, hs, hconv, hc⟩
    · intro hcall
      obtain ⟨symbol, hs, hconv, hc⟩ := hcall
      exact ⟨_, mem_edgesOf.2 (.inr (.inr ⟨symbol, target, hs, hconv, hc, rfl⟩)), rfl, rfl⟩

/-- A source that refers to symbols before it imports them. -/
def sampleSource : Content :=
  .text "class Box(shapes.Square): Pen()\nimport shapes\nfrom . import shapes as Pen\n"

/-- A tree with two files, of which one imports the other. -/
def sampleTree : SourceTree :=
  ⟨⟨[(["lib"], .directory), (["lib", "shapes.py"], .file (.text "")),
    (["lib", "draw.py"], .file sampleSource)]⟩, "lib", .python⟩

theorem grounded_of_sampleSource :
    ∃ edges, ofContent sampleTree .capitalized "draw.py" sampleSource = .ok edges ∧
      edges.map (fun edge => (edge.target, edge.relation)) =
        [("shapes.py", .imports), ("shapes.py", .inherits), ("shapes.py", .instantiates)] ∧
      ∀ edge ∈ edges, Grounded sampleTree "draw.py" edge := by
  have hsome : ((ofContent sampleTree .capitalized "draw.py" sampleSource).toOption.map
      fun edges => edges.map fun edge => (edge.target, edge.relation)) =
        some [("shapes.py", .imports), ("shapes.py", .inherits), ("shapes.py", .instantiates)] := by
    decide +kernel
  obtain ⟨edges, he, hmap⟩ := Option.map_eq_some_iff.1 hsome
  have hok : ofContent sampleTree .capitalized "draw.py" sampleSource = .ok edges :=
    eq_ok_of_toOption he
  exact ⟨edges, hok, hmap, fun edge hm => ((grounded_of_ofContent hok).1 edge hm).1⟩

end CodeAtlas.Extraction
