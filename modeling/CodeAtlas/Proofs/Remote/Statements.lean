import CodeAtlas.Proofs.Remote.Merging
import CodeAtlas.Remote.Client

/-!
# Statements of a load

What a server makes of commands depends on which of them it takes: a statement that it takes adds its
links, and a command that it refuses changes nothing. The statements of a load carry every proper edge
once, under its relation, in the batches and the order of the strategy.
-/

namespace CodeAtlas.Remote

open CodeAtlas.Graph

/-! ## Servers -/

/-- The server has taken a command: it answered, and not with a failure. -/
def isTaken : Except ReplyError Reply → Bool
  | .ok (.failure _) => false
  | .ok _ => true
  | .error _ => false

/-- The command that has a statement carried out for a graph. -/
def Merge.command (name : String) (merge : Merge) : Command :=
  Client.statementCommand name merge.statement

theorem Merge.statement_eq_of_command_eq {name : String} {left right : Merge}
    (h : left.command name = right.command name) : left.statement = right.statement := by
  simpa [Merge.command, Client.statementCommand] using h

/-- What becomes of the graph of a server through commands, each with what came of it. A statement
that it takes is carried out; a command that it refuses changes nothing. -/
inductive Serves (name : String) :
    LinkGraph → List (Command × Except ReplyError Reply) → LinkGraph → Prop where
  | nil (graph : LinkGraph) : Serves name graph [] graph
  | taken (merge : Merge) {outcome : Except ReplyError Reply}
      {log : List (Command × Except ReplyError Reply)} {graph last : LinkGraph} :
      isTaken outcome = true → Serves name (merge.run graph) log last →
        Serves name graph ((merge.command name, outcome) :: log) last
  | refused (command : Command) {outcome : Except ReplyError Reply}
      {log : List (Command × Except ReplyError Reply)} {graph last : LinkGraph} :
      isTaken outcome = false → Serves name graph log last →
        Serves name graph ((command, outcome) :: log) last

namespace Serves

variable {name : String} {graph last : LinkGraph} {outcome : Except ReplyError Reply}
variable {log more : List (Command × Except ReplyError Reply)}

theorem taken_cons_iff {merge : Merge} (h : isTaken outcome = true) :
    Serves name graph ((merge.command name, outcome) :: log) last ↔
      Serves name (merge.run graph) log last := by
  refine ⟨fun hs => ?_, .taken merge h⟩
  generalize hc : merge.command name = command at hs
  cases hs with
  | taken other _ hs => rwa [Merge.run_eq_of_statement_eq (Merge.statement_eq_of_command_eq hc)]
  | refused _ hf _ => simp [h] at hf

theorem refused_cons_iff {command : Command} (h : isTaken outcome = false) :
    Serves name graph ((command, outcome) :: log) last ↔ Serves name graph log last := by
  refine ⟨fun hs => ?_, .refused command h⟩
  cases hs with
  | taken _ ht _ => simp [h] at ht
  | refused _ _ hs => exact hs

theorem append_iff : Serves name graph (log ++ more) last ↔
    ∃ middle, Serves name graph log middle ∧ Serves name middle more last := by
  constructor
  · intro hs
    induction log generalizing graph with
    | nil => exact ⟨graph, .nil graph, hs⟩
    | cons entry rest ih =>
        cases hs with
        | taken merge ht hs =>
            obtain ⟨middle, hfirst, hsecond⟩ := ih hs
            exact ⟨middle, .taken merge ht hfirst, hsecond⟩
        | refused command hf hs =>
            obtain ⟨middle, hfirst, hsecond⟩ := ih hs
            exact ⟨middle, .refused command hf hfirst, hsecond⟩
  · rintro ⟨middle, hfirst, hsecond⟩
    induction hfirst with
    | nil => exact hsecond
    | taken merge ht _ ih => exact .taken merge ht (ih hsecond)
    | refused command hf _ ih => exact .refused command hf (ih hsecond)

theorem zip_iff {merges : List Merge} {outcomes : List (Except ReplyError Reply)}
    (hl : outcomes.length = merges.length) (h : ∀ outcome ∈ outcomes, isTaken outcome = true) :
    Serves name graph ((merges.map (Merge.command name)).zip outcomes) last ↔
      last = graph.add (merges.flatMap Merge.keys) := by
  induction merges generalizing graph outcomes with
  | nil =>
      rw [List.map_nil, List.zip_nil_left, List.flatMap_nil, LinkGraph.add_nil]
      constructor
      · intro hs
        cases hs
        rfl
      · rintro rfl
        exact .nil _
  | cons merge rest ih =>
      obtain ⟨outcome, outcomes, rfl⟩ := List.exists_cons_of_length_eq_add_one hl
      obtain ⟨ht, hrest⟩ := List.forall_mem_cons.1 h
      rw [List.map_cons, List.zip_cons_cons, taken_cons_iff ht, ih (by simpa using hl) hrest,
        Merge.run_eq_add, LinkGraph.add_add, List.flatMap_cons]

end Serves

/-! ## The statements of a load -/

/-- The statements that a strategy sends for edges. -/
def statements (strategy : Strategy) (edges : List Edge) : List Merge :=
  let proper := edges.filter fun edge => !edge.isLoop
  match strategy with
  | .generic => (batches proper).map .all
  | .perRelation => Relation.all.flatMap fun relation =>
      (batches (proper.filter fun edge => edge.relation = relation)).map (.one relation)

/-- The keys of the edges that are no loops. -/
def properKeys (edges : List Edge) : List Edge.Key :=
  (edges.filter fun edge => !edge.isLoop).map Edge.key

/-- A statement for all relations, or for one which all of its edges have. -/
def Merge.IsOf (strategy : Strategy) (merge : Merge) : Prop :=
  match strategy with
  | .generic => merge = .all merge.edges
  | .perRelation => ∃ relation, merge = .one relation merge.edges ∧
      ∀ edge ∈ merge.edges, edge.relation = relation

/-- Statements carry edges: in batches, as a strategy arranges them, and each edge that is no loop
once and under its relation. -/
structure Carries (strategy : Strategy) (edges : List Edge) (merges : List Merge) : Prop where
  length_le : ∀ merge ∈ merges, 1 ≤ merge.edges.length ∧ merge.edges.length ≤ 100
  isOf : ∀ merge ∈ merges, merge.IsOf strategy
  edges_eq : merges.flatMap Merge.edges = Store.arranged strategy edges
  keys_perm : (merges.flatMap Merge.keys).Perm (properKeys edges)

theorem arranged_perm (strategy : Strategy) (edges : List Edge) :
    (Store.arranged strategy edges).Perm (edges.filter fun edge => !edge.isLoop) := by
  cases strategy with
  | generic => exact .refl _
  | perRelation =>
      induction edges with
      | nil => exact .refl _
      | cons edge rest ih =>
          simp only [Store.arranged, Relation.all, List.flatMap_cons, List.flatMap_nil,
            List.append_nil] at ih ⊢
          cases hl : edge.isLoop with
          | true => simpa [hl] using ih
          | false =>
              cases hr : edge.relation with
              | imports => simpa [hl, hr] using ih.cons edge
              | inherits =>
                  simpa [hl, hr] using List.perm_middle.trans (ih.cons edge)
              | instantiates =>
                  simp only [List.filter_cons, hl, hr]
                  simpa [← List.append_assoc] using
                    List.perm_middle.trans ((List.append_assoc .. ▸ ih).cons edge)

theorem flatMap_keys_of_isOf {strategy : Strategy} {merges : List Merge}
    (h : ∀ merge ∈ merges, merge.IsOf strategy) :
    merges.flatMap Merge.keys = (merges.flatMap Merge.edges).map Edge.key := by
  rw [List.map_flatMap]
  refine List.flatMap_congr fun merge hm => ?_
  cases merge with
  | all edges => rfl
  | one relation edges =>
      cases strategy with
      | generic => cases h _ hm
      | perRelation =>
          obtain ⟨other, he, hrelation⟩ := h _ hm
          obtain rfl := (Merge.one.inj he).1
          refine List.map_congr_left fun edge hedge => ?_
          rw [Edge.key, hrelation edge hedge]

theorem mem_statements {strategy : Strategy} {edges : List Edge} {merge : Merge}
    (hm : merge ∈ statements strategy edges) :
    merge.IsOf strategy ∧ ∃ items, merge.edges ∈ batches items := by
  cases strategy with
  | generic =>
      obtain ⟨batch, hb, rfl⟩ := List.mem_map.1 hm
      exact ⟨rfl, _, hb⟩
  | perRelation =>
      obtain ⟨relation, -, hm⟩ := List.mem_flatMap.1 hm
      obtain ⟨batch, hb, rfl⟩ := List.mem_map.1 hm
      refine ⟨⟨relation, rfl, fun edge hedge => ?_⟩, _, hb⟩
      have hflat := List.mem_flatten_of_mem hb hedge
      rw [flatten_batches] at hflat
      simpa using (List.mem_filter.1 hflat).2

theorem flatMap_edges_batches {kind : List Edge → Merge}
    (hk : ∀ batch, (kind batch).edges = batch) (edges : List Edge) :
    ((batches edges).map kind).flatMap Merge.edges = edges := by
  rw [List.flatMap_map]
  simp only [hk]
  rw [List.flatMap_id', flatten_batches]

theorem flatMap_edges_statements (strategy : Strategy) (edges : List Edge) :
    (statements strategy edges).flatMap Merge.edges = Store.arranged strategy edges := by
  cases strategy with
  | generic => exact flatMap_edges_batches (fun _ => rfl) _
  | perRelation =>
      rw [statements, List.flatMap_assoc, Store.arranged]
      refine List.flatMap_congr fun relation _ => ?_
      rw [flatMap_edges_batches fun _ => rfl, List.filter_filter]

theorem carries_statements (strategy : Strategy) (edges : List Edge) :
    Carries strategy edges (statements strategy edges) where
  length_le merge hm := by
    obtain ⟨items, hb⟩ := (mem_statements hm).2
    exact length_of_mem_batches hb
  isOf merge hm := (mem_statements hm).1
  edges_eq := flatMap_edges_statements strategy edges
  keys_perm := by
    rw [flatMap_keys_of_isOf fun merge hm => (mem_statements hm).1, flatMap_edges_statements]
    exact (arranged_perm strategy edges).map Edge.key

end CodeAtlas.Remote
