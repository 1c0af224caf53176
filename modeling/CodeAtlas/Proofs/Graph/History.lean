import CodeAtlas.Proofs.Graph.Contents
import CodeAtlas.Proofs.Graph.Operation

/-!
# Histories of a store

On a database without a file, each operation is one on its store. What the store holds is known from
the lists that have been loaded since it was last cleared.
-/

namespace CodeAtlas.Graph

open Text.Utf8

namespace Operation

/-- The edges loaded since the last clearing, given those before the operation. -/
def loaded (edges : List Edge) : Operation → List Edge
  | load more _ => edges ++ more
  | loadWithFallback more => edges ++ more
  | clear => []
  | neighbors _ _ => edges
  | stats => edges
  | close => edges

/-- The operation as one on a store. A local store takes every edge in one pass. -/
def onStore (store : Store) : Operation → Store
  | load edges strategy => store.load strategy edges
  | loadWithFallback edges => store.load .generic edges
  | clear => store.clear
  | neighbors _ _ => store
  | stats => store
  | close => store

theorem after_transient (store : Store) (workspace : Workspace) (operation : Operation) :
    after (.database (.transient store), workspace) operation =
      (.database (.transient (operation.onStore store)), workspace) := by
  cases operation <;> simp only [after, action, Action.perform_forget] <;> rfl

end Operation

namespace Store.Holds

theorem clear (store : Store) : store.clear.Holds [] := by
  rw [Store.clear_eq_empty]
  exact holds_empty

theorem onStore {store : Store} {edges : List Edge} (h : store.Holds edges)
    (operation : Operation) : (operation.onStore store).Holds (operation.loaded edges) := by
  cases operation with
  | load more strategy => exact h.load strategy more
  | loadWithFallback more => exact h.load .generic more
  | clear => exact clear store
  | neighbors file direction => exact h
  | stats => exact h
  | close => exact h

end Store.Holds

theorem exists_holds_of_run (operations : List Operation) (workspace : Workspace) {store : Store}
    {edges : List Edge} (h : store.Holds edges) :
    ∃ last : Store, Operation.afterAll operations (.database (.transient store), workspace) =
        (.database (.transient last), workspace) ∧
      last.Holds (operations.foldl Operation.loaded edges) := by
  induction operations generalizing store edges with
  | nil => exact ⟨store, rfl, h⟩
  | cons operation rest ih =>
      rw [Operation.afterAll, List.foldl_cons, List.foldl_cons, Operation.after_transient]
      exact ih (h.onStore operation)

/-- After any operations on a database that was empty and has no file, its edges in order are those
that `dedup` keeps of all that was loaded since it was last cleared, its files in order are the ends
of these edges, and to load again what has been loaded changes nothing. -/
theorem contents_of_history (operations : List Operation) (workspace : Workspace) :
    ∃ (store : Store) (result : List Edge),
      Operation.afterAll operations (.database (.transient .empty), workspace) =
        (.database (.transient store), workspace) ∧
      store.exported = .ok result ∧
      result.Perm (Edge.dedup (operations.foldl Operation.loaded [])) ∧
      result.Pairwise Edge.Precedes ∧
      (∀ edge ∈ result, edge.isLoop = false) ∧
      (result.map Edge.key).Nodup ∧
      store.filePaths.Pairwise (fun left right => encode left < encode right) ∧
      (∀ path, path ∈ store.filePaths ↔
        ∃ edge ∈ result, path = edge.source ∨ path = edge.target) ∧
      ∀ again ⊆ operations.foldl Operation.loaded [],
        (∀ strategy,
          Operation.after (.database (.transient store), workspace) (.load again strategy) =
            (.database (.transient store), workspace)) ∧
        Operation.after (.database (.transient store), workspace) (.loadWithFallback again) =
          (.database (.transient store), workspace) := by
  obtain ⟨store, hrun, h⟩ := exists_holds_of_run operations workspace Store.holds_empty
  obtain ⟨result, hexport, hperm, hsorted⟩ := h.exported_eq
  obtain ⟨hpaths, hmem⟩ := store.filePaths_sorted
  refine ⟨store, result, hrun, hexport, hperm, hsorted, ?_, ?_, hpaths, ?_, ?_⟩
  · intro edge hm
    exact (Edge.mem_dedup.1 (hperm.mem_iff.1 hm)).1
  · exact (hperm.map Edge.key).nodup_iff.2 (Edge.nodup_keys_dedup _)
  · intro path
    rw [hmem, h.mem_paths]
    simp only [hperm.mem_iff]
  · intro again ha
    refine ⟨fun strategy => ?_, ?_⟩ <;> rw [Operation.after_transient]
    · exact congrArg (fun store => (Handle.database (.transient store), workspace))
        (h.load_eq strategy ha)
    · exact congrArg (fun store => (Handle.database (.transient store), workspace))
        (h.load_eq .generic ha)

end CodeAtlas.Graph
