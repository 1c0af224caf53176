import CodeAtlas.Graph.Loading
import CodeAtlas.Proofs.Action

/-!
# Batches and the fallback

A list is cut into batches without loss, and a load that is not supported in one pass is done
relation by relation from where the first one stopped.
-/

namespace CodeAtlas.Graph

/-! ## Batches -/

theorem flatten_batchesFuel {α : Type} {size fuel : Nat} (hs : 0 < size) :
    ∀ items : List α, items.length ≤ fuel → (batchesFuel size fuel items).flatten = items := by
  induction fuel with
  | zero =>
      intro items hl
      rw [List.length_eq_zero_iff.1 (Nat.le_zero.1 hl)]
      rfl
  | succ fuel ih =>
      intro items hl
      cases items with
      | nil => rfl
      | cons item rest =>
          have hd : ((item :: rest).drop size).length ≤ fuel := by
            rw [List.length_drop]
            omega
          rw [batchesFuel, List.flatten_cons, ih _ hd, List.take_append_drop]
          exact List.cons_ne_nil item rest

theorem flatten_batches {α : Type} (items : List α) : (batches items).flatten = items :=
  flatten_batchesFuel (by decide) items (Nat.le_refl _)

theorem length_of_mem_batchesFuel {α : Type} {size fuel : Nat} (hs : 0 < size) :
    ∀ items : List α, ∀ batch ∈ batchesFuel size fuel items,
      1 ≤ batch.length ∧ batch.length ≤ size := by
  induction fuel with
  | zero =>
      intro items batch hm
      cases hm
  | succ fuel ih =>
      intro items batch hm
      cases items with
      | nil => cases hm
      | cons item rest =>
          rw [batchesFuel] at hm
          · rcases List.mem_cons.1 hm with rfl | hm
            · rw [List.length_take, List.length_cons]
              omega
            · exact ih _ batch hm
          · exact List.cons_ne_nil item rest

theorem length_of_mem_batches {α : Type} {items batch : List α} (hm : batch ∈ batches items) :
    1 ≤ batch.length ∧ batch.length ≤ batchSize :=
  length_of_mem_batchesFuel (by decide) items batch hm

theorem batches_ne_nil {α : Type} {items : List α} (h : items ≠ []) : batches items ≠ [] := by
  intro he
  have hf := flatten_batches items
  rw [he] at hf
  exact h hf.symm

theorem Relation.mem_all (relation : Relation) : relation ∈ Relation.all := by
  cases relation <;> decide

/-! ## Fallback -/

theorem perform_loadWithFallback {σ : Type} (load : Strategy → Action σ LoadSummary) (state : σ) :
    (loadWithFallback load).perform state =
      match (load .generic).perform state with
      | (.error (.unsupported _), state) => (load .perRelation).perform state
      | outcome => outcome := rfl

end CodeAtlas.Graph
