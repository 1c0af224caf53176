import Mathlib.Data.List.Basic
import Mathlib.Order.Compare
import Mathlib.Order.Lattice

/-!
# Sorting by a comparison

Sorted by a lawful comparison a list comes out ascending, and strictly so if no two members are
equal. If equal members are the same, it comes out as one list however it was arranged. Sorted by
falling keys, members with one key keep the order in which they came.
-/

namespace CodeAtlas

section

variable {α : Type} {order : α → α → Ordering} [Std.TransCmp order]

theorem pairwise_isLE_mergeSort (items : List α) :
    (items.mergeSort fun a b => (order a b).isLE).Pairwise fun a b => (order a b).isLE := by
  apply List.pairwise_mergeSort
  · intro a b c
    exact Std.TransCmp.isLE_trans
  · intro a b
    have hs : order b a = (order a b).swap := Std.OrientedCmp.eq_swap
    rw [hs]
    cases order a b <;> rfl

theorem pairwise_lt_mergeSort {items : List α}
    (h : items.Pairwise fun a b => order a b ≠ .eq) :
    (items.mergeSort fun a b => (order a b).isLE).Pairwise fun a b => order a b = .lt := by
  have hne : (items.mergeSort fun a b => (order a b).isLE).Pairwise fun a b => order a b ≠ .eq :=
    h.perm (List.mergeSort_perm _ _).symm fun hab hba => hab (Std.OrientedCmp.eq_symm hba)
  refine (hne.and (pairwise_isLE_mergeSort items)).imp fun {a b} hab => ?_
  revert hab
  cases order a b <;> simp

/-- Where equal members are the same, a sorted list does not show how it was arranged before. -/
theorem eq_of_pairwise_isLE {left right : List α} (hp : left.Perm right)
    (he : ∀ a ∈ left, ∀ b ∈ left, order a b = .eq → a = b)
    (hl : left.Pairwise fun a b => (order a b).isLE)
    (hr : right.Pairwise fun a b => (order a b).isLE) : left = right := by
  refine hp.eq_of_pairwise (fun a b ha hb hab hba => ?_) hl hr
  exact he a ha b (hp.mem_iff.2 hb) (Std.OrientedCmp.isLE_antisymm hab hba)

theorem mergeSort_eq_of_perm {left right : List α} (hp : left.Perm right)
    (he : ∀ a ∈ left, ∀ b ∈ left, order a b = .eq → a = b) :
    left.mergeSort (fun a b => (order a b).isLE) =
      right.mergeSort fun a b => (order a b).isLE := by
  apply @eq_of_pairwise_isLE α order
  · exact (List.mergeSort_perm left _).trans (hp.trans (List.mergeSort_perm right _).symm)
  · intro a ha b hb
    exact he a (List.mem_mergeSort.1 ha) b (List.mem_mergeSort.1 hb)
  · exact pairwise_isLE_mergeSort left
  · exact pairwise_isLE_mergeSort right

theorem filter_mergeSort {items : List α} (keep : α → Bool)
    (he : ∀ a ∈ items, ∀ b ∈ items, order a b = .eq → a = b) :
    (items.mergeSort fun a b => (order a b).isLE).filter keep =
      (items.filter keep).mergeSort fun a b => (order a b).isLE := by
  apply @eq_of_pairwise_isLE α order
  · have hp := (List.mergeSort_perm items fun a b => (order a b).isLE).filter keep
    exact hp.trans (List.mergeSort_perm _ _).symm
  · intro a ha b hb
    exact he a (List.mem_mergeSort.1 (List.mem_filter.1 ha).1)
      b (List.mem_mergeSort.1 (List.mem_filter.1 hb).1)
  · exact (pairwise_isLE_mergeSort items).filter keep
  · exact pairwise_isLE_mergeSort _

end

section

variable {α κ : Type} [LinearOrder κ] {key : α → κ} {le : α → α → Bool} {items : List α}

theorem mergeSort_eq_of_key
    (h : ∀ a ∈ items, ∀ b ∈ items, le a b = decide (key b ≤ key a)) :
    items.mergeSort le = items.mergeSort fun a b => decide (key b ≤ key a) := by
  simpa using List.map_mergeSort (f := id) h

theorem filter_mergeSort_key (items : List α) (value : κ) :
    (items.mergeSort fun a b => decide (key b ≤ key a)).filter (fun a => key a = value) =
      items.filter fun a => key a = value := by
  have hsorted : (items.filter fun a => key a = value).Pairwise fun a b =>
      decide (key b ≤ key a) = true := by
    refine List.pairwise_of_forall_mem_list fun a ha b hb => ?_
    simp only [List.mem_filter, decide_eq_true_eq] at ha hb
    simp [ha.2, hb.2]
  have hsub := (List.sublist_mergeSort
    (fun a b c hab hbc => by simp only [decide_eq_true_eq] at *; exact hbc.trans hab)
    (fun a b => by simp [le_total]) hsorted List.filter_sublist).filter fun a => key a = value
  rw [List.filter_filter] at hsub
  simp only [Bool.and_self] at hsub
  refine (hsub.eq_of_length ?_).symm
  exact (((List.mergeSort_perm items _).filter _).length_eq).symm

theorem pairwise_mergeSort_of_key {before : α → α → Prop}
    (h : ∀ a ∈ items, ∀ b ∈ items, le a b = decide (key b ≤ key a))
    (hbefore : items.Pairwise before) :
    (items.mergeSort le).Pairwise fun a b => key b < key a ∨ key b = key a ∧ before a b := by
  rw [mergeSort_eq_of_key h]
  have hsorted : (items.mergeSort fun a b => decide (key b ≤ key a)).Pairwise fun a b =>
      decide (key b ≤ key a) = true :=
    List.pairwise_mergeSort
      (fun a b c hab hbc => by simp only [decide_eq_true_eq] at *; exact hbc.trans hab)
      (fun a b => by simp [le_total]) items
  rw [List.pairwise_iff_forall_sublist] at hsorted hbefore ⊢
  intro a b hab
  have hle : key b ≤ key a := by simpa using hsorted hab
  refine hle.lt_or_eq.imp_right fun heq => ⟨heq, hbefore ?_⟩
  -- Both stand among the members with their key, which sorting leaves as they were.
  have hkeys := hab.filter fun c => key c = key a
  rw [filter_mergeSort_key] at hkeys
  simp only [heq, List.filter_cons, decide_true, if_true, List.filter_nil] at hkeys
  exact hkeys.trans List.filter_sublist

end

end CodeAtlas
