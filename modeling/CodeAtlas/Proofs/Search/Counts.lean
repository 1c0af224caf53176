import CodeAtlas.Search.Artifact
import Mathlib.Data.List.Induction
import Mathlib.Data.String.Basic

/-!
# Sorted counts

Counts have their words in strictly ascending order. Those of a list of words tell how often each of
them occurs, modulo the machine word, and entering them into new counts one by one changes nothing.
-/

namespace CodeAtlas.Search.Counts

variable {counts : Counts} {words : List String} {word other : String}

/-- The words ascend, so none of them comes twice. -/
def IsSorted (counts : Counts) : Prop := counts.Pairwise fun first second => first.1 < second.1

theorem IsSorted.nodup_words (h : counts.IsSorted) : counts.words.Nodup := by
  rw [Counts.words, List.Nodup, List.pairwise_map]
  exact h.imp fun {first second} hlt => ne_of_lt hlt

/-! ## Looking up -/

theorem count_cons (word other : String) (count : UInt32) (counts : Counts) :
    Counts.count ((other, count) :: counts) word =
      if word = other then count else counts.count word := by
  by_cases h : word = other
  · simp [Counts.count, h]
  · have hne : (word == other) = false := by simpa using h
    simp [Counts.count, List.lookup_cons, hne, h]

theorem contains_iff : counts.contains word = true ↔ word ∈ counts.words := by
  induction counts with
  | nil => simp [Counts.contains, Counts.words]
  | cons entry rest ih =>
      by_cases h : word = entry.1
      · simp [Counts.contains, Counts.words, h]
      · have hne : (word == entry.1) = false := by simpa using h
        rw [Counts.contains, List.lookup_cons, hne, Counts.words, List.map_cons, List.mem_cons]
        exact ih.trans (by simp [h, Counts.words])

theorem count_eq_zero_of_notMem (h : word ∉ counts.words) : counts.count word = 0 := by
  rw [← contains_iff, Counts.contains, Bool.not_eq_true, Option.isSome_eq_false_iff,
    Option.isNone_iff_eq_none] at h
  rw [Counts.count, h]
  rfl

/-! ## One more word -/

theorem mem_words_increment :
    other ∈ (counts.increment word).words ↔ other = word ∨ other ∈ counts.words := by
  induction counts with
  | nil => simp [increment, Counts.words]
  | cons entry rest ih =>
      rw [increment]
      by_cases hlt : word < entry.1
      · simp [hlt, Counts.words]
      · by_cases heq : word = entry.1
        · simp [heq, Counts.words]
        · simp only [hlt, heq, if_false]
          rw [Counts.words, List.map_cons, List.mem_cons, Counts.words, List.map_cons,
            List.mem_cons]
          change _ ∨ other ∈ (increment word rest).words ↔ _
          rw [ih]
          exact or_left_comm

theorem IsSorted.increment (h : counts.IsSorted) (word : String) :
    (counts.increment word).IsSorted := by
  induction counts with
  | nil => exact List.pairwise_singleton _ _
  | cons entry rest ih =>
      obtain ⟨hfirst, hrest⟩ := List.pairwise_cons.1 h
      rw [Counts.increment]
      by_cases hlt : word < entry.1
      · rw [if_pos hlt]
        refine List.pairwise_cons.2 ⟨fun later hm => ?_, h⟩
        rcases List.mem_cons.1 hm with rfl | hm
        · exact hlt
        · exact hlt.trans (hfirst later hm)
      · rw [if_neg hlt]
        by_cases heq : word = entry.1
        · rw [if_pos heq]
          exact List.pairwise_cons.2 ⟨hfirst, hrest⟩
        · rw [if_neg heq]
          refine List.pairwise_cons.2 ⟨fun later hm => ?_, ih hrest⟩
          have hword : later.1 ∈ (Counts.increment word rest).words :=
            List.mem_map.2 ⟨later, hm, rfl⟩
          rcases mem_words_increment.1 hword with hw | hw
          · rw [hw]
            exact lt_of_le_of_ne (not_lt.1 hlt) (Ne.symm heq)
          · obtain ⟨member, hm, hw⟩ := List.mem_map.1 hw
            rw [← hw]
            exact hfirst member hm

theorem count_increment (h : counts.IsSorted) (word other : String) :
    (counts.increment word).count other =
      counts.count other + if other = word then 1 else 0 := by
  induction counts with
  | nil =>
      rw [increment, count_cons]
      split <;> simp [Counts.count]
  | cons entry rest ih =>
      obtain ⟨hfirst, hrest⟩ := List.pairwise_cons.1 h
      rw [increment]
      by_cases hlt : word < entry.1
      · rw [if_pos hlt, count_cons]
        by_cases heq : other = word
        · -- Every word that is there comes after the new one.
          have hnew : word ∉ Counts.words (entry :: rest) := by
            intro hm
            obtain ⟨member, hm, hw⟩ := List.mem_map.1 hm
            rcases List.mem_cons.1 hm with rfl | hm
            · exact hlt.ne' hw
            · exact (hlt.trans (hfirst member hm)).ne' hw
          rw [if_pos heq, if_pos heq, heq, count_eq_zero_of_notMem hnew, UInt32.zero_add]
        · rw [if_neg heq, if_neg heq, UInt32.add_zero]
      · rw [if_neg hlt]
        by_cases heq : word = entry.1
        · rw [if_pos heq, count_cons, count_cons, heq]
          split <;> simp
        · rw [if_neg heq, count_cons, count_cons, ih hrest]
          by_cases ho : other = entry.1
          · rw [if_pos ho, if_pos ho, if_neg (ho ▸ Ne.symm heq), UInt32.add_zero]
          · rw [if_neg ho, if_neg ho]

/-! ## The words of a list -/

theorem ofWords_append_singleton (words : List String) (word : String) :
    ofWords (words ++ [word]) = (ofWords words).increment word := by
  rw [ofWords, List.foldl_append]
  rfl

theorem isSorted_ofWords (words : List String) : (ofWords words).IsSorted := by
  induction words using List.reverseRecOn with
  | nil => exact List.Pairwise.nil
  | append_singleton words word ih =>
      rw [ofWords_append_singleton]
      exact ih.increment word

theorem mem_words_ofWords : word ∈ (ofWords words).words ↔ word ∈ words := by
  induction words using List.reverseRecOn with
  | nil => rfl
  | append_singleton words last ih =>
      rw [ofWords_append_singleton, mem_words_increment, ih, List.mem_append, List.mem_singleton,
        or_comm]

theorem count_ofWords (words : List String) (word : String) :
    (ofWords words).count word = UInt32.ofNat (words.count word) := by
  induction words using List.reverseRecOn with
  | nil => rfl
  | append_singleton words last ih =>
      rw [ofWords_append_singleton, count_increment (isSorted_ofWords words), ih,
        List.count_append, List.count_singleton, UInt32.ofNat_add]
      congr 1
      by_cases h : word = last
      · simp [h]
      · simp [h, Ne.symm h]

/-! ## Entries put in again -/

theorem insert_append_of_lt {front : Counts} (h : ∀ entry ∈ front, entry.1 < word)
    (count : UInt32) : front.insert word count = front ++ [(word, count)] := by
  induction front with
  | nil => rfl
  | cons entry rest ih =>
      have hlt := h entry List.mem_cons_self
      rw [insert, if_neg hlt.asymm, if_neg hlt.ne', ih fun other hm => h other (by simp [hm])]
      rfl

theorem ofEntries_of_isSorted (h : counts.IsSorted) : ofEntries counts = counts := by
  induction counts using List.reverseRecOn with
  | nil => rfl
  | append_singleton front last ih =>
      obtain ⟨hfront, -, hlast⟩ := List.pairwise_append.1 h
      have hlt : ∀ entry ∈ front, entry.1 < last.1 := fun entry hm => hlast entry hm last (by simp)
      have hof : ofEntries (front ++ [last]) = (ofEntries front).insert last.1 last.2 := by
        rw [ofEntries, List.foldl_append]
        rfl
      rw [hof, ih hfront, insert_append_of_lt hlt]

end CodeAtlas.Search.Counts
