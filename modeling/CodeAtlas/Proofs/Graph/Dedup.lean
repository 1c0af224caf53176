import CodeAtlas.Graph.Edge

/-!
# Edges counted once

The edges that `dedup` keeps are those that are no loop and the first of their key. They keep their
order, no key is left twice and none is lost, and a longer list keeps what its front keeps.
-/

namespace CodeAtlas.Graph.Edge

abbrev Key := String × String × Relation

def first? (key : Key) (edges : List Edge) : Option Edge := edges.find? fun edge => edge.key = key

theorem first?_cons (key : Key) (edge : Edge) (rest : List Edge) :
    first? key (edge :: rest) = if edge.key = key then some edge else first? key rest := by
  by_cases h : edge.key = key <;> simp [first?, h]

theorem first?_append (key : Key) (xs ys : List Edge) :
    first? key (xs ++ ys) = (first? key xs).or (first? key ys) := List.find?_append

theorem key_of_first? {key : Key} {edges : List Edge} {edge : Edge}
    (h : first? key edges = some edge) : edge.key = key := by
  simpa using List.find?_some h

theorem mem_of_first? {key : Key} {edges : List Edge} {edge : Edge}
    (h : first? key edges = some edge) : edge ∈ edges := List.mem_of_find?_eq_some h

theorem first?_isSome_iff {key : Key} {edges : List Edge} :
    (first? key edges).isSome ↔ ∃ edge ∈ edges, edge.key = key := by
  simp [first?]

theorem isLoop_congr {left right : Edge} (h : left.key = right.key) :
    left.isLoop = right.isLoop := by
  simp only [key, Prod.mk.injEq] at h
  simp [isLoop, h.1, h.2.1]

/-! ## What is kept -/

theorem mem_dedupFrom {seen : List Key} {edges : List Edge} {edge : Edge} :
    edge ∈ dedupFrom seen edges ↔
      edge.isLoop = false ∧ edge.key ∉ seen ∧ first? edge.key edges = some edge := by
  induction edges generalizing seen with
  | nil => simp [dedupFrom, first?]
  | cons head rest ih =>
      by_cases hk : head.key = edge.key
      · -- The rest holds no first edge of this key, whether or not the head is kept.
        rw [first?_cons, if_pos hk, dedupFrom, Option.some.injEq, isLoop_congr hk, hk]
        split
        · next hskip =>
            have hno : ¬(edge.isLoop = false ∧ edge.key ∉ seen) := by
              intro h
              simp [h.1, h.2] at hskip
            rw [ih]
            exact ⟨fun h => absurd ⟨h.1, h.2.1⟩ hno, fun h => absurd ⟨h.1, h.2.1⟩ hno⟩
        · next hkeep =>
            have hnew : edge.isLoop = false ∧ edge.key ∉ seen := by simpa using hkeep
            rw [List.mem_cons, ih]
            constructor
            · intro h
              rcases h with rfl | ⟨-, hs, -⟩
              · exact ⟨hnew.1, hnew.2, rfl⟩
              · exact absurd List.mem_cons_self hs
            · intro h
              exact .inl h.2.2.symm
      · have hne : edge ≠ head := fun he => hk (he ▸ rfl)
        rw [first?_cons, if_neg hk, dedupFrom]
        split
        · exact ih
        · rw [List.mem_cons, ih, List.mem_cons, not_or]
          simp [hne, Ne.symm hk]

theorem mem_dedup {edges : List Edge} {edge : Edge} :
    edge ∈ dedup edges ↔ edge.isLoop = false ∧ first? edge.key edges = some edge := by
  simp [dedup, mem_dedupFrom]

theorem dedupFrom_sublist (seen : List Key) (edges : List Edge) :
    (dedupFrom seen edges).Sublist edges := by
  induction edges generalizing seen with
  | nil => exact List.Sublist.refl _
  | cons head rest ih =>
      rw [dedupFrom]
      split
      · exact (ih seen).cons head
      · exact (ih _).cons_cons head

theorem dedup_sublist (edges : List Edge) : (dedup edges).Sublist edges :=
  dedupFrom_sublist [] edges

theorem nodup_keys_dedupFrom (seen : List Key) (edges : List Edge) :
    ((dedupFrom seen edges).map key).Nodup := by
  induction edges generalizing seen with
  | nil => exact List.nodup_nil
  | cons head rest ih =>
      rw [dedupFrom]
      split
      · exact ih seen
      · rw [List.map_cons, List.nodup_cons]
        refine ⟨fun hm => ?_, ih _⟩
        obtain ⟨edge, he, hk⟩ := List.mem_map.1 hm
        exact (mem_dedupFrom.1 he).2.1 (by simp [hk])

theorem nodup_keys_dedup (edges : List Edge) : ((dedup edges).map key).Nodup :=
  nodup_keys_dedupFrom [] edges

theorem mem_keys_dedup {edges : List Edge} {k : Key} :
    k ∈ (dedup edges).map key ↔ ∃ edge ∈ edges, edge.isLoop = false ∧ edge.key = k := by
  simp only [List.mem_map, mem_dedup]
  constructor
  · intro h
    obtain ⟨edge, ⟨hl, hf⟩, hk⟩ := h
    exact ⟨edge, mem_of_first? hf, hl, hk⟩
  · intro h
    obtain ⟨edge, hm, hl, rfl⟩ := h
    obtain ⟨found, hf⟩ := Option.isSome_iff_exists.1 (first?_isSome_iff.2 ⟨edge, hm, rfl⟩)
    have hk := key_of_first? hf
    exact ⟨found, ⟨by rw [isLoop_congr hk, hl], by rw [hk, hf]⟩, hk⟩

theorem dedupFrom_eq_self {seen : List Key} {edges : List Edge}
    (hl : ∀ edge ∈ edges, edge.isLoop = false) (hs : ∀ edge ∈ edges, edge.key ∉ seen)
    (hk : (edges.map key).Nodup) : dedupFrom seen edges = edges := by
  induction edges generalizing seen with
  | nil => rfl
  | cons head rest ih =>
      rw [List.map_cons, List.nodup_cons] at hk
      have hkeep : ¬(head.isLoop || seen.contains head.key) = true := by
        simpa using ⟨hl head List.mem_cons_self, hs head List.mem_cons_self⟩
      have hrest : ∀ edge ∈ rest, edge.isLoop = false :=
        fun edge hm => hl edge (List.mem_cons_of_mem head hm)
      rw [dedupFrom, if_neg hkeep, ih hrest ?_ hk.2]
      intro edge hm
      rw [List.mem_cons, not_or]
      refine ⟨fun he => hk.1 ?_, hs edge (List.mem_cons_of_mem head hm)⟩
      exact List.mem_map.2 ⟨edge, hm, he⟩

theorem dedup_eq_self {edges : List Edge} (hl : ∀ edge ∈ edges, edge.isLoop = false)
    (hk : (edges.map key).Nodup) : dedup edges = edges :=
  dedupFrom_eq_self hl (fun _ _ => List.not_mem_nil) hk

/-! ## Fewer keys -/

theorem dedupFrom_filter (counts : Key → Bool) {seen other : List Key} {edges : List Edge}
    (h : ∀ k, counts k = true → (k ∈ seen ↔ k ∈ other)) :
    (dedupFrom seen edges).filter (fun edge => counts edge.key) =
      dedupFrom other (edges.filter fun edge => counts edge.key) := by
  induction edges generalizing seen other with
  | nil => rfl
  | cons head rest ih =>
      by_cases hc : counts head.key = true
      · have hsame : seen.contains head.key = other.contains head.key := by
          rw [Bool.eq_iff_iff, List.contains_iff_mem, List.contains_iff_mem]
          exact h head.key hc
        have hnext : ∀ k, counts k = true → (k ∈ head.key :: seen ↔ k ∈ head.key :: other) :=
          fun k hk => by rw [List.mem_cons, List.mem_cons, h k hk]
        simp only [List.filter_cons, hc, if_true, dedupFrom, hsame]
        split
        · exact ih h
        · simp only [List.filter_cons, hc, if_true, ih hnext]
      · -- The head is dropped in the end, so it may have been seen on one side only.
        have hnext : ∀ k, counts k = true → (k ∈ head.key :: seen ↔ k ∈ other) := by
          intro k hk
          have hne : k ≠ head.key := fun he => hc (he ▸ hk)
          rw [List.mem_cons, or_iff_right hne, h k hk]
        simp only [List.filter_cons, if_neg hc, dedupFrom]
        split
        · exact ih h
        · simp only [List.filter_cons, if_neg hc, ih hnext]

theorem dedup_filter (counts : Key → Bool) (edges : List Edge) :
    (dedup edges).filter (fun edge => counts edge.key) =
      dedup (edges.filter fun edge => counts edge.key) :=
  dedupFrom_filter counts fun _ _ => Iff.rfl

/-! ## Longer lists -/

theorem mem_dedup_append {xs ys : List Edge} {edge : Edge} :
    edge ∈ dedup (xs ++ ys) ↔
      edge ∈ dedup xs ∨ edge ∈ dedup ys ∧ edge.key ∉ (dedup xs).map key := by
  rw [mem_dedup, mem_dedup, mem_dedup, mem_keys_dedup, first?_append]
  cases hx : first? edge.key xs with
  | none =>
      have hn : ¬ ∃ other ∈ xs, other.isLoop = false ∧ other.key = edge.key := by
        intro h
        obtain ⟨other, hm, -, hk⟩ := h
        have := first?_isSome_iff.2 ⟨other, hm, hk⟩
        simp [hx] at this
      simp [hn]
  | some found =>
      have hk := key_of_first? hx
      have hkept : edge.isLoop = false → ∃ other ∈ xs, other.isLoop = false ∧ other.key = edge.key :=
        fun hl => ⟨found, mem_of_first? hx, by rw [isLoop_congr hk, hl], hk⟩
      rw [Option.some_or]
      constructor
      · exact .inl
      · intro h
        rcases h with h | ⟨⟨hl, -⟩, hn⟩
        · exact h
        · exact absurd (hkept hl) hn

end CodeAtlas.Graph.Edge
