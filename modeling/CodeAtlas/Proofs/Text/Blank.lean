import CodeAtlas.Proofs.Text.Classes
import CodeAtlas.Text.Blank
import Mathlib.Data.List.DropRight
import Mathlib.Data.List.TakeWhile

/-!
# Trimming

What is left of characters that are trimmed stands between blanks and has no blank at either end,
and nothing else does.
-/

namespace CodeAtlas.Text

variable {chars front middle back : List Char}

theorem isBlank_eq_false_of_isDigit {char : Char} (h : char.isDigit = true) :
    isBlank char = false := by
  rw [isDigit_iff] at h
  simp only [isBlank, Bool.or_eq_false_iff, Bool.and_eq_false_iff, decide_eq_false_iff_not,
    beq_eq_false_iff_ne]
  omega

def AreBlank (chars : List Char) : Prop := ∀ char ∈ chars, isBlank char = true

/-- No blank stands at either end. -/
structure IsTrimmed (chars : List Char) : Prop where
  head : ∀ char ∈ chars.head?, isBlank char = false
  last : ∀ char ∈ chars.getLast?, isBlank char = false

theorem dropWhile_isBlank_append (hf : AreBlank front)
    (hm : ∀ char ∈ middle.head?, isBlank char = false) :
    (front ++ middle).dropWhile isBlank = middle := by
  rw [List.dropWhile_append_of_pos hf]
  cases middle with
  | nil => rfl
  | cons char rest => exact List.dropWhile_cons_of_neg (by simp [hm char rfl])

theorem trimChars_eq_of_append (hf : AreBlank front) (hm : IsTrimmed middle)
    (hb : AreBlank back) : trimChars (front ++ middle ++ back) = middle := by
  cases middle with
  | nil =>
      have hall : AreBlank (front ++ [] ++ back) := by
        rw [List.append_nil]
        exact fun char hc => (List.mem_append.1 hc).elim (hf char) (hb char)
      rw [trimChars, List.dropWhile_eq_nil_iff.2 hall]
      rfl
  | cons char rest =>
      have hback : AreBlank back.reverse := fun char hc => hb char (List.mem_reverse.1 hc)
      rw [trimChars, List.append_assoc, dropWhile_isBlank_append hf, List.reverse_append,
        dropWhile_isBlank_append hback, List.reverse_reverse]
      · rw [List.head?_reverse]
        exact hm.last
      · exact hm.head

theorem exists_append_trimChars (chars : List Char) : ∃ front back,
    chars = front ++ trimChars chars ++ back ∧ AreBlank front ∧ AreBlank back := by
  refine ⟨chars.takeWhile isBlank, (chars.dropWhile isBlank).rtakeWhile isBlank, ?_,
    fun _ => List.mem_takeWhile_imp, fun _ => List.mem_rtakeWhile_imp⟩
  change chars = _ ++ (chars.dropWhile isBlank).rdropWhile isBlank ++ _
  rw [List.append_assoc, List.rdropWhile_append_rtakeWhile, List.takeWhile_append_dropWhile]

theorem isBlank_head?_dropWhile (chars : List Char) :
    ∀ char ∈ (chars.dropWhile isBlank).head?, isBlank char = false := by
  intro char hm
  have hnot := List.head?_dropWhile_not isBlank chars
  rwa [Option.mem_def.1 hm] at hnot

theorem exists_append_areBlank (chars : List Char) : ∃ kept back, chars = kept ++ back ∧
    AreBlank back ∧ ∀ char ∈ kept.getLast?, isBlank char = false := by
  refine ⟨chars.rdropWhile isBlank, chars.rtakeWhile isBlank,
    (List.rdropWhile_append_rtakeWhile ..).symm, fun _ => List.mem_rtakeWhile_imp, ?_⟩
  intro char hm
  rw [List.rdropWhile, List.getLast?_reverse] at hm
  exact isBlank_head?_dropWhile _ char hm

theorem isTrimmed_trimChars (chars : List Char) : IsTrimmed (trimChars chars) where
  head := by
    intro char hm
    obtain ⟨rest, hrest⟩ : trimChars chars <+: chars.dropWhile isBlank :=
      List.rdropWhile_prefix isBlank _
    refine isBlank_head?_dropWhile chars char ?_
    rw [← hrest, List.head?_append, Option.mem_def.1 hm]
    rfl
  last := by
    intro char hm
    rw [trimChars, List.getLast?_reverse] at hm
    exact isBlank_head?_dropWhile _ char hm

theorem trimChars_eq_iff : trimChars chars = middle ↔ IsTrimmed middle ∧
    ∃ front back, chars = front ++ middle ++ back ∧ AreBlank front ∧ AreBlank back := by
  constructor
  · rintro rfl
    exact ⟨isTrimmed_trimChars chars, exists_append_trimChars chars⟩
  · rintro ⟨hm, front, back, rfl, hf, hb⟩
    exact trimChars_eq_of_append hf hm hb

theorem trimChars_eq_nil_iff : trimChars chars = [] ↔ AreBlank chars := by
  rw [trimChars_eq_iff]
  constructor
  · rintro ⟨-, front, back, rfl, hf, hb⟩ char hm
    rw [List.append_nil, List.mem_append] at hm
    exact hm.elim (hf char) (hb char)
  · intro h
    exact ⟨⟨by simp, by simp⟩, chars, [], by simp, h, by simp [AreBlank]⟩

end CodeAtlas.Text
