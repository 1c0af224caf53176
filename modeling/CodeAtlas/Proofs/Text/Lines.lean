import CodeAtlas.Text.Lines

/-!
# Rows and lines

A character of a text stands on one of its lines, namely on the one with as many lines in front as
there are line ends in front of the character.
-/

namespace CodeAtlas.Text

theorem linesFrom_ne_nil {line : List Char} (h : line ≠ []) (chars : List Char) :
    linesFrom line chars ≠ [] := by
  fun_induction linesFrom line chars with
  | case1 line hempty => simp [h] at hempty
  | case2 line hempty => simp
  | case3 line rest ih => simp
  | case4 line char rest hchar ih => exact ih (by simp)

theorem count_lt_length_linesFrom (line : List Char) {chars : List Char} {offset : Nat}
    (h : offset < chars.length) :
    (chars.take offset).count '\n' < (linesFrom line chars).length := by
  induction chars generalizing line offset with
  | nil => simp at h
  | cons char rest ih =>
      by_cases hchar : char = '\n'
      · rw [hchar, linesFrom]
        cases offset with
        | zero => simp
        | succ offset =>
            have hrest : (rest.take offset).count '\n' < (linesFrom [] rest).length :=
              ih [] (by simpa using h)
            simp
            omega
      · rw [linesFrom.eq_3 _ _ _ (by simpa using hchar)]
        cases offset with
        | zero => exact List.length_pos_iff.2 (linesFrom_ne_nil (by simp) rest)
        | succ offset =>
            have hrest : (rest.take offset).count '\n' < (linesFrom (char :: line) rest).length :=
              ih (char :: line) (by simpa using h)
            simpa [hchar] using hrest

theorem count_lt_length_lines {text : String} {offset : Nat} (h : offset < text.toList.length) :
    (text.toList.take offset).count '\n' < (lines text).length := by
  rw [lines, List.length_map]
  exact count_lt_length_linesFrom [] h

end CodeAtlas.Text
