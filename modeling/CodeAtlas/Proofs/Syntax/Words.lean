import CodeAtlas.Proofs.Syntax.Places
import CodeAtlas.Proofs.Text.Classes
import CodeAtlas.Syntax.Parser

/-!
# Words ahead

A word is read to the first character that does not continue it. Blanks in front of it are passed
over, and a point in front of it is a symbol of its own.
-/

namespace CodeAtlas.Syntax

open Text.Identifier (isStart isContinue)

/-! ## Words and points -/

/-- An identifier that is no reserved word. -/
structure IsIdentifier (text : String) : Prop where
  start : text.toList.head?.any isStart = true
  continues : text.toList.tail.all isContinue = true
  isName : Parser.isName text = true

def firstWord? (text : String) : Option String :=
  match Lexeme.textAt text.toList with
  | (.word word, _) => some word
  | _ => none

namespace Lexeme

theorem textAt_of_isStart {char : Char} (h : isStart char = true) (rest : List Char) :
    textAt (char :: rest) =
      (.word (String.ofList (char :: rest.takeWhile isContinue)),
        (rest.takeWhile isContinue).length + 1) := by
  rw [textAt, if_pos h]
  rfl

theorem isStart_of_textAt_eq_word {chars : List Char} {text : String} {length : Nat}
    (h : textAt chars = (.word text, length)) :
    ∃ char rest, chars = char :: rest ∧ isStart char = true := by
  unfold textAt at h
  split at h
  · cases h
  · rename_i char rest
    split at h
    · rename_i hstart
      exact ⟨char, rest, rfl, hstart⟩
    · dsimp only at h
      split at h
      · cases h
      · split at h <;> cases h

theorem textAt_take {chars : List Char} {text : String} {length count : Nat}
    (h : textAt chars = (.word text, length)) (hcount : length ≤ count) :
    textAt (chars.take count) = (.word text, length) := by
  obtain ⟨char, rest, rfl, hstart⟩ := isStart_of_textAt_eq_word h
  rw [textAt_of_isStart hstart] at h
  cases h
  obtain ⟨count, rfl⟩ := Nat.exists_eq_add_of_le' (Nat.le_trans (Nat.le_add_left 1 _) hcount)
  have htake : (rest.take count).takeWhile isContinue = rest.takeWhile isContinue := by
    rw [← List.take_takeWhile]
    exact List.take_of_length_le (Nat.le_of_succ_le_succ hcount)
  rw [List.take_succ_cons, textAt_of_isStart hstart, htake]

theorem isSpace_eq_false_of_isStart {char : Char} (h : isStart char = true) :
    isSpace char = false := by
  rw [Bool.eq_false_iff]
  intro hspace
  have hcode : char.toNat = 9 ∨ char.toNat = 10 ∨ char.toNat = 11 ∨ char.toNat = 12 ∨
      char.toNat = 13 ∨ char.toNat = 32 ∨ char.toNat = 0xFEFF ∨ char.toNat = 0x2060 ∨
      char.toNat = 0x200B := by
    simp [isSpace] at hspace
    omega
  rw [← Char.ofNat_toNat char] at h
  rcases hcode with hcode | hcode | hcode | hcode | hcode | hcode | hcode | hcode | hcode
  all_goals
    rw [hcode] at h
    revert h
    decide +kernel

theorem isDigit_eq_false_of_isStart {char : Char} (h : isStart char = true) :
    char.isDigit = false := by
  rw [Bool.eq_false_iff]
  intro hdigit
  have hcode := Text.isDigit_iff.1 hdigit
  rw [isStart, if_pos (by omega), Bool.or_eq_true, Text.isAlpha_iff, Text.isUpper_iff,
    Text.isLower_iff, beq_iff_eq] at h
  rcases h with (h | h) | rfl
  · omega
  · omega
  · revert hdigit
    decide

theorem ne_of_isStart {char other : Char} (h : isStart char = true)
    (hother : isStart other = false) : char ≠ other := by
  rintro rfl
  rw [h] at hother
  cases hother

theorem textAt_point {char : Char} (h : isStart char = true) (rest : List Char) :
    textAt ('.' :: char :: rest) = (.symbol ".", 1) := by
  have hpoint : '.' ≠ char := (ne_of_isStart h (by decide)).symm
  have hdigit := isDigit_eq_false_of_isStart h
  have hnumber : numberLength ('.' :: char :: rest) = 0 := by
    simp [numberLength, fractionLength, wholeLength, digitRun, hdigit]
  have hsymbol : symbolAt ('.' :: char :: rest) = some (['.'], ".") := by
    simp [symbolAt, symbolTable, symbols, hpoint]
  rw [textAt, if_neg (by decide)]
  dsimp only
  rw [hnumber, hsymbol]
  rfl

theorem gapLength_cons {char : Char} (hcomment : char ≠ '#') (hjoin : char ≠ '\\')
    (rest : List Char) : gapLength (char :: rest) = 0 := by
  unfold gapLength
  split <;> simp_all

end Lexeme

theorem IsIdentifier.textAt_append {text : String} (h : IsIdentifier text) (rest : List Char) :
    Lexeme.textAt (text.toList ++ '.' :: rest) = (.word text, text.length) := by
  have hstart := h.start
  have hcontinues := h.continues
  cases hchars : text.toList with
  | nil => simp [hchars] at hstart
  | cons char others =>
      rw [hchars] at hstart hcontinues
      have htake : (others ++ '.' :: rest).takeWhile isContinue = others := by
        rw [List.takeWhile_append_of_pos (by simpa using hcontinues)]
        simp [isContinue]
      rw [List.cons_append, Lexeme.textAt_of_isStart (by simpa using hstart), htake, ← hchars,
        String.ofList_toList, ← String.length_toList, hchars]
      rfl

/-! ## Blanks -/

theorem Layout.surveyFrom_blanks {char : Char} {rest : List Char}
    (hspace : Lexeme.isSpace char = false) (hjoin : char ≠ '\\') (gap passed width : Nat) :
    surveyFrom false passed false false width none (List.replicate gap ' ' ++ char :: rest) =
      some ⟨char :: rest, passed + gap, false, width + gap, none⟩ := by
  induction gap generalizing passed width with
  | zero =>
      have hne (blank : Char) (h : Lexeme.isSpace blank = true) : char ≠ blank := by
        rintro rfl
        rw [h] at hspace
        cases hspace
      rw [List.replicate_zero, List.nil_append]
      unfold surveyFrom
      simp [hne '\n' (by decide), hne ' ' (by decide), hne '\t' (by decide),
        hne '\r' (by decide), hne '\x0c' (by decide), hjoin]
  | succ gap ih =>
      rw [List.replicate_succ, List.cons_append]
      unfold surveyFrom
      simp only [Bool.false_eq_true, Char.reduceEq, if_false, if_true, ih]
      rw [Nat.add_right_comm, Nat.add_right_comm width]
      rfl

theorem Cursor.ahead_of_blanks {cursor : Cursor} {gap : Nat} {char : Char} {rest : List Char}
    (hrest : cursor.rest = List.replicate gap ' ' ++ char :: rest)
    (hspace : Lexeme.isSpace char = false) (hcomment : char ≠ '#') (hjoin : char ≠ '\\') :
    cursor.ahead {} =
      ⟨(Lexeme.textAt (char :: rest)).1, cursor.skip gap,
        (cursor.skip gap).skip (Lexeme.textAt (char :: rest)).2⟩ := by
  have hsurvey : Layout.survey {} cursor = some ⟨char :: rest, 0 + gap, false, 0 + gap, none⟩ := by
    rw [Layout.survey, hrest]
    exact Layout.surveyFrom_blanks hspace hjoin gap 0 0
  have hblanks : (cursor.rest.takeWhile Lexeme.isSpace).length = gap := by
    rw [hrest, List.takeWhile_append_of_pos (by simp [Lexeme.isSpace]),
      List.takeWhile_cons_of_neg (by simp [hspace])]
    simp
  have hstart : (cursor.skip gap).rest = char :: rest := by
    rw [rest_skip, hrest, List.drop_left' (List.length_replicate ..)]
  show aheadFuel {} (cursor.extent - cursor.offset + 1 + 1) cursor = _
  unfold aheadFuel
  dsimp only
  rw [hsurvey, hblanks, hstart, Lexeme.gapLength_cons hcomment hjoin]
  rfl

theorem Cursor.ahead_of_isStart {cursor : Cursor} {gap : Nat} {char : Char} {rest : List Char}
    (hrest : cursor.rest = List.replicate gap ' ' ++ char :: rest) (h : isStart char = true) :
    cursor.ahead {} =
      ⟨(Lexeme.textAt (char :: rest)).1, cursor.skip gap,
        (cursor.skip gap).skip (Lexeme.textAt (char :: rest)).2⟩ :=
  ahead_of_blanks hrest (Lexeme.isSpace_eq_false_of_isStart h)
    (Lexeme.ne_of_isStart h (by decide)) (Lexeme.ne_of_isStart h (by decide))

end CodeAtlas.Syntax
