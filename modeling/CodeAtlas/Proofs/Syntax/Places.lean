import CodeAtlas.Syntax.Lexeme

/-!
# Places in a text

A place that is reached in a text is known by its offset: what lies ahead of it is the text without
that many characters, and its row counts the line ends among them. What stands further on has the
greater offset and no lesser row. A word takes up room.
-/

namespace CodeAtlas.Syntax

namespace Position

/-- A point of a text: its offset is the number of characters behind it, and its row that of the
line ends among them. -/
structure IsIn (position : Position) (chars : List Char) : Prop where
  offset_le : position.offset ≤ chars.length
  row_eq : position.row = (chars.take position.offset).count '\n'

theorem IsIn.row_le {first second : Position} {chars : List Char} (hfirst : first.IsIn chars)
    (hsecond : second.IsIn chars) (h : first.offset ≤ second.offset) : first.row ≤ second.row := by
  rw [hfirst.row_eq, hsecond.row_eq]
  exact (List.take_sublist_take_left h).count_le '\n'

end Position

namespace Place

theorem rest_skip (count : Nat) (place : Place) :
    (place.skip count).rest = place.rest.drop count := by
  induction count generalizing place with
  | zero => simp [skip]
  | succ count ih =>
      cases h : place.rest with
      | nil => simp [skip_nil _ h, h]
      | cons char rest => simp [skip, h, ih]

theorem offset_skip (count : Nat) (place : Place) :
    (place.skip count).offset = place.offset + min count place.rest.length := by
  induction count generalizing place with
  | zero => simp [skip]
  | succ count ih =>
      cases h : place.rest with
      | nil => simp [skip_nil _ h]
      | cons char rest =>
          simp only [skip, h, ih, List.length_cons]
          omega

theorem row_skip (count : Nat) (place : Place) :
    (place.skip count).row = place.row + (place.rest.take count).count '\n' := by
  induction count generalizing place with
  | zero => simp [skip]
  | succ count ih =>
      cases h : place.rest with
      | nil => simp [skip_nil _ h]
      | cons char rest =>
          by_cases hc : char = '\n'
          · simp [skip, h, ih, hc]
            omega
          · simp [skip, h, ih, hc]

end Place

namespace Lexeme

theorem textAt_eq_word {chars : List Char} {text : String} {length : Nat}
    (h : textAt chars = (.word text, length)) :
    chars ≠ [] ∧ text.toList <+: chars ∧ length = text.length ∧ 0 < length := by
  unfold textAt at h
  split at h
  · simp at h
  · split at h
    · rename_i char rest hstart
      dsimp only at h
      simp only [Prod.mk.injEq, word.injEq] at h
      obtain ⟨rfl, rfl⟩ := h
      have hhead : rest.takeWhile Text.Identifier.isContinue <+: rest :=
        List.takeWhile_prefix _
      simp [hhead, Nat.add_comm]
    · dsimp only at h
      split at h
      · simp at h
      · split at h <;> simp at h

def blanks (chars : List Char) : Nat := (chars.takeWhile isSpace).length

/-- Where layout does not matter, so many characters are passed over in front of a lexeme: blanks,
comments and joined lines. -/
inductive Skips : List Char → Nat → Prop
  | last {chars : List Char} (h : gapLength (chars.drop (blanks chars)) = 0) :
      Skips chars (blanks chars)
  | next {chars : List Char} {more : Nat} (h : gapLength (chars.drop (blanks chars)) ≠ 0)
      (hmore : Skips (chars.drop (blanks chars + gapLength (chars.drop (blanks chars)))) more) :
      Skips chars (blanks chars + gapLength (chars.drop (blanks chars)) + more)

end Lexeme

namespace Cursor

variable {first second : Cursor}

theorem Reaches.offset_le (h : first.Reaches second) : first.offset ≤ second.offset := by
  obtain ⟨count, h⟩ := h
  rw [h, Place.offset_skip]
  omega

theorem skip_skip (first second : Nat) (cursor : Cursor) :
    (cursor.skip first).skip second = cursor.skip (first + second) := by
  simp [skip, Place.skip_skip]

theorem rest_skip (count : Nat) (cursor : Cursor) :
    (cursor.skip count).rest = cursor.rest.drop count :=
  Place.rest_skip count cursor.toPlace

theorem offset_skip (count : Nat) (cursor : Cursor) :
    (cursor.skip count).offset = cursor.offset + min count cursor.rest.length :=
  Place.offset_skip count cursor.toPlace

/-- The extent is that of the text a cursor stands in. -/
def IsSound (cursor : Cursor) : Prop := cursor.extent = cursor.offset + cursor.rest.length

theorem isSound_ofText (text : String) : (ofText text).IsSound := by
  simp [IsSound, ofText, ofChars, Place.ofChars]

theorem indents_ofText (text : String) : (ofText text).indents = [0] := rfl

theorem inFormat_ofText (text : String) : (ofText text).inFormat = false := rfl

theorem IsSound.skip {cursor : Cursor} (h : cursor.IsSound) (count : Nat) :
    (cursor.skip count).IsSound := by
  have hextent : (cursor.skip count).extent = cursor.extent := rfl
  unfold IsSound at h ⊢
  rw [hextent, offset_skip, rest_skip, List.length_drop]
  omega

theorem IsSound.fuel_eq {cursor : Cursor} (h : cursor.IsSound) :
    cursor.fuel = cursor.rest.length + 2 := by
  unfold IsSound at h
  unfold fuel
  omega

/-- What is neither layout nor a quote is read where it starts, behind what was passed over. -/
theorem aheadFuel_text {expected : Expectation} (rounds : Nat) (cursor : Cursor) {lexeme : Lexeme}
    (h : (aheadFuel expected rounds cursor).lexeme = lexeme) (hunknown : lexeme ≠ .unknown)
    (hlayout : ∀ token, lexeme ≠ .layout token) (hquote : ∀ delimiter, lexeme ≠ .quote delimiter) :
    ∃ passed length, Lexeme.Skips cursor.rest passed ∧
      (aheadFuel expected rounds cursor).start = cursor.skip passed ∧
      Lexeme.textAt (cursor.skip passed).rest = (lexeme, length) ∧
      (aheadFuel expected rounds cursor).stop = (cursor.skip passed).skip length := by
  induction rounds generalizing cursor with
  | zero => exact absurd h.symm hunknown
  | succ rounds ih =>
      unfold aheadFuel at h ⊢
      dsimp only at h ⊢
      split at h
      · exact absurd h.symm (hlayout _)
      · split at h
        · exact absurd h.symm (hquote _)
        · have hblanks : (cursor.skip (cursor.rest.takeWhile Lexeme.isSpace).length).rest =
              cursor.rest.drop (Lexeme.blanks cursor.rest) := rest_skip _ cursor
          split at h
          · rename_i hgap
            rw [if_pos hgap, ← h]
            exact ⟨_, _, .last (hblanks ▸ hgap), rfl, rfl, rfl⟩
          · rename_i hgap
            rw [if_neg hgap]
            obtain ⟨passed, length, hskips, hstart, htext, hstop⟩ := ih _ h
            have hjoin (blanks gap : Nat) : ((cursor.skip blanks).skip gap).skip passed =
                cursor.skip (blanks + gap + passed) := by
              rw [skip_skip, skip_skip, Nat.add_assoc]
            rw [hjoin] at hstart htext hstop
            refine ⟨_, length, ?_, hstart, htext, hstop⟩
            rw [hblanks] at hgap hskips ⊢
            rw [skip_skip, rest_skip] at hskips
            exact .next hgap hskips

theorem ahead_text {expected : Expectation} {cursor : Cursor} {lexeme : Lexeme}
    (h : (cursor.ahead expected).lexeme = lexeme) (hunknown : lexeme ≠ .unknown)
    (hlayout : ∀ token, lexeme ≠ .layout token) (hquote : ∀ delimiter, lexeme ≠ .quote delimiter) :
    ∃ passed length, Lexeme.Skips cursor.rest passed ∧
      (cursor.ahead expected).start = cursor.skip passed ∧
      Lexeme.textAt (cursor.skip passed).rest = (lexeme, length) ∧
      (cursor.ahead expected).stop = (cursor.skip passed).skip length :=
  aheadFuel_text cursor.fuel cursor h hunknown hlayout hquote

theorem ahead_word {expected : Expectation} {cursor : Cursor} {text : String}
    (h : (cursor.ahead expected).lexeme = .word text) :
    text.toList <+: (cursor.ahead expected).start.rest ∧
      (cursor.ahead expected).start.offset < (cursor.ahead expected).stop.offset := by
  obtain ⟨passed, length, -, hstart, htext, hstop⟩ := ahead_text h (by simp) (by simp) (by simp)
  obtain ⟨hne, hhead, -, hlength⟩ := Lexeme.textAt_eq_word htext
  rw [hstart, hstop]
  refine ⟨hhead, ?_⟩
  have hrest : 0 < (cursor.skip passed).rest.length := List.length_pos_iff.2 hne
  rw [offset_skip length]
  omega

theorem Reaches.isIn {chars : List Char} (h : (ofChars chars).Reaches second) :
    second.toPosition.IsIn chars ∧ second.rest = chars.drop second.offset := by
  obtain ⟨count, h⟩ := h
  have hoffset := Place.offset_skip count (ofChars chars).toPlace
  have hrow := Place.row_skip count (ofChars chars).toPlace
  have hrest := Place.rest_skip count (ofChars chars).toPlace
  rw [← h] at hoffset hrow hrest
  simp only [ofChars, Place.ofChars, Nat.zero_add] at hoffset hrow hrest
  have htake : chars.take second.offset = chars.take count := by
    rw [List.take_eq_take_iff, hoffset]
    omega
  have hdrop : chars.drop second.offset = chars.drop count := by
    rw [List.drop_eq_drop_iff, hoffset]
    omega
  refine ⟨⟨?_, ?_⟩, ?_⟩
  · rw [hoffset]
    omega
  · rw [htake, hrow]
  · rw [hdrop, hrest]

end Cursor

end CodeAtlas.Syntax
