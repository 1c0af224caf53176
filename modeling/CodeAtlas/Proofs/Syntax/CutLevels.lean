import CodeAtlas.Proofs.Syntax.Mirrors
import CodeAtlas.Syntax.Source

/-!
# Levels in cut texts

A level is mirrored by another one if each of its parsers is. An expression asks for its first
lexeme, and for the one behind it, which ends it. Strings, replacements and parameters are mirrored
where the level below them is.
-/

namespace CodeAtlas.Syntax

open Cursor (Precedes Sees)
open Syntax.Parser (Mirrors MirrorsAmid MirrorsTo)

/-- The parsers of one level are mirrored by those of another. -/
structure Level.IsMirrored (tail : List Char) (level mirror : Level) : Prop where
  expression : ∀ {strength : Strength} {inHead : Bool} {setting : Setting}, setting.IsPlain →
    MirrorsAmid tail setting.opening setting.behind (level.expression strength inHead setting)
      (mirror.expression strength inHead setting)
  target : ∀ {setting : Setting}, setting.IsPlain →
    MirrorsAmid tail setting.opening setting.behind (level.target setting) (mirror.target setting)
  replacement : MirrorsTo tail { quote := true } level.replacement mirror.replacement
  annotation : ∀ {constrained : Bool} {setting : Setting}, setting.IsPlain →
    MirrorsAmid tail setting.opening setting.behind (level.annotation constrained setting)
      (mirror.annotation constrained setting)

namespace Level

open Syntax.Parser

variable {tail : List Char} {lower mirror : Thunk Level} {setting flat : Setting}

/-! ## Expressions of the level below -/

namespace IsMirrored

variable {level other : Level} (h : level.IsMirrored tail other)

include h

theorem whole (hplain : setting.IsPlain) :
    MirrorsAmid tail setting.opening setting.behind (level.whole setting) (other.whole setting) :=
  h.expression hplain

theorem callsIn (hplain : setting.IsPlain) :
    MirrorsAmid tail setting.opening setting.behind (level.callsIn setting)
      (other.callsIn setting) :=
  (h.whole hplain).bind fun _ => mirrors_pure id

theorem expressions (hplain : setting.IsPlain) :
    MirrorsAmid tail setting.opening setting.behind (level.expressions setting)
      (other.expressions setting) :=
  mirrors_list hplain (fun hopening => h.whole (hplain.openedBy hopening)) fun _ => rfl

/-- Where an expression can be left out, what comes next is no quote then. -/
theorem expression? (hplain : setting.IsPlain) (hopening : setting.opening = setting.orEnd) :
    MirrorsAmid tail setting.opening setting.behind (level.expression? setting)
      (other.expression? setting) := by
  apply mirrors_onNext hplain.opening.flattens
  intro lexeme
  split
  · exact .stay (h.callsIn hplain)
  · rename_i hstarts
    refine .leave (mirrors_pure id) fun he hsees => ?_
    rw [hopening] at he ⊢
    refine hsees.orEnd he ?_
    rintro delimiter rfl
    exact hstarts rfl

theorem yielded (hplain : setting.IsPlain) :
    MirrorsAmid tail setting.orEnd setting.behind (level.yielded setting)
      (other.yielded setting) := by
  apply mirrors_onNext hplain.orEnd.flattens
  intro lexeme
  split
  · rename_i hfrom
    exact .take (hfrom ▸ trivial) (h.callsIn hplain.later) Sees.precedes
  · split
    · exact .stay ((h.expressions (hplain.openedBy hplain.orEnd)).bind fun _ => mirrors_pure id)
    · rename_i hstarts
      refine .leave (mirrors_pure id) fun he hsees => hsees.orEnd he ?_
      rintro delimiter rfl
      exact hstarts rfl

end IsMirrored

/-! ## Strings -/

/-- A piece of a string is in sight, and there is more behind one that does not close it. -/
def HasPiece (tail : List Char) (delimiter : Delimiter) (cursor : Cursor) : Prop :=
  ∃ piece length, Literal.pieceAt delimiter cursor.rest = some (piece, length) ∧
    (cursor.skip length).Precedes tail ∧
    (piece ≠ .close → tail.length < (cursor.skip length).rest.length)

/-- What has to be in sight behind a piece: the next one behind a text, and something at all behind
the brace of a replacement. -/
def BehindPiece (tail : List Char) (delimiter : Delimiter) (cursor : Cursor) :
    Literal.Piece → Prop
  | .text => HasPiece tail delimiter cursor
  | .close => cursor.Precedes tail
  | .replacement => cursor.Precedes tail ∧ tail.length < cursor.rest.length

theorem HasPiece.precedes {delimiter : Delimiter} {cursor : Cursor}
    (h : HasPiece tail delimiter cursor) :
    cursor.Precedes tail ∧ tail.length < cursor.rest.length := by
  obtain ⟨piece, length, hread, hprecedes, -⟩ := h
  refine ⟨hprecedes.trans (Cursor.suffix_of_reaches (Cursor.reaches_skip length cursor)), ?_⟩
  have hpos := Literal.pieceAt_pos hread
  have hle := hprecedes.length_le
  have hne : cursor.rest ≠ [] := by
    intro hempty
    rw [hempty, Literal.pieceAt_nil] at hread
    cases hread
  have hrest := List.length_pos_iff.2 hne
  rw [Cursor.rest_skip, List.length_drop] at hle
  omega

theorem HasPiece.fits {delimiter : Delimiter} {cursor : Cursor}
    (h : HasPiece tail delimiter cursor) (htail : tail ≠ []) :
    Literal.Fits delimiter cursor.rest (cursor.rest.length - tail.length) := by
  obtain ⟨piece, length, hread, hprecedes, hmore⟩ := h
  have hpos := List.length_pos_iff.2 htail
  have hle := hprecedes.length_le
  rw [Cursor.rest_skip, List.length_drop] at hle hmore
  exact ⟨piece, length, hread, by omega, fun hne => by have := hmore hne; omega⟩

theorem mirrors_piece (delimiter : Delimiter) :
    Mirrors tail (HasPiece tail delimiter)
      (fun piece cursor => BehindPiece tail delimiter cursor piece)
      (raw (Literal.pieceAt delimiter)) (raw (Literal.pieceAt delimiter)) := by
  have hprecedes {cursor : Cursor} {piece : Literal.Piece}
      (h : BehindPiece tail delimiter cursor piece) : cursor.Precedes tail := by
    cases piece with
    | text => exact h.precedes.1
    | close => exact h
    | replacement => exact h.1
  apply mirrors_raw
  · intro cursor piece length hread hafter
    refine ⟨⟨piece, length, hread, hprecedes hafter, fun hne => ?_⟩, hprecedes hafter⟩
    cases piece with
    | text => exact hafter.precedes.2
    | close => exact absurd rfl hne
    | replacement => exact hafter.2
  · intro cursor piece length hread hafter front hrest
    by_cases htail : tail = []
    · rw [htail, List.append_nil] at hrest
      rwa [← hrest]
    · have hle := (hprecedes hafter).length_le
      have hpos := List.length_pos_iff.2 htail
      have hcount : cursor.rest.length - tail.length = front.length := by
        rw [hrest, List.length_append, Nat.add_sub_cancel]
      rw [Cursor.rest_skip, List.length_drop] at hle
      have hlimit : length ≤ front.length := by omega
      have htake := Literal.pieceAt_take hread hlimit fun htext => by
        subst htext
        have hfits := HasPiece.fits hafter htail
        rwa [Cursor.rest_skip, List.length_drop, Nat.sub_right_comm, hcount] at hfits
      rwa [hrest, List.take_left] at htake

section Literals

variable (h : lower.get.IsMirrored tail mirror.get)

include h

theorem mirrors_stringRest (delimiter : Delimiter) :
    Mirrors tail (HasPiece tail delimiter) (fun _ => Precedes tail) (stringRest lower delimiter)
      (stringRest mirror delimiter) := by
  refine mirrors_loop (fun _ => HasPiece tail delimiter) fun calls => ?_
  refine (mirrors_piece delimiter).bind fun piece => ?_
  cases piece with
  | text => exact mirrors_pure id
  | replacement =>
      refine (h.replacement.asking fun hsees => ⟨hsees.precedes, hsees.lt⟩).bind fun more => ?_
      exact mirrors_pure fun hpiece => hpiece.precedes.1
  | close => exact mirrors_leaveFormat.bind fun _ => mirrors_pure id

theorem mirrors_strings (delimiter : Delimiter) {expected plain : Expectation}
    (hflat : plain.Flattens expected) :
    Mirrors tail (Precedes tail) (fun _ => Sees tail expected) (strings lower delimiter expected)
      (strings mirror delimiter plain) := by
  refine ((mirrors_stringRest h delimiter).asking fun hpiece => hpiece.precedes.1).bind
    fun first => ?_
  refine (mirrors_loop (fun _ => Sees tail { expected with quote := true }) fun calls => ?_).asking
    Sees.precedes
  apply mirrors_onNext hflat.withQuote
  intro lexeme
  split
  · exact .take trivial ((mirrors_stringRest h _).bind fun _ => mirrors_pure Sees.precedes)
      fun hpiece => hpiece.precedes.1
  · rename_i hne
    exact .leave (mirrors_pure id) fun he hsees =>
      hsees.withQuote fun delimiter hquoted => hne delimiter (he ▸ hquoted)

/-! ## Replacements -/

/-- Something at all is in sight. -/
def HasMore (tail : List Char) (cursor : Cursor) : Prop :=
  cursor.Precedes tail ∧ tail.length < cursor.rest.length

omit h in
theorem isPlain_behindShown : behindShown.IsPlain := ⟨rfl, rfl, rfl⟩

theorem mirrors_format :
    Mirrors tail (HasMore tail) (fun _ => HasMore tail) (format lower) (format mirror) := by
  refine mirrors_loop (fun _ => HasMore tail) fun calls => ?_
  have hbrace : Mirrors tail (HasMore tail) (fun _ => HasMore tail) (raw Literal.braceAt)
      (raw Literal.braceAt) := by
    apply mirrors_raw
    · intro cursor value length hread hafter
      have hsuffix := Cursor.suffix_of_reaches (Cursor.reaches_skip length cursor)
      exact ⟨⟨hafter.1.trans hsuffix, Nat.lt_of_lt_of_le hafter.2 hsuffix.length_le⟩, hafter.1⟩
    · intro cursor value length hread hafter front hrest
      have hlt := hafter.2
      rw [Cursor.rest_skip, List.length_drop, hrest, List.length_append] at hlt
      rw [hrest] at hread
      exact Literal.braceAt_append hread (by omega)
  refine hbrace.bind fun isOpen => ?_
  cases isOpen with
  | true =>
      rw [if_pos rfl, if_pos rfl]
      exact (h.replacement.asking fun hsees => ⟨hsees.precedes, hsees.lt⟩).bind fun _ =>
        mirrors_pure And.left
  | false => exact mirrors_pure id

omit h in
theorem mirrors_conversion :
    Mirrors tail (Precedes tail) (fun _ => Precedes tail) conversion conversion := by
  apply mirrors_raw
  · intro cursor value length hread hafter
    exact ⟨hafter.trans (Cursor.suffix_of_reaches (Cursor.reaches_skip length cursor)), hafter⟩
  · intro cursor value length hread hafter front hrest
    rw [hrest] at hread
    by_cases htail : tail = []
    · rwa [htail, List.append_nil] at hread
    · have hpos := List.length_pos_iff.2 htail
      have hle := hafter.length_le
      rw [Cursor.rest_skip, List.length_drop, hrest, List.length_append] at hle
      exact Literal.conversionAt_append hread (by omega)

theorem mirrors_shown :
    MirrorsAmid tail { quote := true } behindShown (shown lower) (shown mirror) := by
  apply mirrors_onNext Setting.isPlain_bracketed.opening.flattens
  intro lexeme
  split
  · exact .take trivial (h.yielded Setting.isPlain_bracketed) Sees.precedes
  · exact .stay ((h.expressions Setting.isPlain_bracketed).bind fun _ => mirrors_pure id)

omit h in
theorem mirrors_conversion? : MirrorsAmid tail behindShown behindShown conversion? conversion? := by
  apply mirrors_onNext isPlain_behindShown.flattens
  intro lexeme
  split
  · exact .take trivial (mirrors_conversion.given Sees.precedes) id
  · exact .stay (mirrors_pure id)

theorem mirrors_format? :
    MirrorsAmid tail behindShown behindShown (format? lower) (format? mirror) := by
  have hformat : Mirrors tail (HasMore tail) (fun _ => Sees tail behindShown) (format lower)
      (format mirror) :=
    (mirrors_format h).given fun hsees => ⟨hsees.precedes, hsees.lt⟩
  apply mirrors_onNext isPlain_behindShown.flattens
  intro lexeme
  split
  · exact .take trivial hformat And.left
  · exact .take trivial hformat And.left
  · exact .stay (mirrors_pure id)

theorem mirrors_replacementRest :
    MirrorsTo tail { quote := true } (replacementRest lower) (replacementRest mirror) := by
  refine (mirrors_shown h).bind fun shown => ?_
  refine (mirrors_optionally_amid isPlain_behindShown (by trivial)).bind fun _ => ?_
  refine mirrors_conversion?.bind fun _ => ?_
  refine (mirrors_format? h).bind fun format => ?_
  exact (mirrors_symbol isPlain_behindShown _).bind fun _ => mirrors_pure id

/-! ## Parameters -/

theorem mirrors_default? (hplain : setting.IsPlain) :
    MirrorsAmid tail setting.behind setting.behind (default? lower setting)
      (default? mirror setting) := by
  apply mirrors_onNext hplain.behind.flattens
  intro lexeme
  split
  · exact .take trivial (h.callsIn hplain.later) Sees.precedes
  · exact .stay (mirrors_pure id)

omit h in
theorem mirrors_type? (hplain : setting.IsPlain) :
    MirrorsAmid tail setting.behind setting.behind (type? lower false setting)
      (type? mirror false setting) :=
  mirrors_onNext hplain.behind.flattens fun _ => .stay (mirrors_pure id)

theorem mirrors_starred (hplain : setting.IsPlain) :
    MirrorsAmid tail setting.opening setting.behind (starred lower setting)
      (starred mirror setting) :=
  (h.whole hplain).bind fun _ => (mirrors_require _).bind fun _ => mirrors_pure id

theorem mirrors_parameter (hplain : setting.IsPlain) :
    MirrorsAmid tail setting.opening setting.behind (parameter lower false setting)
      (parameter mirror false setting) := by
  have htyped {setting : Setting} (hplain : setting.IsPlain) :
      MirrorsAmid tail setting.opening setting.behind
        (do let target ← starred lower setting; let type ← type? lower false setting
            pure (target ++ type))
        (do let target ← starred mirror setting; let type ← type? mirror false setting
            pure (target ++ type)) :=
    (mirrors_starred h hplain).bind fun _ => (mirrors_type? hplain).bind fun _ => mirrors_pure id
  apply mirrors_onNext hplain.opening.flattens
  intro lexeme
  split
  · exact .take trivial (mirrors_pure id) Sees.precedes
  · refine .take trivial (mirrors_onNext hplain.orEnd.flattens fun lexeme => ?_) Sees.precedes
    split
    · exact .stay (htyped (hplain.openedBy hplain.orEnd))
    · rename_i hstarts
      refine .leave (mirrors_pure id) fun he hsees => hsees.orEnd he ?_
      rintro delimiter rfl
      exact hstarts rfl
  · exact .take trivial (htyped hplain.later) Sees.precedes
  · exact .stay ((h.whole hplain).bind fun _ => (mirrors_require _).bind fun _ =>
      (mirrors_default? h hplain).bind fun _ => mirrors_pure id)
  · exact .stay (((mirrors_name hplain.opening).given Sees.precedes).bind fun _ =>
      (mirrors_type? hplain).bind fun _ =>
        (mirrors_default? h hplain).bind fun _ => mirrors_pure id)

/-- Parameters are followed by a symbol. -/
theorem mirrors_parameters (hplain : setting.IsPlain) :
    Mirrors tail (Sees tail setting.behind)
      (fun _ cursor => ∃ text, Meets tail setting.behind (.symbol text) cursor)
      (parameters lower false setting) (parameters mirror false setting) := by
  apply mirrors_onNext hplain.behind.flattens
  intro lexeme
  split
  · refine .stay (Mirrors.bind ?_ fun _ => mirrors_pure id)
    refine mirrors_separated (hplain.openedBy hplain.behind)
      (fun hopening => mirrors_parameter h (hplain.openedBy hopening))
      (fun ⟨_, hmeets⟩ => hmeets.sees) ?_
    rintro test - cursor ⟨text, hmeets⟩ -
    exact hmeets.sees.orEnd_of_symbol hmeets.lexeme
  · exact .stay (mirrors_pure fun ⟨_, hmeets⟩ => hmeets.sees)

end Literals

end Level

end CodeAtlas.Syntax
