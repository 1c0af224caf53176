import CodeAtlas.Proofs.Syntax.Alike
import CodeAtlas.Proofs.Syntax.Words

/-!
# Texts in pieces

What a parser takes of a text comes in pieces: words and symbols, each with the blanks, comments and
joined lines in front of it. A piece is the same when the text is cut behind it, so that a text is
divided into pieces in one way, wherever it stands and whatever follows.
-/

namespace CodeAtlas.Syntax

open Text.Identifier (isStart isContinue)

namespace Lexeme

/-! ## Numbers and symbols -/

theorem digitRun_eq_zero_iff {chars : List Char} :
    digitRun false chars = 0 ↔ ∀ char ∈ chars.head?, char.isDigit = false := by
  cases chars with
  | nil => simp [digitRun]
  | cons char rest => cases h : char.isDigit <;> simp [digitRun, h]

theorem le_withSuffix (letters chars : List Char) (length : Nat) :
    length ≤ withSuffix letters chars length := by
  unfold withSuffix
  split
  · split <;> omega
  · exact Nat.le_refl _

theorem wholeLength_pos {char : Char} (h : char.isDigit = true) (rest : List Char) :
    0 < wholeLength (char :: rest) := by
  have hrun : digitRun false (char :: rest) ≠ 0 := by simp [digitRun, h]
  have hsuffix (letters : List Char) (length : Nat) :=
    le_withSuffix letters (char :: rest) (length + 1)
  unfold wholeLength
  split
  case h_7 =>
    have hcount := le_withSuffix ['l', 'L', 'j', 'J'] (char :: rest) (digitRun false (char :: rest))
    dsimp only
    rw [if_neg hrun]
    omega
  all_goals
    dsimp only
    split
    · exact hsuffix _ 0
    · exact Nat.lt_of_lt_of_le (Nat.succ_pos _) (hsuffix _ _)

theorem wholeLength_eq_zero {char : Char} (h : char.isDigit = false) (rest : List Char) :
    wholeLength (char :: rest) = 0 := by
  have hrun : digitRun false (char :: rest) = 0 := by simp [digitRun, h]
  unfold wholeLength
  split
  case h_7 => rw [hrun, if_pos rfl]
  all_goals
    rename_i he
    cases he
    exact absurd h (by decide)

theorem numberLength_eq_zero_iff {char : Char} {rest : List Char} :
    numberLength (char :: rest) = 0 ↔ char.isDigit = false ∧
      (char = '.' → ∀ next ∈ rest.head?, next.isDigit = false) := by
  cases hd : char.isDigit with
  | true =>
      have hpos := wholeLength_pos hd rest
      simp [numberLength]
      omega
  | false =>
      have hrun : digitRun false (char :: rest) = 0 := by simp [digitRun, hd]
      rw [numberLength, wholeLength_eq_zero hd, Nat.max_zero, fractionLength, hrun]
      by_cases hp : char = '.'
      · subst hp
        simp only [List.drop_zero, true_and, true_imp_iff, ← digitRun_eq_zero_iff]
        by_cases hz : digitRun false rest = 0
        · simp [hz]
        · have hle := le_withSuffix ['j', 'J'] ('.' :: rest)
            (0 + 1 + digitRun false rest + exponentLength (rest.drop (digitRun false rest)))
          rw [Nat.zero_add] at hle
          simp [hz]
          omega
      · simp [hp]

theorem textAt_eq_symbol {chars : List Char} {text : String} {length : Nat}
    (h : textAt chars = (.symbol text, length)) :
    ∃ char rest sign, chars = char :: rest ∧ isStart char = false ∧
      numberLength (char :: rest) = 0 ∧ symbolAt (char :: rest) = some (sign, text) ∧
      length = sign.length := by
  unfold textAt at h
  split at h
  · cases h
  · rename_i char rest
    split at h
    · cases h
    · rename_i hstart
      dsimp only at h
      split at h
      · cases h
      · rename_i hnumber
        split at h
        · rename_i sign text hsymbol
          cases h
          exact ⟨char, rest, sign, rfl, by simpa using hstart, by simpa using hnumber, hsymbol, rfl⟩
        · cases h

theorem prefix_of_symbolAt {chars sign : List Char} {text : String}
    (h : symbolAt chars = some (sign, text)) : sign <+: chars := by
  have hp := List.find?_some h
  exact List.isPrefixOf_iff_prefix.1 hp

theorem symbolTable_head (entry : List Char × String) (h : entry ∈ symbolTable) :
    ∃ char rest, entry.1 = char :: rest ∧ char ∉ ['\\', '#', '"', '\'', '`'] := by
  have hall : ∀ entry ∈ symbolTable,
      entry.1.head?.any (· ∉ ['\\', '#', '"', '\'', '`']) = true := by decide
  have hhead := hall entry h
  cases hchars : entry.1 with
  | nil => simp [hchars] at hhead
  | cons char rest => exact ⟨char, rest, rfl, by simpa [hchars] using hhead⟩

theorem textAt_take_symbol {chars : List Char} {text : String} {length count : Nat}
    (h : textAt chars = (.symbol text, length)) (hcount : length ≤ count) :
    textAt (chars.take count) = (.symbol text, length) := by
  obtain ⟨char, rest, sign, rfl, hstart, hnumber, hsymbol, rfl⟩ := textAt_eq_symbol h
  obtain ⟨hp, before, behind, htable, hbefore⟩ := List.find?_eq_some_iff_append.1 hsymbol
  obtain ⟨first, others, hsign, -⟩ :=
    symbolTable_head (sign, text) (htable ▸ List.mem_append_right _ List.mem_cons_self)
  obtain ⟨count, rfl⟩ : ∃ less, count = less + 1 := by
    refine Nat.exists_eq_add_of_le' (Nat.le_trans ?_ hcount)
    simp only at hsign
    simp [hsign]
  have hcut : ∀ entry : List Char × String, entry.1.isPrefixOf (char :: rest.take count) = true →
      entry.1.isPrefixOf (char :: rest) = true := by
    intro entry he
    rw [List.isPrefixOf_iff_prefix] at he ⊢
    exact he.trans (List.take_prefix (count + 1) (char :: rest))
  have hsame : symbolAt (char :: rest.take count) = some (sign, text) := by
    refine List.find?_eq_some_iff_append.2 ⟨?_, before, behind, htable, fun entry hm => ?_⟩
    · rw [List.isPrefixOf_iff_prefix] at hp ⊢
      exact List.prefix_take_iff.2 ⟨hp, hcount⟩
    · cases he : entry.1.isPrefixOf (char :: rest.take count) with
      | false => rfl
      | true => simpa [hcut entry he] using hbefore entry hm
  have hzero : numberLength (char :: rest.take count) = 0 := by
    rw [numberLength_eq_zero_iff] at hnumber ⊢
    refine ⟨hnumber.1, fun hpoint next hm => hnumber.2 hpoint next ?_⟩
    cases rest with
    | nil => simp at hm
    | cons other rest =>
        cases count with
        | zero => simp at hm
        | succ count => exact hm
  rw [List.take_succ_cons, textAt, if_neg (by simp [hstart])]
  dsimp only
  rw [hzero, hsame]
  rfl

/-! ## Gaps -/

theorem Skips.eq {chars : List Char} {passed other : Nat} (h : Skips chars passed)
    (hother : Skips chars other) : passed = other := by
  induction h generalizing other with
  | last hzero =>
      cases hother with
      | last => rfl
      | next hne => exact absurd hzero hne
  | next hne _ ih =>
      cases hother with
      | last hzero => exact absurd hzero hne
      | next _ hmore => rw [ih hmore]

theorem blanks_drop (chars : List Char) : blanks (chars.drop (blanks chars)) = 0 := by
  have hdrop : chars.drop (blanks chars) = chars.dropWhile isSpace := by
    have hsplit := congrArg (List.drop (blanks chars))
      (@List.takeWhile_append_dropWhile _ isSpace chars)
    rw [← hsplit, blanks, List.drop_left]
  have hhead := List.head?_dropWhile_not isSpace chars
  rw [hdrop, blanks]
  cases hrest : chars.dropWhile isSpace with
  | nil => rfl
  | cons char rest =>
      rw [hrest, List.head?_cons] at hhead
      rw [List.takeWhile_cons_of_neg (by simpa using hhead)]
      rfl

theorem Skips.behind {chars : List Char} {passed : Nat} (h : Skips chars passed) :
    Skips (chars.drop passed) 0 := by
  induction h with
  | @last chars hzero =>
      have hlast := @Skips.last (chars.drop (blanks chars))
      rw [blanks_drop] at hlast
      exact hlast hzero
  | next _ _ ih =>
      rwa [List.drop_drop] at ih

theorem blanks_take {chars : List Char} {count : Nat} (h : blanks chars ≤ count) :
    blanks (chars.take count) = blanks chars := by
  rw [blanks, ← List.take_takeWhile, List.length_take]
  exact Nat.min_eq_right h

theorem gapLength_take {chars : List Char} {count : Nat} (hne : gapLength chars ≠ 0)
    (h : gapLength chars < count) : gapLength (chars.take count) = gapLength chars := by
  unfold gapLength at hne
  split at hne
  · rename_i rest
    change (rest.takeWhile (· ≠ '\n')).length + 1 < count at h
    obtain ⟨less, rfl⟩ := Nat.exists_eq_add_of_le' (Nat.le_of_lt (Nat.lt_of_le_of_lt
      (Nat.le_add_left 1 _) h))
    show ((rest.take less).takeWhile (· ≠ '\n')).length + 1 =
      (rest.takeWhile (· ≠ '\n')).length + 1
    rw [← List.take_takeWhile, List.length_take, Nat.min_eq_right (by omega)]
  · obtain ⟨less, rfl⟩ := Nat.exists_eq_add_of_le' (Nat.succ_le_of_lt h)
    rfl
  · obtain ⟨less, rfl⟩ := Nat.exists_eq_add_of_le' (Nat.succ_le_of_lt h)
    rfl
  · obtain ⟨less, rfl⟩ := Nat.exists_eq_add_of_le' (Nat.succ_le_of_lt h)
    rfl
  · exact absurd rfl hne

theorem Skips.take {chars : List Char} {passed count : Nat} (h : Skips chars passed)
    (hcount : passed < count) {char : Char} {rest : List Char}
    (hrest : chars.drop passed = char :: rest) (hchar : char ≠ '\\') :
    Skips (chars.take count) passed := by
  induction h generalizing count with
  | @last chars hzero =>
      have hblanks := blanks_take (Nat.le_of_lt hcount)
      have hcut : gapLength ((chars.take count).drop (blanks (chars.take count))) = 0 := by
        obtain ⟨less, hless⟩ := Nat.exists_eq_add_of_lt hcount
        have hcomment : char ≠ '#' := by
          rintro rfl
          rw [hrest] at hzero
          cases hzero
        rw [hblanks, List.drop_take, hrest, hless, Nat.add_assoc, Nat.add_sub_cancel_left,
          List.take_succ_cons]
        exact gapLength_cons hcomment hchar _
      have hlast := Skips.last hcut
      rwa [hblanks] at hlast
  | @next chars more hne _ ih =>
      have hblanks : blanks (chars.take count) = blanks chars := blanks_take (by omega)
      have hgap : gapLength ((chars.take count).drop (blanks (chars.take count))) =
          gapLength (chars.drop (blanks chars)) := by
        rw [hblanks, List.drop_take]
        exact gapLength_take hne (by omega)
      rw [← List.drop_drop] at hrest
      have hmore := @ih (count - (blanks chars + gapLength (chars.drop (blanks chars))))
        (by omega) hrest
      rw [← List.drop_take, ← hgap, ← hblanks] at hmore
      have hnext := Skips.next (by rwa [hgap]) hmore
      rwa [hgap, hblanks] at hnext

/-! ## Words and symbols -/

def IsText (lexeme : Lexeme) : Prop := ∃ text, lexeme = .word text ∨ lexeme = .symbol text

section Text

variable {lexeme : Lexeme} {chars : List Char} {length : Nat}

theorem IsText.textAt_take (ht : IsText lexeme) (h : textAt chars = (lexeme, length)) {count : Nat}
    (hcount : length ≤ count) : textAt (chars.take count) = (lexeme, length) := by
  obtain ⟨text, rfl | rfl⟩ := ht
  · exact Lexeme.textAt_take h hcount
  · exact textAt_take_symbol h hcount

theorem IsText.length_le (ht : IsText lexeme) (h : textAt chars = (lexeme, length)) :
    length ≤ chars.length := by
  obtain ⟨text, rfl | rfl⟩ := ht
  · obtain ⟨-, hprefix, rfl, -⟩ := textAt_eq_word h
    rw [← String.length_toList]
    exact hprefix.length_le
  · obtain ⟨char, rest, sign, rfl, -, -, hsymbol, rfl⟩ := textAt_eq_symbol h
    exact (prefix_of_symbolAt hsymbol).length_le

theorem IsText.exists_cons (ht : IsText lexeme) (h : textAt chars = (lexeme, length)) :
    0 < length ∧ ∃ char rest, chars = char :: rest ∧ char ≠ '\\' := by
  obtain ⟨text, rfl | rfl⟩ := ht
  · obtain ⟨-, -, -, hlength⟩ := textAt_eq_word h
    obtain ⟨char, rest, rfl, hstart⟩ := isStart_of_textAt_eq_word h
    exact ⟨hlength, char, rest, rfl, ne_of_isStart hstart (by decide)⟩
  · obtain ⟨char, rest, sign, rfl, -, -, hsymbol, rfl⟩ := textAt_eq_symbol h
    obtain ⟨first, others, hsign, hfirst⟩ := symbolTable_head _ (List.mem_of_find?_eq_some hsymbol)
    have hprefix := prefix_of_symbolAt hsymbol
    dsimp only at hsign
    rw [hsign] at hprefix ⊢
    obtain ⟨rfl, -⟩ := List.cons_prefix_cons.1 hprefix
    exact ⟨Nat.succ_pos _, first, rest, rfl, (List.ne_of_not_mem_cons hfirst)⟩

end Text

end Lexeme

/-! ## Pieces -/

/-- A word or a symbol, with what is passed over in front of it. -/
structure Piece where
  gap : List Char
  chars : List Char
  lexeme : Lexeme
deriving DecidableEq

namespace Piece

/-- The text of pieces one after another. -/
def spelled (pieces : List Piece) : List Char :=
  pieces.flatMap fun piece => piece.gap ++ piece.chars

@[simp] theorem spelled_nil : spelled [] = [] := rfl

@[simp] theorem spelled_cons (piece : Piece) (pieces : List Piece) :
    spelled (piece :: pieces) = piece.gap ++ piece.chars ++ spelled pieces :=
  List.flatMap_cons

@[simp] theorem spelled_append (pieces others : List Piece) :
    spelled (pieces ++ others) = spelled pieces ++ spelled others :=
  List.flatMap_append

/-- The text of pieces from where the first of them starts. -/
def textOf : List Piece → String
  | [] => ""
  | first :: others => String.ofList (first.chars ++ spelled others)

/-- The piece is what is read first of a text, given what stands behind it. -/
structure IsFirst (piece : Piece) (rest : List Char) : Prop where
  skips : Lexeme.Skips (piece.gap ++ piece.chars ++ rest) piece.gap.length
  textAt : Lexeme.textAt (piece.chars ++ rest) = (piece.lexeme, piece.chars.length)
  isText : Lexeme.IsText piece.lexeme

theorem IsFirst.chars_ne_nil {piece : Piece} {rest : List Char} (h : piece.IsFirst rest) :
    piece.chars ≠ [] :=
  List.length_pos_iff.1 (h.isText.exists_cons h.textAt).1

theorem IsFirst.cut {piece : Piece} {front back : List Char} (h : piece.IsFirst (front ++ back)) :
    piece.IsFirst front := by
  obtain ⟨hlength, char, rest, hchars, hchar⟩ := h.isText.exists_cons h.textAt
  refine ⟨?_, ?_, h.isText⟩
  · have hdrop : (piece.gap ++ piece.chars ++ (front ++ back)).drop piece.gap.length =
        char :: rest := by
      rw [List.append_assoc, List.drop_left, hchars]
    have hcut := @Lexeme.Skips.take _ _ (piece.gap ++ piece.chars ++ front).length h.skips
      (by simp only [List.length_append]; omega) _ _ hdrop hchar
    rwa [← List.append_assoc, List.take_left] at hcut
  · have hcut := @Lexeme.IsText.textAt_take _ _ _ h.isText h.textAt
      (piece.chars ++ front).length (by simp)
    rwa [← List.append_assoc, List.take_left] at hcut

theorem IsFirst.bare {piece : Piece} {rest : List Char} (h : piece.IsFirst rest) :
    IsFirst ⟨[], piece.chars, piece.lexeme⟩ rest where
  skips := by
    have hbehind := h.skips.behind
    rwa [List.append_assoc, List.drop_left] at hbehind
  textAt := h.textAt
  isText := h.isText

theorem IsFirst.eq {piece other : Piece} {rest more : List Char} (h : piece.IsFirst rest)
    (hother : other.IsFirst more)
    (he : piece.gap ++ piece.chars ++ rest = other.gap ++ other.chars ++ more) :
    piece = other ∧ rest = more := by
  have hskips := h.skips
  rw [he] at hskips
  have hgap := hskips.eq hother.skips
  rw [List.append_assoc, List.append_assoc] at he
  obtain ⟨hg, hbehind⟩ := List.append_inj he hgap
  have htext := h.textAt
  rw [hbehind, hother.textAt] at htext
  obtain ⟨hlexeme, hlength⟩ := Prod.mk.inj htext
  obtain ⟨hc, hrest⟩ := List.append_inj hbehind hlength.symm
  obtain ⟨gap, chars, lexeme⟩ := piece
  dsimp only at hg hc hlexeme
  rw [hg, hc, ← hlexeme]
  exact ⟨rfl, hrest⟩

/-- What stands in front of a rest is divided into pieces. -/
def Divide : List Piece → List Char → Prop
  | [], _ => True
  | piece :: pieces, rest => piece.IsFirst (spelled pieces ++ rest) ∧ Divide pieces rest

theorem Divide.append {pieces others : List Piece} {rest : List Char}
    (h : Divide pieces (spelled others ++ rest)) (hothers : Divide others rest) :
    Divide (pieces ++ others) rest := by
  induction pieces with
  | nil => exact hothers
  | cons piece pieces ih =>
      obtain ⟨hfirst, hmore⟩ := h
      refine ⟨?_, ih hmore⟩
      show piece.IsFirst (spelled (pieces ++ others) ++ rest)
      rwa [spelled_append, List.append_assoc]

theorem Divide.eq {pieces others : List Piece} {rest more : List Char} (h : Divide pieces rest)
    (hothers : Divide others more) (he : spelled pieces = spelled others) : pieces = others := by
  induction pieces generalizing others with
  | nil =>
      cases others with
      | nil => rfl
      | cons other others =>
          rw [spelled_cons] at he
          have hnil := (List.append_eq_nil_iff.1 he.symm).1
          exact absurd (List.append_eq_nil_iff.1 hnil).2 hothers.1.chars_ne_nil
  | cons piece pieces ih =>
      cases others with
      | nil =>
          rw [spelled_cons] at he
          have hnil := (List.append_eq_nil_iff.1 he).1
          exact absurd (List.append_eq_nil_iff.1 hnil).2 h.1.chars_ne_nil
      | cons other others =>
          rw [spelled_cons, spelled_cons] at he
          obtain ⟨rfl, hrest⟩ := h.1.cut.eq hothers.1.cut he
          rw [ih h.2 hothers.2 hrest]

theorem Divide.eq_of_textOf {first other : Piece} {pieces others : List Piece}
    {rest more : List Char} (h : Divide (first :: pieces) rest)
    (hothers : Divide (other :: others) more)
    (he : textOf (first :: pieces) = textOf (other :: others)) :
    first.lexeme = other.lexeme ∧ pieces = others := by
  have hbare : Divide (⟨[], first.chars, first.lexeme⟩ :: pieces) rest := ⟨h.1.bare, h.2⟩
  have hotherBare : Divide (⟨[], other.chars, other.lexeme⟩ :: others) more :=
    ⟨hothers.1.bare, hothers.2⟩
  obtain ⟨hfirst, hpieces⟩ := List.cons.inj (hbare.eq hotherBare (String.ofList_injective he))
  exact ⟨(Piece.mk.inj hfirst).2.2, hpieces⟩

/-! ## Pieces between cursors -/

/-- The pieces take up the text from one cursor to another. -/
structure Fill (pieces : List Piece) (first last : Cursor) : Prop where
  last_eq : last = first.skip (spelled pieces).length
  rest_eq : first.rest = spelled pieces ++ last.rest
  divide : Divide pieces last.rest

theorem fill_nil (cursor : Cursor) : Fill [] cursor cursor := ⟨rfl, rfl, trivial⟩

theorem Fill.append {pieces others : List Piece} {first middle last : Cursor}
    (h : Fill pieces first middle) (hothers : Fill others middle last) :
    Fill (pieces ++ others) first last where
  last_eq := by
    rw [hothers.last_eq, h.last_eq, Cursor.skip_skip, spelled_append, List.length_append]
  rest_eq := by rw [h.rest_eq, hothers.rest_eq, spelled_append, List.append_assoc]
  divide := by
    refine Divide.append ?_ hothers.divide
    rw [← hothers.rest_eq]
    exact h.divide

theorem exists_fill_of_ahead {expected : Expectation} {cursor : Cursor} {lexeme : Lexeme}
    (h : (cursor.ahead expected).lexeme = lexeme) (ht : Lexeme.IsText lexeme) :
    ∃ piece, piece.lexeme = lexeme ∧ Fill [piece] cursor (cursor.ahead expected).stop ∧
      (cursor.ahead expected).start = cursor.skip piece.gap.length := by
  have hne : lexeme ≠ .unknown ∧ (∀ token, lexeme ≠ .layout token) ∧
      ∀ delimiter, lexeme ≠ .quote delimiter := by
    obtain ⟨text, rfl | rfl⟩ := ht <;> simp
  obtain ⟨passed, length, hskips, hstart, htext, hstop⟩ :=
    Cursor.ahead_text h hne.1 hne.2.1 hne.2.2
  rw [Cursor.rest_skip] at htext
  have hlength := ht.length_le htext
  have hpos := (ht.exists_cons htext).1
  have hrest : cursor.rest = cursor.rest.take passed ++ (cursor.rest.drop passed).take length ++
      (cursor.ahead expected).stop.rest := by
    rw [hstop, Cursor.rest_skip, Cursor.rest_skip, List.append_assoc, List.take_append_drop,
      List.take_append_drop]
  have hgap : (cursor.rest.take passed).length = passed := by
    rw [List.length_drop] at hlength
    rw [List.length_take]
    omega
  have hchars : ((cursor.rest.drop passed).take length).length = length := by
    rw [List.length_take]
    omega
  refine ⟨⟨cursor.rest.take passed, (cursor.rest.drop passed).take length, lexeme⟩, rfl,
    ⟨?_, ?_, ⟨?_, ?_, ht⟩, trivial⟩, ?_⟩
  · rw [hstop, Cursor.skip_skip]
    simp only [spelled_cons, spelled_nil, List.append_nil, List.length_append, hgap, hchars]
  · simpa only [spelled_cons, spelled_nil, List.append_nil] using hrest
  · rw [spelled_nil, List.nil_append, ← hrest, hgap]
    exact hskips
  · rw [spelled_nil, List.nil_append, hstop, Cursor.rest_skip, Cursor.rest_skip,
      List.take_append_drop, hchars]
    exact htext
  · rw [hgap]
    exact hstart

theorem Fill.textTo {piece : Piece} {pieces : List Piece} {first last : Cursor}
    (h : Fill (piece :: pieces) first last) :
    (first.skip piece.gap.length).textTo last.offset = textOf (piece :: pieces) := by
  have hrest : (first.skip piece.gap.length).rest =
      piece.chars ++ spelled pieces ++ last.rest := by
    rw [Cursor.rest_skip, h.rest_eq, spelled_cons, List.append_assoc, List.append_assoc,
      List.drop_left, List.append_assoc]
  have hlength : last.offset - (first.skip piece.gap.length).offset =
      (piece.chars ++ spelled pieces).length := by
    rw [h.last_eq, Cursor.offset_skip, Cursor.offset_skip, h.rest_eq, spelled_cons]
    simp only [List.length_append]
    omega
  rw [Cursor.textTo, hrest, hlength, List.take_left, textOf]

theorem Fill.loop {α σ : Type} {state : σ} {step : σ → Parser (σ ⊕ α)} {value : α}
    {pieces : List Piece} {first cursor stop : Cursor} (h : Fill pieces first cursor)
    (before : σ → List Piece → Prop) (after : α → List Piece → Prop) (hstart : before state pieces)
    (hstep : ∀ ⦃state pieces cursor result stop⦄, before state pieces →
      (step state).run cursor = some (result, stop) →
        ∃ more, Fill more cursor stop ∧ Sum.elim before after result (pieces ++ more))
    {rounds : Nat} (hrun : Parser.loopRun step rounds state cursor = some (value, stop)) :
    ∃ pieces, Fill pieces first stop ∧ after value pieces := by
  refine Parser.loopRun_induct (fun state cursor => ∃ pieces, Fill pieces first cursor ∧
    before state pieces) (fun value stop => ∃ pieces, Fill pieces first stop ∧ after value pieces)
    ?_ ?_ rounds ⟨pieces, h, hstart⟩ hrun
  all_goals
    rintro state cursor result stop ⟨pieces, hpieces, hbefore⟩ hrun
    obtain ⟨more, hmore, hafter⟩ := hstep hbefore hrun
    exact ⟨pieces ++ more, hpieces.append hmore, hafter⟩

end Piece

end CodeAtlas.Syntax
