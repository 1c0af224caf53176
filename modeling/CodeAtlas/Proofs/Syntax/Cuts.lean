import CodeAtlas.Proofs.Syntax.Numbers

/-!
# Cut texts

A cursor can stand in a text like another one in the text without its tail. Where the tail starts
behind the lexeme that is ahead, both have the same lexeme ahead, from the same start to the same end.
Layout is left out of this: at the end of a text all open blocks are closed.
-/

namespace CodeAtlas.Syntax

open Text.Identifier (isStart)

/-! ## Quotes -/

namespace Lexeme

/-- What a character does to the opening quote that is being read: it is a letter in front of the
quote, no part of it, the quote, or one that counts three times where it stands three times. -/
theorem quoteFrom_cons (delimiter : Delimiter) (char : Char) :
    (∃ next, ∀ passed rest,
      quoteFrom delimiter passed (char :: rest) = quoteFrom next (passed + 1) rest) ∨
    (∀ passed rest, quoteFrom delimiter passed (char :: rest) = none) ∨
    (∃ single, ∀ passed rest,
      quoteFrom delimiter passed (char :: rest) = some (single, passed + 1)) ∨
    ∃ single triple, ∀ passed rest, quoteFrom delimiter passed (char :: rest) =
      if rest.take 2 = [char, char] then some (triple, passed + 3)
      else some (single, passed + 1) := by
  by_cases hformat : char ∈ ['f', 'F', 't', 'T']
  · exact .inl ⟨_, fun _ _ => by rw [quoteFrom, if_pos hformat]⟩
  by_cases hraw : char ∈ ['r', 'R']
  · exact .inl ⟨_, fun _ _ => by rw [quoteFrom, if_neg hformat, if_pos hraw]⟩
  by_cases hbytes : char ∈ ['b', 'B']
  · exact .inl ⟨_, fun _ _ => by
      rw [quoteFrom, if_neg hformat, if_neg hraw, if_pos hbytes]⟩
  by_cases hplain : char ∈ ['u', 'U']
  · exact .inl ⟨_, fun _ _ => by
      rw [quoteFrom, if_neg hformat, if_neg hraw, if_neg hbytes, if_pos hplain]⟩
  by_cases hback : char = '`'
  · exact .inr (.inr (.inl ⟨_, fun _ _ => by
      rw [quoteFrom, if_neg hformat, if_neg hraw, if_neg hbytes, if_neg hplain,
        if_pos hback]⟩))
  by_cases hquote : (char = '"' || char = '\'') = true
  · exact .inr (.inr (.inr ⟨_, _, fun _ _ => by
      rw [quoteFrom, if_neg hformat, if_neg hraw, if_neg hbytes, if_neg hplain,
        if_neg hback, if_pos hquote]⟩))
  · exact .inr (.inl fun _ _ => by
      rw [quoteFrom, if_neg hformat, if_neg hraw, if_neg hbytes, if_neg hplain,
        if_neg hback, if_neg hquote])

theorem quoteFrom_append {delimiter opened : Delimiter} {passed length : Nat}
    {chars : List Char} (h : quoteFrom delimiter passed chars = some (opened, length))
    (more : List Char) : (quoteFrom delimiter passed (chars ++ more)).isSome := by
  induction chars generalizing delimiter passed with
  | nil => cases h
  | cons char rest ih =>
      rw [List.cons_append]
      rcases quoteFrom_cons delimiter char with
        ⟨next, hnext⟩ | hnone | ⟨single, hsingle⟩ | ⟨single, triple, hquote⟩
      · rw [hnext] at h ⊢
        exact ih h
      · rw [hnone] at h
        cases h
      · rw [hsingle]
        rfl
      · rw [hquote]
        split <;> rfl

theorem lt_of_quoteFrom {delimiter opened : Delimiter} {passed length : Nat} {chars : List Char}
    (h : quoteFrom delimiter passed chars = some (opened, length)) : passed < length := by
  induction chars generalizing delimiter passed with
  | nil => cases h
  | cons char rest ih =>
      rcases quoteFrom_cons delimiter char with
        ⟨next, hnext⟩ | hnone | ⟨single, hsingle⟩ | ⟨single, triple, hquote⟩
      · rw [hnext] at h
        exact Nat.lt_of_succ_lt (ih h)
      · rw [hnone] at h
        cases h
      · rw [hsingle] at h
        cases h
        omega
      · rw [hquote] at h
        split at h <;> cases h <;> omega

/-- An opening quote is the same when the text is cut behind it. -/
theorem quoteFrom_cut {delimiter opened : Delimiter} {passed length : Nat}
    {chars more : List Char}
    (h : quoteFrom delimiter passed (chars ++ more) = some (opened, length))
    (hlength : length ≤ passed + chars.length) :
    quoteFrom delimiter passed chars = some (opened, length) := by
  induction chars generalizing delimiter passed with
  | nil =>
      have hlt := lt_of_quoteFrom h
      rw [List.length_nil] at hlength
      omega
  | cons char rest ih =>
      rw [List.cons_append] at h
      rw [List.length_cons] at hlength
      rcases quoteFrom_cons delimiter char with
        ⟨next, hnext⟩ | hnone | ⟨single, hsingle⟩ | ⟨single, triple, hquote⟩
      · rw [hnext] at h ⊢
        exact ih h (by omega)
      · rw [hnone] at h
        cases h
      · rw [hsingle] at h ⊢
        exact h
      · rw [hquote] at h ⊢
        split at h
        · rename_i htriple
          cases h
          rw [List.take_append_of_le_length (by omega)] at htriple
          rw [if_pos htriple]
        · rename_i htriple
          rw [if_neg, h]
          intro hcut
          have hlong := congrArg List.length hcut
          simp only [List.length_take, List.length_cons, List.length_nil] at hlong
          exact htriple (by rw [List.take_append_of_le_length (by omega), hcut])

end Lexeme

/-! ## Blanks in front of quotes -/

namespace Layout

def blanks : List Char := ['\n', ' ', '\t', '\r', '\x0c']

/-- Blanks and joined lines. -/
inductive AreBlanks : List Char → Prop
  | nil : AreBlanks []
  | blank {char : Char} {rest : List Char} (h : char ∈ blanks) (hrest : AreBlanks rest) :
      AreBlanks (char :: rest)
  | joined {rest : List Char} (hrest : AreBlanks rest) : AreBlanks ('\\' :: '\n' :: rest)
  | joinedReturn {rest : List Char} (hrest : AreBlanks rest) :
      AreBlanks ('\\' :: '\r' :: '\n' :: rest)

theorem surveyFrom_onward {layout inComment lineEnd : Bool} {passed width : Nat}
    {comment : Option Nat} {chars : List Char} {survey : Survey}
    (h : surveyFrom layout passed inComment lineEnd width comment chars = some survey)
    (hcomment : survey.comment = none) : comment = none := by
  fun_induction surveyFrom layout passed inComment lineEnd width comment chars <;>
    first
    | cases h; exact hcomment
    | cases h
    | skip
  all_goals
    rename_i ih
    simpa using ih h

/-- A survey that meets no comment passes over blanks and joined lines. -/
theorem exists_areBlanks_of_surveyFrom {layout inComment lineEnd : Bool} {passed width : Nat}
    {comment : Option Nat} {chars : List Char} {survey : Survey}
    (h : surveyFrom layout passed inComment lineEnd width comment chars = some survey)
    (hin : inComment = false) (hcomment : survey.comment = none) (hrest : survey.rest ≠ []) :
    ∃ front, AreBlanks front ∧ chars = front ++ survey.rest ∧
      survey.passed = passed + front.length ∧
      ∀ char ∈ survey.rest.head?, char ∉ blanks ∧ char ≠ '\\' := by
  fun_induction surveyFrom layout passed inComment lineEnd width comment chars
  case case1 | case10 | case11 =>
    cases h
    exact absurd rfl hrest
  case case2 | case3 => cases hin
  case case4 ih | case5 ih | case6 ih =>
    obtain ⟨front, hfront, rfl, hpassed, hstop⟩ := ih h rfl
    refine ⟨_ :: front, .blank (by decide) hfront, rfl, ?_, hstop⟩
    rw [hpassed, List.length_cons]
    omega
  case case7 hblank ih =>
    obtain ⟨front, hfront, rfl, hpassed, hstop⟩ := ih h rfl
    refine ⟨_ :: front, .blank ?_ hfront, rfl, ?_, hstop⟩
    · simp only [Bool.or_eq_true, decide_eq_true_eq] at hblank
      rcases hblank with rfl | rfl <;> decide
    · rw [hpassed, List.length_cons]
      omega
  case case8 =>
    have hnone := surveyFrom_onward h hcomment
    simp at hnone
  case case9 | case14 => cases h
  case case12 ih =>
    obtain ⟨front, hfront, rfl, hpassed, hstop⟩ := ih h rfl
    refine ⟨_, .joined hfront, rfl, ?_, hstop⟩
    rw [hpassed, List.length_cons, List.length_cons]
    omega
  case case13 ih =>
    obtain ⟨front, hfront, rfl, hpassed, hstop⟩ := ih h rfl
    refine ⟨_, .joinedReturn hfront, rfl, ?_, hstop⟩
    rw [hpassed, List.length_cons, List.length_cons, List.length_cons]
    omega
  case case15 hline hspace htab hreturn _ hjoin =>
    cases h
    refine ⟨[], .nil, rfl, rfl, fun char hm => ?_⟩
    cases hm
    refine ⟨?_, hjoin⟩
    simp only [Bool.or_eq_true, decide_eq_true_eq] at hreturn
    simp [blanks, hline, hspace, htab, not_or.1 hreturn]

theorem surveyFrom_cons {char : Char} (hstop : char ∉ blanks ∧ char ≠ '\\') (hcomment : char ≠ '#')
    (layout lineEnd : Bool) (passed width : Nat) (rest : List Char) :
    surveyFrom layout passed false lineEnd width none (char :: rest) =
      some ⟨char :: rest, passed, lineEnd, width, none⟩ := by
  obtain ⟨hblank, hjoin⟩ := hstop
  simp only [blanks, List.mem_cons, List.not_mem_nil, or_false, not_or] at hblank
  unfold surveyFrom
  simp [hblank, hjoin, hcomment]

theorem exists_surveyFrom_of_areBlanks {front rest : List Char} {char : Char}
    (h : AreBlanks front) (hstop : char ∉ blanks ∧ char ≠ '\\') (hcomment : char ≠ '#')
    (layout lineEnd : Bool) (passed width : Nat) :
    ∃ survey,
      surveyFrom layout passed false lineEnd width none (front ++ char :: rest) = some survey ∧
        survey.rest = char :: rest ∧ survey.passed = passed + front.length ∧
        survey.comment = none := by
  induction h generalizing lineEnd passed width with
  | nil => exact ⟨_, surveyFrom_cons hstop hcomment .., rfl, rfl, rfl⟩
  | @blank char rest hblank _ ih =>
      rw [List.cons_append, List.length_cons, Nat.add_comm _ 1, ← Nat.add_assoc]
      unfold surveyFrom
      simp only [blanks, List.mem_cons, List.not_mem_nil, or_false] at hblank
      rcases hblank with rfl | rfl | rfl | rfl | rfl
      all_goals
        simp only [Bool.false_eq_true, Char.reduceEq, decide_true, decide_false, Bool.or_true,
          Bool.or_false, if_true, if_false]
        exact ih ..
  | joined _ ih =>
      rw [List.cons_append, List.cons_append, List.length_cons, List.length_cons,
        Nat.add_assoc _ 1 1, Nat.add_comm _ (1 + 1), ← Nat.add_assoc]
      unfold surveyFrom
      simp only [Bool.false_eq_true, Char.reduceEq, decide_false, Bool.or_false,
        Bool.false_and, if_true, if_false]
      exact ih ..
  | joinedReturn _ ih =>
      rw [List.cons_append, List.cons_append, List.cons_append, List.length_cons,
        List.length_cons, List.length_cons, Nat.add_assoc _ 1 1, Nat.add_assoc _ 1 (1 + 1),
        Nat.add_comm _ (1 + (1 + 1)), ← Nat.add_assoc]
      unfold surveyFrom
      simp only [Bool.false_eq_true, Char.reduceEq, decide_false, Bool.or_false,
        Bool.false_and, if_true, if_false]
      exact ih ..

end Layout

/-! ## Lexemes in cut texts -/

/-- No layout is asked for. -/
structure Expectation.IsPlain (expected : Expectation) : Prop where
  newline : expected.newline = false
  indent : expected.indent = false
  dedent : expected.dedent = false

/-- The lexeme takes up room in a line. -/
def Lexeme.IsSolid : Lexeme → Prop
  | .quote _ | .word _ | .number | .symbol _ => True
  | .layout _ | .finish | .unknown => False

theorem Lexeme.head_of_textAt {chars : List Char} (h : (textAt chars).1.IsSolid) :
    0 < (textAt chars).2 ∧ ∃ char rest, chars = char :: rest ∧ char ≠ '#' ∧ char ≠ '\\' := by
  cases chars with
  | nil => cases h
  | cons char rest =>
      by_cases hstart : isStart char = true
      · rw [textAt_of_isStart hstart]
        exact ⟨Nat.succ_pos _, char, rest, rfl, ne_of_isStart hstart (by decide),
          ne_of_isStart hstart (by decide)⟩
      · rw [textAt, if_neg hstart] at h ⊢
        dsimp only at h ⊢
        split at h
        · rename_i hnumber
          rw [if_pos hnumber]
          refine ⟨Nat.pos_of_ne_zero hnumber, char, rest, rfl, ?_, ?_⟩
          all_goals
            rintro rfl
            exact hnumber (numberLength_eq_zero_iff.2 ⟨by decide, by simp⟩)
        · rename_i hnumber
          rw [if_neg hnumber]
          split at h
          · rename_i hsymbol
            obtain ⟨first, others, hsign, hfirst⟩ :=
              symbolTable_head _ (List.mem_of_find?_eq_some hsymbol)
            have hprefix := prefix_of_symbolAt hsymbol
            dsimp only at hsign
            rw [hsign] at hprefix ⊢
            obtain ⟨rfl, -⟩ := List.cons_prefix_cons.1 hprefix
            simp only [List.mem_cons, List.not_mem_nil, or_false, not_or] at hfirst
            exact ⟨Nat.succ_pos _, first, rest, rfl, hfirst.2.1, hfirst.1⟩
          · cases h

theorem Lexeme.textAt_ne_quote {chars : List Char} {delimiter : Delimiter} {length : Nat} :
    textAt chars ≠ (.quote delimiter, length) := by
  intro h
  unfold textAt at h
  split at h
  · cases h
  · split at h
    · cases h
    · dsimp only at h
      split at h
      · cases h
      · split at h <;> cases h

theorem Lexeme.textAt_cut {front back : List Char} (hsolid : (textAt (front ++ back)).1.IsSolid)
    (hback : back <:+ (front ++ back).drop (textAt (front ++ back)).2) :
    textAt front = textAt (front ++ back) := by
  cases back with
  | nil => rw [List.append_nil]
  | cons char back =>
      have hle := hback.length_le
      simp only [List.length_drop, List.length_append, List.length_cons] at hle
      cases h : textAt (front ++ char :: back) with
      | mk lexeme length =>
          rw [h] at hsolid hle
          rw [← @List.take_left _ front (char :: back)]
          cases lexeme with
          | quote delimiter => exact absurd h textAt_ne_quote
          | word text => exact textAt_take h (by omega)
          | number => exact textAt_take_number h (by omega)
          | symbol text => exact textAt_take_symbol h (by omega)
          | layout token => cases hsolid
          | finish => cases hsolid
          | unknown => cases hsolid

namespace Cursor

/-- The first cursor stands in a text like the second in the text without its tail; no block is open
around the second. -/
structure Cut (tail : List Char) (cursor cut : Cursor) : Prop where
  rest : cursor.rest = cut.rest ++ tail
  outermost : cut.indents.headD 0 = 0
  room : cursor.extent - cursor.offset ≤ cut.extent - cut.offset

variable {tail : List Char} {cursor cut : Cursor}

theorem Cut.skip (h : cursor.Cut tail cut) {count : Nat}
    (hwithin : tail <:+ (cursor.skip count).rest) :
    (cursor.skip count).Cut tail (cut.skip count) := by
  rw [rest_skip, h.rest] at hwithin
  have hroom := h.room
  cases tail with
  | nil =>
      have hrest : cursor.rest = cut.rest := by simpa using h.rest
      refine ⟨by simp [rest_skip, hrest], h.outermost, ?_⟩
      show cursor.extent - (cursor.skip count).offset ≤ cut.extent - (cut.skip count).offset
      rw [offset_skip, offset_skip, hrest]
      omega
  | cons char tail =>
      have hle := hwithin.length_le
      simp only [List.length_drop, List.length_append, List.length_cons] at hle
      refine ⟨?_, h.outermost, ?_⟩
      · rw [rest_skip, rest_skip, h.rest, List.drop_append_of_le_length (by omega)]
      · show cursor.extent - (cursor.skip count).offset ≤ cut.extent - (cut.skip count).offset
        rw [offset_skip, offset_skip, h.rest, List.length_append, List.length_cons]
        omega

/-- The quote that may be used next: what is passed over, how it opens, and its length. -/
def quoteAhead? (expected : Expectation) (cursor : Cursor) : Option (Nat × Delimiter × Nat) :=
  (Layout.survey expected cursor).bind fun survey =>
    if expected.quote && survey.comment.isNone then
      (Lexeme.quoteAt survey.rest).map fun (delimiter, length) => (survey.passed, delimiter, length)
    else none

/-- The point behind the blanks. -/
def behindBlanks (cursor : Cursor) : Cursor := cursor.skip (Lexeme.blanks cursor.rest)

theorem aheadFuel_succ (expected : Expectation) (rounds : Nat) (cursor : Cursor) :
    aheadFuel expected (rounds + 1) cursor =
      match (Layout.survey expected cursor).bind (·.token? expected cursor) with
      | some token => ⟨.layout token, cursor, token.apply cursor⟩
      | none =>
          match cursor.quoteAhead? expected with
          | some (passed, delimiter, length) =>
              ⟨.quote delimiter, cursor.skip passed,
                { (cursor.skip passed).skip length with inFormat := delimiter.format }⟩
          | none =>
              if Lexeme.gapLength cursor.behindBlanks.rest = 0 then
                ⟨(Lexeme.textAt cursor.behindBlanks.rest).1, cursor.behindBlanks,
                  cursor.behindBlanks.skip (Lexeme.textAt cursor.behindBlanks.rest).2⟩
              else
                aheadFuel expected rounds
                  (cursor.behindBlanks.skip (Lexeme.gapLength cursor.behindBlanks.rest)) := rfl

/-- What is solid is a quote, or a text behind blanks, or behind a comment or a joined line. -/
theorem aheadFuel_cases {expected : Expectation} {rounds : Nat}
    (h : (aheadFuel expected (rounds + 1) cursor).lexeme.IsSolid) :
    (∃ passed delimiter length, cursor.quoteAhead? expected = some (passed, delimiter, length) ∧
      aheadFuel expected (rounds + 1) cursor = ⟨.quote delimiter, cursor.skip passed,
        { (cursor.skip passed).skip length with inFormat := delimiter.format }⟩) ∨
    cursor.quoteAhead? expected = none ∧
      (Lexeme.gapLength cursor.behindBlanks.rest = 0 ∧
        aheadFuel expected (rounds + 1) cursor =
          ⟨(Lexeme.textAt cursor.behindBlanks.rest).1, cursor.behindBlanks,
            cursor.behindBlanks.skip (Lexeme.textAt cursor.behindBlanks.rest).2⟩ ∨
      Lexeme.gapLength cursor.behindBlanks.rest ≠ 0 ∧
        aheadFuel expected (rounds + 1) cursor = aheadFuel expected rounds
          (cursor.behindBlanks.skip (Lexeme.gapLength cursor.behindBlanks.rest))) := by
  cases htoken : (Layout.survey expected cursor).bind (·.token? expected cursor) with
  | some token =>
      rw [aheadFuel_succ, htoken] at h
      cases h
  | none =>
      rw [aheadFuel_succ, htoken]
      cases hahead : cursor.quoteAhead? expected with
      | some quoted =>
          obtain ⟨passed, delimiter, length⟩ := quoted
          exact .inl ⟨passed, delimiter, length, rfl, rfl⟩
      | none =>
          by_cases hgap : Lexeme.gapLength cursor.behindBlanks.rest = 0
          · exact .inr ⟨rfl, .inl ⟨hgap, if_pos hgap⟩⟩
          · exact .inr ⟨rfl, .inr ⟨hgap, if_neg hgap⟩⟩

theorem exists_of_quoteAhead? {expected : Expectation} {passed length : Nat}
    {delimiter : Delimiter}
    (h : cursor.quoteAhead? expected = some (passed, delimiter, length)) :
    expected.quote = true ∧ ∃ front char rest, Layout.AreBlanks front ∧
      cursor.rest = front ++ char :: rest ∧ passed = front.length ∧
      (char ∉ Layout.blanks ∧ char ≠ '\\') ∧
      Lexeme.quoteAt (char :: rest) = some (delimiter, length) := by
  obtain ⟨survey, hsurvey, h⟩ := Option.bind_eq_some_iff.1 h
  split at h
  · rename_i hquote
    obtain ⟨hquote, hcomment⟩ := Bool.and_eq_true_iff.1 hquote
    obtain ⟨⟨opened, size⟩, hopened, he⟩ := Option.map_eq_some_iff.1 h
    cases he
    cases hrest : survey.rest with
    | nil =>
        rw [hrest] at hopened
        cases hopened
    | cons char rest =>
        obtain ⟨front, hfront, he, hpassed, hstop⟩ := Layout.exists_areBlanks_of_surveyFrom hsurvey
          rfl (by simpa using hcomment) (by simp [hrest])
        rw [hrest] at he hstop hopened
        exact ⟨hquote, front, char, rest, hfront, he, by simpa using hpassed, hstop char rfl,
          hopened⟩
  · cases h

theorem quoteAhead?_of_areBlanks {expected : Expectation} (hquote : expected.quote = true)
    {front rest : List Char} {char : Char} (hfront : Layout.AreBlanks front)
    (hrest : cursor.rest = front ++ char :: rest)
    (hstop : char ∉ Layout.blanks ∧ char ≠ '\\') {delimiter : Delimiter} {length : Nat}
    (h : Lexeme.quoteAt (char :: rest) = some (delimiter, length)) :
    cursor.quoteAhead? expected = some (front.length, delimiter, length) := by
  have hcomment : char ≠ '#' := by
    rintro rfl
    cases h
  obtain ⟨survey, hsurvey, hr, hpassed, hnone⟩ := Layout.exists_surveyFrom_of_areBlanks hfront hstop
    hcomment (expected.newline || expected.indent || expected.dedent) false 0 0
  rw [← hrest] at hsurvey
  unfold quoteAhead? Layout.survey
  rw [hsurvey, Option.bind_some, hquote, hnone, hr, h, hpassed, Nat.zero_add]
  rfl

section Ahead

variable {expected plain : Expectation} (hquote : plain.quote = expected.quote)

include hquote

theorem Cut.quoteAhead? (h : cursor.Cut tail cut) {passed length : Nat} {delimiter : Delimiter}
    (hahead : cursor.quoteAhead? expected = some (passed, delimiter, length))
    (hwithin : tail <:+ ((cursor.skip passed).skip length).rest) :
    cut.quoteAhead? plain = some (passed, delimiter, length) := by
  obtain ⟨hopens, front, char, rest, hfront, hrest, rfl, hstop, hread⟩ :=
    exists_of_quoteAhead? hahead
  rw [← hquote] at hopens
  cases tail with
  | nil =>
      have hcut : cut.rest = front ++ char :: rest := by rw [← hrest, h.rest, List.append_nil]
      exact quoteAhead?_of_areBlanks hopens hfront hcut hstop hread
  | cons next tail =>
      have hle := hwithin.length_le
      have hwhole := congrArg List.length hrest
      have hlt := Lexeme.lt_of_quoteFrom hread
      rw [skip_skip, rest_skip, h.rest] at hle
      rw [h.rest] at hrest hwhole
      simp only [List.length_drop, List.length_append, List.length_cons] at hle hwhole
      obtain ⟨inner, hcut⟩ : front <+: cut.rest :=
        List.prefix_of_prefix_length_le ⟨_, hrest.symm⟩ (List.prefix_append ..) (by omega)
      rw [← hcut, List.append_assoc, List.append_cancel_left_eq] at hrest
      rw [← hcut, List.length_append] at hle hwhole
      obtain ⟨others, rfl⟩ : ∃ others, inner = char :: others := by
        cases inner with
        | nil =>
            rw [List.length_nil] at hle
            omega
        | cons first others =>
            cases hrest
            exact ⟨others, rfl⟩
      rw [List.length_cons] at hle
      have hread' : Lexeme.quoteAt (char :: others) = some (delimiter, length) := by
        rw [Lexeme.quoteAt, ← hrest] at hread
        exact Lexeme.quoteFrom_cut hread (by rw [List.length_cons]; omega)
      exact quoteAhead?_of_areBlanks hopens hfront hcut.symm hstop hread'

theorem Cut.quoteAhead?_eq_none (h : cursor.Cut tail cut)
    (hnone : cursor.quoteAhead? expected = none) : cut.quoteAhead? plain = none := by
  rw [Option.eq_none_iff_forall_not_mem]
  rintro ⟨passed, delimiter, length⟩ hm
  obtain ⟨hopens, front, char, rest, hfront, hrest, rfl, hstop, hread⟩ :=
    exists_of_quoteAhead? hm
  have hlonger := Lexeme.quoteFrom_append hread tail
  obtain ⟨⟨opened, size⟩, hopened⟩ := Option.isSome_iff_exists.1 hlonger
  have hwhole : cursor.rest = front ++ char :: (rest ++ tail) := by
    rw [h.rest, hrest, List.append_assoc, List.cons_append]
  have hsome := quoteAhead?_of_areBlanks (hquote ▸ hopens) hfront hwhole hstop hopened
  rw [hnone] at hsome
  cases hsome

end Ahead

theorem lt_of_aheadFuel {expected : Expectation} {rounds : Nat}
    (h : (aheadFuel expected rounds cursor).lexeme.IsSolid) :
    (aheadFuel expected rounds cursor).stop.rest.length < cursor.rest.length := by
  induction rounds generalizing cursor with
  | zero => cases h
  | succ rounds ih =>
      rcases aheadFuel_cases h with ⟨passed, delimiter, length, hahead, he⟩ |
        ⟨-, ⟨-, he⟩ | ⟨-, he⟩⟩
      · rw [he]
        obtain ⟨-, front, char, rest, -, hrest, rfl, -, hread⟩ := exists_of_quoteAhead? hahead
        have hlt := Lexeme.lt_of_quoteFrom hread
        show ((cursor.skip front.length).skip length).rest.length < _
        rw [skip_skip, rest_skip, hrest, List.length_drop, List.length_append, List.length_cons]
        omega
      · rw [he] at h ⊢
        obtain ⟨hlength, char, rest, hstart, -⟩ := Lexeme.head_of_textAt h
        have hlong := congrArg List.length hstart
        rw [behindBlanks, rest_skip, List.length_drop, List.length_cons] at hlong
        dsimp only
        rw [rest_skip, List.length_drop, behindBlanks, rest_skip, List.length_drop]
        rw [behindBlanks, rest_skip] at hlength
        omega
      · rw [he] at h ⊢
        have hlt := ih h
        rw [rest_skip, List.length_drop] at hlt
        refine Nat.lt_of_lt_of_le hlt (Nat.le_trans (Nat.sub_le ..) ?_)
        rw [behindBlanks, rest_skip, List.length_drop]
        exact Nat.sub_le ..

theorem Cut.behindBlanks (h : cursor.Cut tail cut) (hwithin : tail <:+ cursor.behindBlanks.rest) :
    cursor.behindBlanks.Cut tail cut.behindBlanks := by
  have hblanks : Lexeme.blanks cut.rest = Lexeme.blanks cursor.rest := by
    cases tail with
    | nil => rw [h.rest, List.append_nil]
    | cons next tail =>
        have hle := hwithin.length_le
        rw [Cursor.behindBlanks, rest_skip, List.length_drop, h.rest, List.length_append] at hle
        have hcut := @Lexeme.blanks_take cursor.rest cut.rest.length (by
          rw [List.length_cons] at hle
          rw [h.rest]
          omega)
        rwa [h.rest, List.take_left, ← h.rest] at hcut
  unfold Cursor.behindBlanks
  rw [hblanks]
  exact h.skip hwithin

theorem token?_eq_none_of_isPlain {plain : Expectation} (hplain : plain.IsPlain)
    (houtermost : cut.indents.headD 0 = 0) :
    (Layout.survey plain cut).bind (·.token? plain cut) = none := by
  cases Layout.survey plain cut with
  | none => rfl
  | some survey =>
      show survey.token? plain cut = none
      unfold Layout.Survey.token?
      simp only [houtermost, hplain.newline, hplain.indent]
      split <;> simp

end Cursor

/-- What is ahead in a text is ahead in the text without its tail. -/
structure Ahead.Cut (tail : List Char) (ahead cut : Ahead) : Prop where
  lexeme : cut.lexeme = ahead.lexeme
  start : ahead.start.Cut tail cut.start
  stop : ahead.stop.Cut tail cut.stop

namespace Cursor

variable {tail : List Char} {cursor cut : Cursor} {expected plain : Expectation}

theorem suffix_of_reaches {first second : Cursor} (h : first.Reaches second) :
    second.rest <:+ first.rest := by
  obtain ⟨count, h⟩ := h
  have hrest := Place.rest_skip count first.toPlace
  rw [← h] at hrest
  rw [hrest]
  exact List.drop_suffix ..

theorem offset_add_length {first second : Cursor} (h : first.Reaches second) :
    second.offset + second.rest.length = first.offset + first.rest.length := by
  obtain ⟨count, h⟩ := h
  have hrest := Place.rest_skip count first.toPlace
  have hoffset := Place.offset_skip count first.toPlace
  rw [← h] at hrest hoffset
  rw [hrest, hoffset, List.length_drop]
  omega

theorem place_of_offset {first second third : Cursor} (h : first.Reaches second)
    (hother : first.Reaches third) (he : second.offset = third.offset) :
    second.toPlace = third.toPlace := by
  have honward {place : Place} {count : Nat} (he : (place.skip count).offset = place.offset) :
      place.skip count = place := by
    rw [Place.offset_skip] at he
    rcases Nat.eq_zero_or_pos count with rfl | hpos
    · rfl
    · exact Place.skip_nil count (List.length_eq_zero_iff.1 (by omega))
  obtain ⟨count, h⟩ := h
  obtain ⟨more, hother⟩ := hother
  rcases Nat.le_total count more with hle | hle
  · obtain ⟨onward, rfl⟩ := Nat.exists_eq_add_of_le hle
    rw [← Place.skip_skip, ← h] at hother
    rw [hother, honward (by rw [← hother, he])]
  · obtain ⟨onward, rfl⟩ := Nat.exists_eq_add_of_le hle
    rw [← Place.skip_skip, ← hother] at h
    rw [h, honward (by rw [← h, he])]

/-- Two points are as far apart in the cut text as in the whole one. -/
theorem Cut.offset_add_offset {cursor cut start stop cutStart cutStop : Cursor}
    (hstart : start.Cut tail cutStart) (hstop : stop.Cut tail cutStop)
    (hreaches : cursor.Reaches start) (hbehind : cursor.Reaches stop)
    (hcutReaches : cut.Reaches cutStart) (hcutBehind : cut.Reaches cutStop) :
    start.offset + cutStop.offset = stop.offset + cutStart.offset := by
  have hlength := offset_add_length hreaches
  have hlengthBehind := offset_add_length hbehind
  have hcutLength := offset_add_length hcutReaches
  have hcutLengthBehind := offset_add_length hcutBehind
  rw [hstart.rest, List.length_append] at hlength
  rw [hstop.rest, List.length_append] at hlengthBehind
  omega

/-- What is written between two points is the same in the cut text. -/
theorem Cut.textTo {cursor cut start stop cutStart cutStop : Cursor}
    (hstart : start.Cut tail cutStart) (hstop : stop.Cut tail cutStop)
    (hreaches : cursor.Reaches start) (hbehind : cursor.Reaches stop)
    (hcutReaches : cut.Reaches cutStart) (hcutBehind : cut.Reaches cutStop) :
    cutStart.textTo cutStop.offset = start.textTo stop.offset := by
  have hapart := hstart.offset_add_offset hstop hreaches hbehind hcutReaches hcutBehind
  have hlength := offset_add_length hcutReaches
  have hlengthBehind := offset_add_length hcutBehind
  have hdistance : stop.offset - start.offset = cutStop.offset - cutStart.offset := by omega
  unfold Cursor.textTo
  rw [hdistance, hstart.rest, List.take_append_of_le_length (by omega)]

theorem Cut.aheadFuel (hquote : plain.quote = expected.quote) (hplain : plain.IsPlain)
    {rounds more : Nat} (hle : rounds ≤ more) (h : cursor.Cut tail cut)
    (hsolid : (aheadFuel expected rounds cursor).lexeme.IsSolid)
    (hwithin : tail <:+ (aheadFuel expected rounds cursor).stop.rest) :
    (aheadFuel expected rounds cursor).Cut tail (aheadFuel plain more cut) := by
  induction rounds generalizing more cursor cut with
  | zero => cases hsolid
  | succ rounds ih =>
      obtain ⟨more, rfl⟩ := Nat.exists_eq_add_of_le' (Nat.le_trans (Nat.le_add_left 1 _) hle)
      have hnone := token?_eq_none_of_isPlain hplain h.outermost
      have hstart := hwithin.trans (suffix_of_reaches
        (reaches_aheadFuel expected (rounds + 1) cursor).2)
      rw [aheadFuel_succ plain, hnone]
      rcases aheadFuel_cases hsolid with ⟨passed, delimiter, length, hahead, he⟩ |
        ⟨hahead, ⟨hgap, he⟩ | ⟨hgap, he⟩⟩
      · rw [he] at hwithin hstart ⊢
        rw [h.quoteAhead? hquote hahead hwithin]
        have hstop := (h.skip hstart).skip hwithin
        exact ⟨rfl, h.skip hstart, ⟨hstop.rest, hstop.outermost, hstop.room⟩⟩
      · rw [he] at hsolid hwithin hstart ⊢
        rw [h.quoteAhead?_eq_none hquote hahead]
        have hblanks := h.behindBlanks hstart
        have htext : Lexeme.textAt cut.behindBlanks.rest =
            Lexeme.textAt cursor.behindBlanks.rest := by
          rw [hblanks.rest] at hsolid ⊢
          refine Lexeme.textAt_cut hsolid ?_
          rwa [← hblanks.rest, ← rest_skip]
        obtain ⟨-, char, rest, hrest, hcomment, hjoin⟩ :=
          @Lexeme.head_of_textAt cut.behindBlanks.rest (by rw [htext]; exact hsolid)
        have hcut : Lexeme.gapLength cut.behindBlanks.rest = 0 := by
          rw [hrest]
          exact Lexeme.gapLength_cons hcomment hjoin rest
        dsimp only
        rw [if_pos hcut, htext]
        exact ⟨rfl, hblanks, hblanks.skip hwithin⟩
      · have hlt := lt_of_aheadFuel (he ▸ hsolid)
        rw [he] at hsolid hwithin hstart ⊢
        rw [h.quoteAhead?_eq_none hquote hahead]
        have hgapWithin := hwithin.trans (suffix_of_reaches
          ((reaches_aheadFuel expected rounds _).1.trans (reaches_aheadFuel expected rounds _).2))
        have hblanks := h.behindBlanks (hgapWithin.trans (suffix_of_reaches (reaches_skip _ _)))
        have hcut : Lexeme.gapLength cut.behindBlanks.rest =
            Lexeme.gapLength cursor.behindBlanks.rest := by
          have hshort := Nat.lt_of_le_of_lt hwithin.length_le hlt
          rw [rest_skip, List.length_drop, hblanks.rest, List.length_append] at hshort
          have htake := @Lexeme.gapLength_take _ cut.behindBlanks.rest.length hgap (by
            rw [hblanks.rest]
            omega)
          rwa [hblanks.rest, List.take_left, ← hblanks.rest] at htake
        dsimp only
        rw [if_neg (hcut ▸ hgap), hcut]
        exact ih (Nat.le_of_succ_le_succ hle) (hblanks.skip hgapWithin) hsolid hwithin

end Cursor

end CodeAtlas.Syntax
