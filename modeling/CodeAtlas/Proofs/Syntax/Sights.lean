import CodeAtlas.Proofs.Syntax.Cuts

/-!
# Lexemes in sight of a cut

A lexeme is seen from a place in a text if it stands there before the text is cut off. What is seen
does not change when more is expected of what is ahead, as long as no quote is found, and it is seen
from where it starts as well.
-/

namespace CodeAtlas.Syntax

open Text.Identifier (isStart isContinue)

/-- The wider expectation has the same layout tokens and leaves more room for what is solid. -/
structure Expectation.Widens (wide narrow : Expectation) : Prop where
  newline : wide.newline = narrow.newline
  indent : wide.indent = narrow.indent
  dedent : wide.dedent = narrow.dedent
  quote : narrow.quote = true → wide.quote = true
  closer : narrow.closer = true → wide.closer = true

/-! ## Quotes behind letters -/

namespace Lexeme

def quoteLetters : List Char := ['f', 'F', 't', 'T', 'r', 'R', 'b', 'B', 'u', 'U']

def quotes : List Char := ['"', '\'', '`']

theorem exists_of_quoteFrom {delimiter opened : Delimiter} {passed length : Nat}
    {chars : List Char} (h : quoteFrom delimiter passed chars = some (opened, length)) :
    ∃ letters quote rest, chars = letters ++ quote :: rest ∧
      (∀ letter ∈ letters, letter ∈ quoteLetters) ∧ quote ∈ quotes := by
  have hletter {char : Char} {rest : List Char} (hchar : char ∈ quoteLetters)
      (h : ∃ letters quote more, rest = letters ++ quote :: more ∧
        (∀ letter ∈ letters, letter ∈ quoteLetters) ∧ quote ∈ quotes) :
      ∃ letters quote more, char :: rest = letters ++ quote :: more ∧
        (∀ letter ∈ letters, letter ∈ quoteLetters) ∧ quote ∈ quotes := by
    obtain ⟨letters, quote, more, rfl, hletters, hquote⟩ := h
    exact ⟨char :: letters, quote, more, rfl, by simpa using ⟨hchar, hletters⟩, hquote⟩
  fun_induction quoteFrom delimiter passed chars with
  | case1 => cases h
  | case2 _ _ _ _ hchar ih | case3 _ _ _ _ _ hchar ih | case4 _ _ _ _ _ _ hchar ih
  | case5 _ _ _ _ _ _ _ hchar ih =>
      refine hletter ?_ (ih h)
      simp only [List.mem_cons, List.not_mem_nil, or_false] at hchar
      rcases hchar with rfl | rfl | rfl | rfl <;> decide
  | case6 => exact ⟨[], _, _, rfl, by simp, by decide⟩
  | case7 _ _ _ _ _ _ _ _ _ hchar | case8 _ _ _ _ _ _ _ _ _ hchar =>
      refine ⟨[], _, _, rfl, by simp, ?_⟩
      simp only [Bool.or_eq_true, decide_eq_true_eq] at hchar
      rcases hchar with rfl | rfl <;> decide
  | case9 => cases h

theorem textAt_of_mem_quotes {quote : Char} (h : quote ∈ quotes) (rest : List Char) :
    textAt (quote :: rest) = (.unknown, 0) := by
  have hall : quotes.all fun char => !isStart char && !char.isDigit && char ≠ '.' := by decide
  have hstart : isStart quote = false ∧ quote.isDigit = false ∧ quote ≠ '.' := by
    simpa [and_assoc] using List.all_eq_true.1 hall quote h
  have hnumber : numberLength (quote :: rest) = 0 :=
    numberLength_eq_zero_iff.2 ⟨hstart.2.1, fun he => absurd he hstart.2.2⟩
  have hsymbol : symbolAt (quote :: rest) = none := by
    rw [Option.eq_none_iff_forall_not_mem]
    rintro ⟨sign, text⟩ hm
    obtain ⟨first, others, hsign, hfirst⟩ := symbolTable_head _ (List.mem_of_find?_eq_some hm)
    have hprefix := prefix_of_symbolAt hm
    dsimp only at hsign
    rw [hsign] at hprefix
    obtain ⟨rfl, -⟩ := List.cons_prefix_cons.1 hprefix
    exact hfirst (List.mem_cons_of_mem _ (List.mem_cons_of_mem _ h))
  rw [textAt, if_neg (by simp [hstart.1])]
  dsimp only
  rw [hnumber, hsymbol]
  rfl

theorem textAt_of_quoteLetters {letters : List Char} {letter quote : Char}
    (hletter : letter ∈ quoteLetters) (hletters : ∀ char ∈ letters, char ∈ quoteLetters)
    (hquote : quote ∈ quotes) (rest : List Char) :
    textAt (letter :: letters ++ quote :: rest) =
      (.word (String.ofList (letter :: letters)), letters.length + 1) := by
  have hstart : ∀ char ∈ quoteLetters, isStart char = true := List.all_eq_true.1 (by decide)
  have hcontinue : ∀ char ∈ quoteLetters, isContinue char = true :=
    List.all_eq_true.1 (by decide)
  have hall : quotes.all fun char => !isContinue char := by decide
  have hstop : isContinue quote = false := by
    simpa using List.all_eq_true.1 hall quote hquote
  rw [List.cons_append, textAt_of_isStart (hstart letter hletter), List.takeWhile_append_of_pos
    (fun char hm => hcontinue char (hletters char hm)),
    List.takeWhile_cons_of_neg (by simp [hstop]), List.append_nil]

end Lexeme

namespace Cursor

/-- The text is not cut off before this point. -/
def Precedes (tail : List Char) (cursor : Cursor) : Prop := tail <:+ cursor.rest

/-- A lexeme comes next, and the text is not cut off before its end. -/
structure Sees (tail : List Char) (expected : Expectation) (cursor : Cursor) : Prop where
  solid : (cursor.ahead expected).lexeme.IsSolid
  within : (cursor.ahead expected).stop.Precedes tail

variable {tail : List Char} {cursor cut : Cursor} {expected plain wide : Expectation}

theorem Sees.lt (h : cursor.Sees tail expected) : tail.length < cursor.rest.length :=
  Nat.lt_of_le_of_lt h.within.length_le (lt_of_aheadFuel h.solid)

theorem Sees.precedes (h : cursor.Sees tail expected) : cursor.Precedes tail :=
  h.within.trans (suffix_of_reaches
    ((cursor.reaches_start expected).trans (cursor.start_reaches_stop expected)))

theorem Cut.ahead (h : cursor.Cut tail cut) (hquote : plain.quote = expected.quote)
    (hplain : plain.IsPlain) (hsees : cursor.Sees tail expected) :
    (cursor.ahead expected).Cut tail (cut.ahead plain) := by
  have hroom := h.room
  exact h.aheadFuel hquote hplain (by unfold fuel; omega) hsees.solid hsees.within

/-! ## Symbols -/

/-- Behind blanks and joined lines, what is read as a text starts where a quote does. -/
theorem behindBlanks_of_areBlanks {front rest : List Char} {char : Char}
    (hfront : Layout.AreBlanks front) (hspace : Lexeme.isSpace char = false)
    (hrest : cursor.rest = front ++ char :: rest) :
    cursor.behindBlanks.rest = char :: rest ∨
      Lexeme.gapLength cursor.behindBlanks.rest ≠ 0 ∧ ∃ more, Layout.AreBlanks more ∧
        cursor.behindBlanks.rest.drop (Lexeme.gapLength cursor.behindBlanks.rest) =
          more ++ char :: rest := by
  rw [behindBlanks, Cursor.rest_skip, hrest]
  clear hrest
  induction hfront with
  | nil =>
      refine .inl ?_
      rw [List.nil_append, Lexeme.blanks, List.takeWhile_cons_of_neg (by simp [hspace])]
      rfl
  | @blank blank front hblank _ ih =>
      have hall : ∀ char ∈ Layout.blanks, Lexeme.isSpace char = true :=
        List.all_eq_true.1 (by decide)
      rw [List.cons_append, Lexeme.blanks, List.takeWhile_cons_of_pos (hall blank hblank),
        List.length_cons, List.drop_succ_cons]
      exact ih
  | @joined front hfront =>
      refine .inr ?_
      rw [List.cons_append, Lexeme.blanks, List.takeWhile_cons_of_neg (by decide)]
      exact ⟨by simp [Lexeme.gapLength], front, hfront, rfl⟩
  | @joinedReturn front hfront =>
      refine .inr ?_
      rw [List.cons_append, Lexeme.blanks, List.takeWhile_cons_of_neg (by decide)]
      exact ⟨by simp [Lexeme.gapLength], front, hfront, rfl⟩

theorem textAt_of_quoteAt {delimiter : Delimiter} {length : Nat} {chars : List Char}
    (h : Lexeme.quoteAt chars = some (delimiter, length)) :
    (∃ text, (Lexeme.textAt chars).1 = .word text) ∨ (Lexeme.textAt chars).1 = .unknown := by
  obtain ⟨letters, quote, rest, rfl, hletters, hquote⟩ := Lexeme.exists_of_quoteFrom h
  cases letters with
  | nil =>
      rw [List.nil_append, Lexeme.textAt_of_mem_quotes hquote]
      exact .inr rfl
  | cons letter letters =>
      rw [Lexeme.textAt_of_quoteLetters (hletters letter List.mem_cons_self)
        (fun char hm => hletters char (List.mem_cons_of_mem _ hm)) hquote]
      exact .inl ⟨_, rfl⟩

/-- A symbol is no quote, also where a quote is expected. -/
theorem aheadFuel_symbol {rounds : Nat} {text : String}
    (h : (aheadFuel expected rounds cursor).lexeme = .symbol text) {front rest : List Char}
    {char : Char} (hfront : Layout.AreBlanks front)
    (hrest : cursor.rest = front ++ char :: rest) {delimiter : Delimiter} {length : Nat} :
    Lexeme.quoteAt (char :: rest) ≠ some (delimiter, length) := by
  intro hquote
  have hspace : Lexeme.isSpace char = false := by
    obtain ⟨letters, quote, more, hletters, hall, hmem⟩ := Lexeme.exists_of_quoteFrom hquote
    have hplain : (Lexeme.quotes ++ Lexeme.quoteLetters).all fun char =>
        !Lexeme.isSpace char := by decide
    have hquotes : ∀ char ∈ Lexeme.quotes ++ Lexeme.quoteLetters,
        Lexeme.isSpace char = false := by
      simpa using List.all_eq_true.1 hplain
    cases letters with
    | nil =>
        cases hletters
        exact hquotes char (List.mem_append_left _ hmem)
    | cons letter letters =>
        cases hletters
        exact hquotes char (List.mem_append_right _ (hall char List.mem_cons_self))
  induction rounds generalizing cursor front with
  | zero => cases h
  | succ rounds ih =>
      rcases aheadFuel_cases (by rw [h]; trivial) with ⟨_, _, _, -, he⟩ |
        ⟨-, ⟨hgap, he⟩ | ⟨hgap, he⟩⟩
      · rw [he] at h
        cases h
      · rw [he] at h
        rcases behindBlanks_of_areBlanks hfront hspace hrest with hbehind | ⟨hjoined, -⟩
        · dsimp only at h
          rw [hbehind] at h
          rcases textAt_of_quoteAt hquote with ⟨word, hword⟩ | hunknown
          · rw [hword] at h
            cases h
          · rw [hunknown] at h
            cases h
        · exact hjoined hgap
      · rw [he] at h
        rcases behindBlanks_of_areBlanks hfront hspace hrest with hbehind | ⟨-, more, hmore, hdrop⟩
        · rw [hbehind, Lexeme.gapLength_cons] at hgap
          · exact hgap rfl
          · rintro rfl
            cases hquote
          · rintro rfl
            cases hquote
        · exact ih h hmore (by rw [Cursor.rest_skip, hdrop])

/-! ## Wider expectations -/

theorem token?_of_widens (h : wide.Widens expected) {survey : Layout.Survey}
    (hnone : survey.token? expected cursor = none) : survey.token? wide cursor = none := by
  obtain ⟨hnewline, hindent, hdedent, hquote, hcloser⟩ := h
  unfold Layout.Survey.token? at hnone ⊢
  rw [hnewline, hindent, hdedent]
  generalize (survey.comment.any fun width => decide (cursor.indents.headD 0 ≤ width)) =
    commentInside at hnone ⊢
  grind

theorem survey_of_widens (h : wide.Widens expected) :
    Layout.survey wide cursor = Layout.survey expected cursor := by
  rw [Layout.survey, Layout.survey, h.newline, h.indent, h.dedent]

theorem quoteAhead?_of_widens (h : wide.Widens expected)
    (hahead : cursor.quoteAhead? wide = none ∨ wide.quote = expected.quote) :
    cursor.quoteAhead? wide = cursor.quoteAhead? expected := by
  rcases hahead with hnone | hquote
  · rw [hnone, eq_comm, Option.eq_none_iff_forall_not_mem]
    rintro ⟨passed, delimiter, length⟩ hm
    obtain ⟨hopens, front, char, rest, hfront, hrest, rfl, hstop, hread⟩ :=
      exists_of_quoteAhead? hm
    have hsome := quoteAhead?_of_areBlanks (h.quote hopens) hfront hrest hstop hread
    rw [hnone] at hsome
    cases hsome
  · rw [Cursor.quoteAhead?, Cursor.quoteAhead?, survey_of_widens h, hquote]

theorem aheadFuel_of_widens (h : wide.Widens expected) {rounds : Nat}
    (hsolid : (aheadFuel expected rounds cursor).lexeme.IsSolid)
    (hquote : (∀ delimiter, (aheadFuel wide rounds cursor).lexeme ≠ .quote delimiter) ∨
      (∃ text, (aheadFuel expected rounds cursor).lexeme = .symbol text) ∨
      wide.quote = expected.quote) :
    aheadFuel wide rounds cursor = aheadFuel expected rounds cursor := by
  induction rounds generalizing cursor with
  | zero => rfl
  | succ rounds ih =>
      have hnone : (Layout.survey wide cursor).bind (·.token? wide cursor) = none := by
        rw [survey_of_widens h]
        cases hsurvey : Layout.survey expected cursor with
        | none => rfl
        | some survey =>
            refine token?_of_widens h ?_
            rw [aheadFuel_succ, hsurvey] at hsolid
            cases htoken : survey.token? expected cursor with
            | none => rfl
            | some token =>
                rw [Option.bind_some, htoken] at hsolid
                cases hsolid
      rw [aheadFuel_succ wide, hnone] at hquote ⊢
      have hahead : cursor.quoteAhead? wide = cursor.quoteAhead? expected := by
        rcases hquote with hne | ⟨text, hsymbol⟩ | hquote
        · refine quoteAhead?_of_widens h (.inl ?_)
          cases hwide : cursor.quoteAhead? wide with
          | none => rfl
          | some quoted =>
              rw [hwide] at hne
              exact absurd rfl (hne quoted.2.1)
        · refine quoteAhead?_of_widens h (.inl ?_)
          rw [Option.eq_none_iff_forall_not_mem]
          rintro ⟨passed, delimiter, length⟩ hm
          obtain ⟨-, front, char, rest, hfront, hrest, -, -, hread⟩ := exists_of_quoteAhead? hm
          exact aheadFuel_symbol hsymbol hfront hrest hread
        · exact quoteAhead?_of_widens h (.inr hquote)
      rcases aheadFuel_cases hsolid with ⟨passed, delimiter, length, hfound, he⟩ |
        ⟨hfound, ⟨hgap, he⟩ | ⟨hgap, he⟩⟩
      · rw [hahead, hfound, he]
      · rw [hahead, hfound, he]
        exact if_pos hgap
      · rw [hahead, hfound, he] at hquote
        rw [hahead, hfound]
        rw [he] at hsolid ⊢
        dsimp only at hquote ⊢
        rw [if_neg hgap] at hquote ⊢
        exact ih hsolid hquote

/-- A lexeme that is no quote is seen where a quote is expected, too. -/
theorem Sees.of_widens (h : cursor.Sees tail expected) (hwide : wide.Widens expected)
    (hquote : (∀ delimiter, (cursor.ahead wide).lexeme ≠ .quote delimiter) ∨
      (∃ text, (cursor.ahead expected).lexeme = .symbol text) ∨ wide.quote = expected.quote) :
    cursor.Sees tail wide := by
  have he := aheadFuel_of_widens hwide h.solid hquote
  refine ⟨?_, ?_⟩
  · rw [Cursor.ahead, he]
    exact h.solid
  · rw [Cursor.ahead, he]
    exact h.within

theorem Sees.withQuote (h : cursor.Sees tail expected)
    (hquote : ∀ delimiter,
      (cursor.ahead { expected with quote := true }).lexeme ≠ .quote delimiter) :
    cursor.Sees tail { expected with quote := true } :=
  h.of_widens ⟨rfl, rfl, rfl, fun _ => rfl, id⟩ (.inl hquote)

/-! ## From one place -/

/-- What is solid ahead is known by the text ahead. -/
theorem aheadFuel_congr {other : Cursor} {rounds more : Nat} (h : cursor.toPlace = other.toPlace)
    (hsolid : (aheadFuel expected rounds cursor).lexeme.IsSolid)
    (hother : (aheadFuel expected more other).lexeme.IsSolid) :
    (aheadFuel expected rounds cursor).stop.toPlace =
      (aheadFuel expected more other).stop.toPlace := by
  have hskip {first second : Cursor} (he : first.toPlace = second.toPlace) (count : Nat) :
      (first.skip count).toPlace = (second.skip count).toPlace := by
    show first.toPlace.skip count = second.toPlace.skip count
    rw [he]
  induction rounds generalizing more cursor other with
  | zero => cases hsolid
  | succ rounds ih =>
      cases more with
      | zero => cases hother
      | succ more =>
          have hahead : cursor.quoteAhead? expected = other.quoteAhead? expected := by
            unfold Cursor.quoteAhead? Layout.survey
            rw [h]
          have hbehind : cursor.behindBlanks.toPlace = other.behindBlanks.toPlace := by
            unfold behindBlanks
            rw [h]
            exact hskip h _
          rcases aheadFuel_cases hsolid with ⟨passed, delimiter, length, hfound, he⟩ |
            ⟨hfound, hcases⟩
          · rcases aheadFuel_cases hother with ⟨passed', delimiter', length', hfound', he'⟩ |
              ⟨hfound', -⟩
            · rw [← hahead, hfound] at hfound'
              cases hfound'
              rw [he, he']
              exact hskip (hskip h passed) length
            · rw [← hahead, hfound] at hfound'
              cases hfound'
          · rcases aheadFuel_cases hother with ⟨_, _, _, hfound', -⟩ | ⟨-, hcases'⟩
            · rw [← hahead, hfound] at hfound'
              cases hfound'
            · rw [← hbehind] at hcases'
              rcases hcases with ⟨hgap, he⟩ | ⟨hgap, he⟩
              · rcases hcases' with ⟨-, he'⟩ | ⟨hgap', -⟩
                · rw [he, he']
                  exact hskip hbehind _
                · exact absurd hgap hgap'
              · rcases hcases' with ⟨hgap', -⟩ | ⟨-, he'⟩
                · exact absurd hgap' hgap
                · rw [he] at hsolid ⊢
                  rw [he'] at hother ⊢
                  exact ih (hskip hbehind _) hsolid hother

theorem Sees.of_place {other : Cursor} (h : cursor.Sees tail expected)
    (hplace : other.toPlace = cursor.toPlace)
    (hsolid : (other.ahead expected).lexeme.IsSolid) : other.Sees tail expected := by
  refine ⟨hsolid, ?_⟩
  have hstop := aheadFuel_congr hplace hsolid h.solid
  have hwithin := h.within
  unfold Precedes Cursor.ahead at *
  rwa [hstop]

/-! ## From where a lexeme starts -/

/-- What is ahead, told from where it starts. -/
inductive Starts : Ahead → Prop
  | quote {delimiter : Delimiter} {length : Nat} {char : Char} {rest : List Char} {start : Cursor}
      (hrest : start.rest = char :: rest) (hstop : char ∉ Layout.blanks ∧ char ≠ '\\')
      (hread : Lexeme.quoteAt (char :: rest) = some (delimiter, length)) :
      Starts ⟨.quote delimiter, start, { start.skip length with inFormat := delimiter.format }⟩
  | text {start : Cursor} (hblanks : Lexeme.blanks start.rest = 0) :
      Starts ⟨(Lexeme.textAt start.rest).1, start, start.skip (Lexeme.textAt start.rest).2⟩

theorem starts_aheadFuel {rounds : Nat}
    (hsolid : (aheadFuel expected rounds cursor).lexeme.IsSolid) :
    Starts (aheadFuel expected rounds cursor) := by
  induction rounds generalizing cursor with
  | zero => cases hsolid
  | succ rounds ih =>
      rcases aheadFuel_cases hsolid with ⟨passed, delimiter, length, hahead, he⟩ |
        ⟨-, ⟨-, he⟩ | ⟨-, he⟩⟩
      · obtain ⟨-, front, char, rest, -, hrest, rfl, hstop, hread⟩ := exists_of_quoteAhead? hahead
        rw [he]
        refine .quote ?_ hstop hread
        rw [rest_skip, hrest, List.drop_left]
      · rw [he]
        refine .text ?_
        rw [behindBlanks, rest_skip, Lexeme.blanks_drop]
      · rw [he] at hsolid ⊢
        exact ih hsolid

theorem surveyFrom_start {start : Cursor} {char : Char} {rest : List Char}
    (hrest : start.rest = char :: rest) (hstop : char ∉ Layout.blanks ∧ char ≠ '\\')
    (hcomment : char ≠ '#') :
    (Layout.survey expected start).bind (·.token? expected start) = none := by
  rw [Layout.survey, hrest, Layout.surveyFrom_cons hstop hcomment]
  rfl

theorem quoteAhead?_start {start : Cursor} (hsolid : (Lexeme.textAt start.rest).1.IsSolid)
    (hnext : ∀ text, (Lexeme.textAt start.rest).1 = .word text →
      ∀ char ∈ (start.rest.drop (Lexeme.textAt start.rest).2).head?, char ∉ Lexeme.quotes)
    {char : Char} {rest : List Char}
    (hrest : start.rest = char :: rest) (hstop : char ∉ Layout.blanks ∧ char ≠ '\\') :
    start.quoteAhead? expected = none := by
  rw [Option.eq_none_iff_forall_not_mem]
  rintro ⟨passed, delimiter, length⟩ hm
  obtain ⟨-, front, first, others, hfront, he, rfl, -, hread⟩ := exists_of_quoteAhead? hm
  have hempty : front = [] := by
    rw [hrest] at he
    cases hfront with
    | nil => rfl
    | blank hblank =>
        cases he
        exact absurd hblank hstop.1
    | joined =>
        cases he
        exact absurd rfl hstop.2
    | joinedReturn =>
        cases he
        exact absurd rfl hstop.2
  subst hempty
  obtain ⟨letters, quote, more, hletters, hall, hquote⟩ := Lexeme.exists_of_quoteFrom hread
  rw [he, List.nil_append, hletters] at hsolid hnext
  cases letters with
  | nil =>
      rw [List.nil_append, Lexeme.textAt_of_mem_quotes hquote] at hsolid
      cases hsolid
  | cons letter letters =>
      have hword := Lexeme.textAt_of_quoteLetters (hall letter List.mem_cons_self)
        (fun char hm => hall char (List.mem_cons_of_mem _ hm)) hquote more
      rw [hword] at hnext
      refine hnext _ rfl quote ?_ hquote
      dsimp only
      rw [← List.length_cons, List.drop_left]
      rfl

/-- From where it starts, a lexeme is seen as a first lexeme of an expression, if it is not a word
that a quote would follow. -/
theorem ahead_start (hsolid : (cursor.ahead expected).lexeme.IsSolid)
    (hnext : ∀ text, (cursor.ahead expected).lexeme = .word text →
      ∀ char ∈ (cursor.ahead expected).stop.rest.head?, char ∉ Lexeme.quotes) :
    (cursor.ahead expected).start.ahead { quote := true } = cursor.ahead expected := by
  have hstarts : Starts (cursor.ahead expected) := starts_aheadFuel hsolid
  generalize cursor.ahead expected = ahead at hsolid hnext hstarts
  cases hstarts with
  | @quote delimiter length char rest start hrest hstop hread =>
      have hcomment : char ≠ '#' := by
        rintro rfl
        cases hread
      show aheadFuel _ (_ + 1) start = _
      rw [aheadFuel_succ, surveyFrom_start hrest hstop hcomment,
        quoteAhead?_of_areBlanks rfl .nil hrest hstop hread]
      rfl
  | @text start hblanks =>
      obtain ⟨-, char, rest, hrest, hcomment, hjoin⟩ := Lexeme.head_of_textAt hsolid
      have hspace : Lexeme.isSpace char = false := by
        rw [Lexeme.blanks, hrest, List.length_eq_zero_iff] at hblanks
        rw [Bool.eq_false_iff]
        intro htrue
        rw [List.takeWhile_cons_of_pos htrue] at hblanks
        cases hblanks
      have hstop : char ∉ Layout.blanks ∧ char ≠ '\\' := by
        refine ⟨fun hm => ?_, hjoin⟩
        have hall : ∀ char ∈ Layout.blanks, Lexeme.isSpace char = true :=
          List.all_eq_true.1 (by decide)
        rw [hall char hm] at hspace
        cases hspace
      rw [rest_skip] at hnext
      have hgap : Lexeme.gapLength start.rest = 0 := by
        rw [hrest]
        exact Lexeme.gapLength_cons hcomment hjoin rest
      have hbehind : start.behindBlanks = start := by
        rw [behindBlanks, hblanks]
        rfl
      show aheadFuel _ (_ + 1) start = _
      rw [aheadFuel_succ, surveyFrom_start hrest hstop hcomment,
        quoteAhead?_start hsolid hnext hrest hstop, hbehind]
      exact if_pos hgap

/-- Where a lexeme that is no quote comes next, no quote stands directly ahead. -/
theorem head_not_mem_quotes (h : (cursor.ahead expected).lexeme.IsSolid)
    (hquote : expected.quote = false) : ∀ char ∈ cursor.rest.head?, char ∉ Lexeme.quotes := by
  intro char hm hquoted
  obtain ⟨rest, hrest⟩ : ∃ rest, cursor.rest = char :: rest := by
    cases hcursor : cursor.rest with
    | nil =>
        rw [hcursor] at hm
        cases hm
    | cons first rest =>
        rw [hcursor] at hm
        cases hm
        exact ⟨rest, rfl⟩
  have hall : Lexeme.quotes.all fun char =>
      !Lexeme.isSpace char && char ≠ '#' && char ≠ '\\' := by decide
  have hspace : Lexeme.isSpace char = false ∧ char ≠ '#' ∧ char ≠ '\\' := by
    simpa [and_assoc] using List.all_eq_true.1 hall char hquoted
  have hbehind : cursor.behindBlanks = cursor := by
    rw [behindBlanks, Lexeme.blanks, hrest, List.takeWhile_cons_of_neg (by simp [hspace.1])]
    rfl
  change (aheadFuel expected (_ + 1) cursor).lexeme.IsSolid at h
  rcases aheadFuel_cases h with ⟨passed, delimiter, length, hahead, -⟩ |
    ⟨-, ⟨-, he⟩ | ⟨hgap, -⟩⟩
  · rw [(exists_of_quoteAhead? hahead).1] at hquote
    cases hquote
  · rw [he, hbehind, hrest, Lexeme.textAt_of_mem_quotes hquoted] at h
    cases h
  · rw [hbehind, hrest, Lexeme.gapLength_cons hspace.2.1 hspace.2.2] at hgap
    exact hgap rfl

end Cursor

end CodeAtlas.Syntax
