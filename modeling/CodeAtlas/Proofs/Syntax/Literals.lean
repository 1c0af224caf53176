import CodeAtlas.Proofs.Syntax.Sights
import CodeAtlas.Syntax.Literal

/-!
# Pieces of string literals in cut texts

How far a piece of a string goes may depend on what follows it: a text stops in front of an escape
or of three quotes. So a piece is the same in a cut text if it closes the string, or the next piece
is not cut off either.
-/

namespace CodeAtlas.Syntax.Literal

variable {delimiter : Delimiter} {piece : Piece} {chars : List Char}
  {passed pending length count : Nat} {found : Bool}

/-! ## Scanning -/

/-- The text that has been read where there is any. -/
def begun (found : Bool) (passed : Nat) : Option (Piece × Nat) :=
  if found then some (.text, passed) else none

/-- How many of the two next characters are like the one before them. -/
def quoteRun (char : Char) (rest : List Char) : Nat :=
  ((rest.take 2).takeWhile (· = char)).length

theorem quoteRun_take (char : Char) (rest : List Char) (count : Nat) :
    quoteRun char (rest.take count) = min count (quoteRun char rest) := by
  rw [quoteRun, List.take_take, Nat.min_comm, ← List.take_take, ← List.take_takeWhile,
    List.length_take, quoteRun]

def isBrace (delimiter : Delimiter) (char : Char) : Bool :=
  delimiter.format && (char = '\x7b' || char = '\x7d')

/-- What scanning does at a character that it may stop at. -/
inductive Scans (delimiter : Delimiter) (char : Char) : Prop
  | stop (h : ∀ found passed rest,
      scan delimiter passed 0 found (char :: rest) = begun found passed)
  | raw (h : ∀ found passed rest, scan delimiter passed 0 found (char :: rest) =
      scan delimiter (passed + 1) (rawEscape delimiter.quote rest) found rest)
  | bytes (hchar : char = '\\') (h : ∀ found passed rest,
      scan delimiter passed 0 found (char :: rest) =
        match rest with
        | [] => none
        | next :: _ =>
            if next ∈ ['N', 'u', 'U'] then scan delimiter (passed + 1) 2 true rest
            else begun found passed)
  | quotes (hbrace : ¬ isBrace delimiter char = true) (h : ∀ found passed rest,
      scan delimiter passed 0 found (char :: rest) =
        if quoteRun char rest < 2 then some (.text, passed + 1 + quoteRun char rest)
        else some (if found then (.text, passed) else (.close, passed + 3)))
  | quote (h : ∀ found passed rest, scan delimiter passed 0 found (char :: rest) =
      some (if found then (.text, passed) else (.close, passed + 1)))
  | onward (h : ∀ found passed rest, scan delimiter passed 0 found (char :: rest) =
      if char = '\n' && found && !delimiter.triple then none
      else scan delimiter (passed + 1) 0 true rest)

theorem scan_cons (passed pending : Nat) (found : Bool) (char : Char) (rest : List Char) :
    scan delimiter passed pending found (char :: rest) =
      if pending ≠ 0 then scan delimiter (passed + 1) (pending - 1) found rest
      else if isBrace delimiter char then begun found passed
      else if char = '\\' then
        if delimiter.raw then
          scan delimiter (passed + 1) (rawEscape delimiter.quote rest) found rest
        else if delimiter.bytes then
          match rest with
          | [] => none
          | next :: _ =>
              if next ∈ ['N', 'u', 'U'] then scan delimiter (passed + 1) 2 true rest
              else begun found passed
        else begun found passed
      else if char = delimiter.quote then
        if delimiter.triple then
          if quoteRun char rest < 2 then some (.text, passed + 1 + quoteRun char rest)
          else some (if found then (.text, passed) else (.close, passed + 3))
        else some (if found then (.text, passed) else (.close, passed + 1))
      else if char = '\n' && found && !delimiter.triple then none
      else scan delimiter (passed + 1) 0 true rest := by
  rw [scan.eq_def]
  cases found <;> rfl

theorem scan_pending (passed pending : Nat) (found : Bool) (char : Char) (rest : List Char) :
    scan delimiter passed (pending + 1) found (char :: rest) =
      scan delimiter (passed + 1) pending found rest := by
  rw [scan_cons, if_pos (Nat.succ_ne_zero _), Nat.add_sub_cancel]

theorem scans (delimiter : Delimiter) (char : Char) : Scans delimiter char := by
  by_cases hbrace : isBrace delimiter char = true
  · exact .stop fun _ _ _ => by
      rw [scan_cons, if_neg (by simp), if_pos hbrace]
  by_cases hescape : char = '\\'
  · by_cases hraw : delimiter.raw = true
    · exact .raw fun _ _ _ => by
        rw [scan_cons, if_neg (by simp), if_neg hbrace, if_pos hescape, if_pos hraw]
    by_cases hbytes : delimiter.bytes = true
    · exact .bytes hescape fun _ _ rest => by
        rw [scan_cons, if_neg (by simp), if_neg hbrace, if_pos hescape, if_neg hraw,
          if_pos hbytes]
    · exact .stop fun _ _ _ => by
        rw [scan_cons, if_neg (by simp), if_neg hbrace, if_pos hescape, if_neg hraw,
          if_neg hbytes]
  by_cases hquote : char = delimiter.quote
  · by_cases htriple : delimiter.triple = true
    · exact .quotes hbrace fun _ _ _ => by
        rw [scan_cons, if_neg (by simp), if_neg hbrace, if_neg hescape, if_pos hquote,
          if_pos htriple]
    · exact .quote fun _ _ _ => by
        rw [scan_cons, if_neg (by simp), if_neg hbrace, if_neg hescape, if_pos hquote,
          if_neg htriple]
  · exact .onward fun _ _ _ => by
      rw [scan_cons, if_neg (by simp), if_neg hbrace, if_neg hescape, if_neg hquote]

theorem of_begun (h : begun found passed = some (piece, length)) :
    piece = .text ∧ length = passed ∧ found = true := by
  unfold begun at h
  split at h <;> cases h
  exact ⟨rfl, rfl, ‹_›⟩

/-- A piece takes up what is pending, and a first character. -/
theorem lt_of_scan (h : scan delimiter passed pending found chars = some (piece, length)) :
    passed + pending ≤ length ∧ (piece = .close → passed + pending < length) ∧
      (found = false → passed < length) ∧ piece ≠ .replacement := by
  induction chars generalizing passed pending found with
  | nil => cases h
  | cons char rest ih =>
      cases pending with
      | succ pending =>
          rw [scan_pending] at h
          obtain ⟨hle, hclose, hfound, hpiece⟩ := ih h
          exact ⟨by omega, fun hc => by have := hclose hc; omega, fun _ => by omega, hpiece⟩
      | zero =>
          have hbegun (h : begun found passed = some (piece, length)) :
              passed + 0 ≤ length ∧ (piece = .close → passed + 0 < length) ∧
                (found = false → passed < length) ∧ piece ≠ .replacement := by
            obtain ⟨rfl, rfl, rfl⟩ := of_begun h
            exact ⟨Nat.le_refl _, by simp, by simp, by simp⟩
          have honward {pending : Nat} {found' : Bool}
              (h : scan delimiter (passed + 1) pending found' rest = some (piece, length)) :
              passed + 0 ≤ length ∧ (piece = .close → passed + 0 < length) ∧
                (found = false → passed < length) ∧ piece ≠ .replacement := by
            obtain ⟨hle, -, -, hpiece⟩ := ih h
            exact ⟨by omega, fun _ => by omega, fun _ => by omega, hpiece⟩
          have hclosing {more : Nat}
              (h : some (if found then (.text, passed) else (.close, passed + (more + 1))) =
                some (piece, length)) :
              passed + 0 ≤ length ∧ (piece = .close → passed + 0 < length) ∧
                (found = false → passed < length) ∧ piece ≠ .replacement := by
            split at h <;> cases h
            · exact ⟨Nat.le_refl _, by simp, by simp [*], by simp⟩
            · exact ⟨by omega, fun _ => by omega, fun _ => by omega, by simp⟩
          cases scans delimiter char with
          | stop hstep =>
              rw [hstep] at h
              exact hbegun h
          | raw hstep =>
              rw [hstep] at h
              exact honward h
          | bytes hchar hstep =>
              rw [hstep] at h
              split at h
              · cases h
              · split at h
                · exact honward h
                · exact hbegun h
          | quotes hbrace hstep =>
              rw [hstep] at h
              split at h
              · cases h
                exact ⟨by omega, by simp, fun _ => by omega, by simp⟩
              · exact hclosing h
          | quote hstep =>
              rw [hstep] at h
              exact hclosing h
          | onward hstep =>
              rw [hstep] at h
              split at h
              · cases h
              · exact honward h

theorem scan_of_length_le (h : chars.length ≤ pending) :
    scan delimiter passed pending found chars = none := by
  induction chars generalizing passed pending found with
  | nil => rfl
  | cons char rest ih =>
      cases pending with
      | zero => cases h
      | succ pending =>
          rw [scan_pending]
          exact ih (Nat.le_of_succ_le_succ h)

/-! ## Escapes -/

theorem lineEnd_cons (char : Char) (rest : List Char) :
    lineEnd (char :: rest) =
      if char = '\r' then if rest.head? = some '\n' then 2 else 1
      else if char = '\n' then 1 else 0 := by
  unfold lineEnd
  split <;> simp_all
  rename_i rest hne he
  obtain ⟨rfl, rfl⟩ := he
  intro hnewline
  cases rest with
  | nil => cases hnewline
  | cons next rest =>
      cases hnewline
      exact hne rest rfl

theorem head?_take_succ (rest : List Char) (count : Nat) :
    (rest.take (count + 1)).head? = rest.head? := by
  cases rest <;> rfl

theorem lineEnd_take (h : lineEnd chars < count) : lineEnd (chars.take count) = lineEnd chars := by
  obtain ⟨count, rfl⟩ := Nat.exists_eq_add_of_lt h
  cases chars with
  | nil => rw [List.take_nil]
  | cons char rest =>
      rw [List.take_succ_cons, lineEnd_cons, lineEnd_cons] at *
      split
      · split
        · rename_i hnewline
          rw [Nat.add_comm 2 count, head?_take_succ, if_pos hnewline]
        · rename_i hnewline
          rw [Nat.add_comm 1 count, head?_take_succ, if_neg hnewline]
      · rfl

theorem lineEnd_cut (chars : List Char) (count : Nat) :
    lineEnd (chars.take count) = lineEnd chars ∨ count ≤ lineEnd (chars.take count) := by
  cases chars with
  | nil => exact .inl (by rw [List.take_nil])
  | cons char rest =>
      cases count with
      | zero => exact .inr (Nat.zero_le _)
      | succ count =>
          rw [List.take_succ_cons, lineEnd_cons, lineEnd_cons]
          cases count with
          | zero =>
              by_cases hreturn : char = '\r'
              · exact .inr (by simp [hreturn])
              · exact .inl (by rw [if_neg hreturn, if_neg hreturn])
          | succ count => exact .inl (by rw [head?_take_succ])

theorem rawEscape_take {quote : Char} (h : rawEscape quote chars < count) :
    rawEscape quote (chars.take count) = rawEscape quote chars := by
  obtain ⟨count, rfl⟩ := Nat.exists_eq_add_of_lt h
  cases chars with
  | nil => rw [List.take_nil]
  | cons char rest =>
      by_cases hescape : (char = quote || char = '\\') = true
      · rw [rawEscape, if_pos hescape] at h ⊢
        rw [List.take_succ_cons, rawEscape, if_pos hescape, lineEnd_take (by omega)]
      · rw [rawEscape, if_neg hescape] at h ⊢
        rw [List.take_succ_cons, rawEscape, if_neg hescape, ← List.take_succ_cons]
        exact lineEnd_take h

theorem rawEscape_cut (quote : Char) (chars : List Char) (count : Nat) :
    rawEscape quote (chars.take count) = rawEscape quote chars ∨
      count ≤ rawEscape quote (chars.take count) := by
  cases chars with
  | nil => exact .inl (by rw [List.take_nil])
  | cons char rest =>
      cases count with
      | zero => exact .inr (Nat.zero_le _)
      | succ count =>
          rw [List.take_succ_cons, rawEscape, rawEscape]
          split
          · exact (lineEnd_cut rest count).imp (congrArg (· + 1)) Nat.succ_le_succ
          · exact lineEnd_cut (char :: rest) (count + 1)

theorem startsHex_take {digits : Nat} (h : digits ≤ count) :
    startsHex digits (chars.take count) = startsHex digits chars := by
  rw [startsHex, startsHex, List.take_take, Nat.min_eq_left h]

/-- Digits that are there when the text is cut off are there in the whole text. -/
theorem startsHex_of_take {digits : Nat} (h : startsHex digits (chars.take count) = true) :
    startsHex digits chars = true := by
  unfold startsHex at h ⊢
  rw [decide_eq_true_eq] at h ⊢
  rw [List.take_take, Nat.min_comm, ← List.take_take, ← List.take_takeWhile,
    List.length_take] at h
  have hle := (List.takeWhile_sublist (p := Lexeme.isHexDigit) (l := chars.take digits)).length_le
  rw [List.length_take] at hle
  omega

/-- Length of an escape by name, behind its opening brace. -/
def namedLength (chars : List Char) : Nat :=
  let named := (chars.takeWhile (· ≠ '\x7d')).length
  if named = 0 || named = chars.length then 1 else named + 4

theorem escapeLength_cons (char : Char) (rest : List Char) :
    escapeLength (char :: rest) =
      if char = 'u' then if startsHex 4 rest then 6 else 1
      else if char = 'U' then if startsHex 8 rest then 10 else 1
      else if char = 'x' then if startsHex 2 rest then 4 else 1
      else if char = 'N' then if rest.head? = some '\x7b' then namedLength rest.tail else 1
      else if char = '\r' then if rest.head? = some '\n' then 3 else 1
      else if char.isDigit then
        if ((rest.take 2).takeWhile Char.isDigit).length = 2 then 4 else 1
      else if char ∈ ['\n', '\'', '"', 'a', 'b', 'f', 'r', 'n', 't', 'v', '\\'] then 2 else 1 := by
  have hhead {next : Char} (hne : ∀ more, rest ≠ next :: more) : rest.head? ≠ some next := by
    cases rest with
    | nil => simp
    | cons first more =>
        simp only [List.head?_cons, ne_eq, Option.some.injEq]
        rintro rfl
        exact hne more rfl
  unfold escapeLength
  split
  all_goals rename_i he; try cases he
  · rfl
  · rfl
  · rfl
  · rfl
  · rfl
  · rename_i hu hU hx hnamed hreturn
    rw [if_neg hu, if_neg hU, if_neg hx]
    by_cases hname : char = 'N'
    · subst hname
      rw [if_pos rfl, if_neg (hhead fun more he => hnamed more rfl he)]
      rfl
    · rw [if_neg hname]
      by_cases hline : char = '\r'
      · subst hline
        rw [if_pos rfl, if_neg (hhead fun more he => hreturn more rfl he)]
        rfl
      · rw [if_neg hline]

theorem escapeLength_pos (chars : List Char) : 0 < escapeLength chars := by
  cases chars with
  | nil => decide
  | cons char rest =>
      rw [escapeLength_cons, namedLength]
      grind

theorem hexEscape_take {digits : Nat}
    (h : (if startsHex digits chars then digits + 2 else 1) ≤ count + 2) :
    (if startsHex digits (chars.take count) then digits + 2 else 1) =
      if startsHex digits chars then digits + 2 else 1 := by
  by_cases hfull : startsHex digits chars = true
  · rw [if_pos hfull] at h ⊢
    rw [if_pos (by rwa [startsHex_take (by omega)])]
  · rw [if_neg hfull, if_neg fun hcut => hfull (startsHex_of_take hcut)]

theorem namedLength_take (h : namedLength chars ≤ count + 3) :
    namedLength (chars.take count) = namedLength chars := by
  have hrun : ((chars.take count).takeWhile (· ≠ '\x7d')).length =
      min count (chars.takeWhile (· ≠ '\x7d')).length := by
    rw [← List.take_takeWhile, List.length_take]
  have hle := (List.takeWhile_sublist (l := chars) (· ≠ '\x7d')).length_le
  unfold namedLength at h ⊢
  dsimp only at h ⊢
  rw [hrun, List.length_take]
  simp only [Bool.or_eq_true, decide_eq_true_eq] at h ⊢
  grind

theorem escapeLength_take (h : escapeLength chars ≤ count + 1) :
    escapeLength (chars.take count) = escapeLength chars := by
  have hpos := escapeLength_pos chars
  cases chars with
  | nil => rw [List.take_nil]
  | cons char rest =>
      cases count with
      | zero => exact Nat.le_antisymm hpos h
      | succ count =>
          have hdigits : (((rest.take count).take 2).takeWhile Char.isDigit).length =
              min count ((rest.take 2).takeWhile Char.isDigit).length := by
            rw [List.take_take, Nat.min_comm, ← List.take_take, ← List.take_takeWhile,
              List.length_take]
          rw [List.take_succ_cons, escapeLength_cons, hdigits]
          rw [escapeLength_cons] at h ⊢
          by_cases hu : char = 'u'
          · rw [if_pos hu] at h
            rw [if_pos hu, if_pos hu]
            exact hexEscape_take h
          by_cases hU : char = 'U'
          · rw [if_neg hu, if_pos hU] at h
            rw [if_neg hu, if_pos hU, if_neg hu, if_pos hU]
            exact hexEscape_take h
          by_cases hx : char = 'x'
          · rw [if_neg hu, if_neg hU, if_pos hx] at h
            rw [if_neg hu, if_neg hU, if_pos hx, if_neg hu, if_neg hU, if_pos hx]
            exact hexEscape_take h
          rw [if_neg hu, if_neg hU, if_neg hx] at h
          rw [if_neg hu, if_neg hU, if_neg hx, if_neg hu, if_neg hU, if_neg hx]
          cases count with
          | zero =>
              have hmin := Nat.zero_min ((rest.take 2).takeWhile Char.isDigit).length
              unfold namedLength at h ⊢
              grind
          | succ count =>
              have htail : (rest.take (count + 1)).tail = rest.tail.take count := by
                cases rest <;> simp
              rw [head?_take_succ, htail]
              by_cases hname : char = 'N' ∧ rest.head? = some '\x7b'
              · rw [if_pos hname.1, if_pos hname.2] at h
                rw [if_pos hname.1, if_pos hname.2, if_pos hname.1, if_pos hname.2]
                exact namedLength_take h
              · grind

theorem beyondText_escape (rest : List Char) :
    beyondText ('\\' :: rest) = some (.text, escapeLength rest) := rfl

theorem beyondText_of_ne (h : chars.head? ≠ some '\\') :
    beyondText chars =
      if (chars.drop (Lexeme.blanks chars)).head? = some '\x7b' then
        some (.replacement, Lexeme.blanks chars + 1)
      else if Lexeme.gapLength (chars.drop (Lexeme.blanks chars)) = 0 then none
      else
        some (.text,
          Lexeme.blanks chars + Lexeme.gapLength (chars.drop (Lexeme.blanks chars))) := by
  unfold beyondText
  split
  · exact absurd rfl h
  · dsimp only
    split
    · rename_i he
      rw [if_pos (by rw [Lexeme.blanks, he, List.head?_cons])]
      rfl
    · rename_i hne
      have hbrace : (chars.drop (Lexeme.blanks chars)).head? ≠ some '\x7b' := by
        intro hbrace
        obtain ⟨rest, he⟩ := List.head?_eq_some_iff.1 hbrace
        exact hne rest he
      rw [if_neg hbrace]
      rfl

theorem beyondText_pos (h : beyondText chars = some (piece, length)) : 0 < length := by
  by_cases hescape : chars.head? = some '\\'
  · obtain ⟨rest, rfl⟩ := List.head?_eq_some_iff.1 hescape
    cases h
    exact escapeLength_pos rest
  · rw [beyondText_of_ne hescape] at h
    split at h
    · cases h
      omega
    · split at h <;> cases h
      omega

/-- What is read where no text can be is the same in a cut text; a text has to end before. -/
theorem beyondText_take (h : beyondText chars = some (piece, length)) (hle : length ≤ count)
    (htext : piece = .text → length < count) :
    beyondText (chars.take count) = some (piece, length) := by
  have hpos := beyondText_pos h
  obtain ⟨count, rfl⟩ := Nat.exists_eq_add_of_le' (Nat.le_trans hpos hle)
  have hhead : (chars.take (count + 1)).head? = chars.head? := head?_take_succ chars count
  by_cases hescape : chars.head? = some '\\'
  · obtain ⟨rest, rfl⟩ := List.head?_eq_some_iff.1 hescape
    rw [beyondText_escape] at h
    cases h
    rw [List.take_succ_cons, beyondText_escape, escapeLength_take hle]
  · rw [beyondText_of_ne hescape] at h
    have hblanks : Lexeme.blanks (chars.take (count + 1)) = Lexeme.blanks chars := by
      refine Lexeme.blanks_take (Nat.le_trans ?_ hle)
      split at h
      · cases h
        omega
      · split at h <;> cases h
        omega
    rw [beyondText_of_ne (by rwa [hhead]), hblanks, List.drop_take]
    split at h
    · rename_i hbrace
      cases h
      obtain ⟨less, hless⟩ := Nat.exists_eq_add_of_le hle
      rw [if_pos]
      rw [show count + 1 - Lexeme.blanks chars = less + 1 by omega, head?_take_succ, hbrace]
    · rename_i hbrace
      split at h
      · cases h
      · rename_i hgap
        cases h
        have hlt := htext rfl
        obtain ⟨less, hless⟩ := Nat.exists_eq_add_of_lt hlt
        rw [show count + 1 - Lexeme.blanks chars =
          Lexeme.gapLength (chars.drop (Lexeme.blanks chars)) + less + 1 by omega]
        rw [if_neg (by rwa [head?_take_succ]), Lexeme.gapLength_take hgap (by omega), if_neg hgap]

/-! ## Pieces -/

theorem pieceAt_of_not_brace {char : Char} (h : ¬ isBrace delimiter char = true)
    (rest : List Char) : pieceAt delimiter (char :: rest) =
      (scan delimiter 0 0 false (char :: rest)).or (beyondText (char :: rest)) := by
  rw [isBrace, Bool.and_eq_true, Bool.or_eq_true, decide_eq_true_eq, decide_eq_true_eq] at h
  unfold pieceAt
  split
  · rename_i hformat he
    cases he
    exact absurd ⟨hformat, .inl rfl⟩ h
  · rename_i hformat he
    cases he
    exact absurd ⟨hformat, .inr rfl⟩ h
  · cases scan delimiter 0 0 false (char :: rest) <;> rfl

/-- A brace of a formatted string is doubled, or begins what is no text. -/
theorem pieceAt_of_brace {char : Char} (h : isBrace delimiter char = true) (rest : List Char) :
    pieceAt delimiter (char :: rest) =
      if rest.head? = some char then some (.text, 2) else beyondText (char :: rest) := by
  rw [isBrace, Bool.and_eq_true, Bool.or_eq_true, decide_eq_true_eq, decide_eq_true_eq] at h
  obtain ⟨hformat, hchar⟩ := h
  have hnone : scan delimiter 0 0 false (char :: rest) = none := by
    rw [scan_cons, if_neg (by simp), if_pos (by simp [isBrace, hformat, hchar])]
    rfl
  unfold pieceAt
  split
  · rename_i he
    cases he
    exact (if_pos rfl).symm
  · rename_i he
    cases he
    exact (if_pos rfl).symm
  · rename_i hopen hclose
    rw [hnone, if_neg]
    · rfl
    · intro hdouble
      obtain ⟨more, rfl⟩ := List.head?_eq_some_iff.1 hdouble
      rcases hchar with rfl | rfl
      · exact hopen more hformat rfl
      · exact hclose more hformat rfl

theorem pieceAt_nil (delimiter : Delimiter) : pieceAt delimiter [] = none := by
  unfold pieceAt
  split
  · rename_i he
    cases he
  · rename_i he
    cases he
  · rfl

/-- A piece goes no further than a limit; one that does not close the string ends before. -/
def Fits (delimiter : Delimiter) (chars : List Char) (limit : Nat) : Prop :=
  ∃ piece length, pieceAt delimiter chars = some (piece, length) ∧ length ≤ limit ∧
    (piece ≠ .close → length < limit)

theorem pieceAt_pos (h : pieceAt delimiter chars = some (piece, length)) : 0 < length := by
  cases chars with
  | nil =>
      rw [pieceAt_nil] at h
      cases h
  | cons char rest =>
      by_cases hbrace : isBrace delimiter char = true
      · rw [pieceAt_of_brace hbrace] at h
        split at h
        · cases h
          omega
        · exact beyondText_pos h
      · rw [pieceAt_of_not_brace hbrace] at h
        rcases Option.or_eq_some_iff.1 h with h | ⟨-, h⟩
        · exact (lt_of_scan h).2.2.1 rfl
        · exact beyondText_pos h

/-- Where a text is cut off, there is no piece that there was not before. -/
theorem scan_take_eq_none (h : scan delimiter passed pending found chars = none) (count : Nat) :
    scan delimiter passed pending found (chars.take count) = none := by
  induction chars generalizing passed pending found count with
  | nil => rw [List.take_nil, h]
  | cons char rest ih =>
      cases count with
      | zero => rfl
      | succ count =>
          rw [List.take_succ_cons]
          cases pending with
          | succ pending =>
              rw [scan_pending] at h ⊢
              exact ih h count
          | zero =>
              cases scans delimiter char with
              | stop hstep =>
                  rw [hstep] at h ⊢
                  exact h
              | raw hstep =>
                  rw [hstep] at h ⊢
                  rcases rawEscape_cut delimiter.quote rest count with he | hle
                  · rw [he]
                    exact ih h count
                  · exact scan_of_length_le (Nat.le_trans (List.length_take_le ..) hle)
              | bytes hchar hstep =>
                  rw [hstep] at h ⊢
                  cases rest with
                  | nil => rw [List.take_nil]
                  | cons next rest =>
                      cases count with
                      | zero => rfl
                      | succ count =>
                          rw [List.take_succ_cons]
                          dsimp only at h ⊢
                          split at h
                          · rename_i hnext
                            rw [if_pos hnext, ← List.take_succ_cons]
                            exact ih h (count + 1)
                          · rename_i hnext
                            rw [if_neg hnext, h]
              | quotes hbrace hstep =>
                  rw [hstep] at h
                  split at h <;> cases h
              | quote hstep =>
                  rw [hstep] at h
                  cases h
              | onward hstep =>
                  rw [hstep] at h ⊢
                  split at h
                  · rename_i hline
                    rw [if_pos hline]
                  · rename_i hline
                    rw [if_neg hline]
                    exact ih h count

theorem Fits.pos {limit : Nat} (h : Fits delimiter chars limit) : 0 < limit := by
  obtain ⟨piece, length, hpiece, hle, -⟩ := h
  exact Nat.lt_of_lt_of_le (pieceAt_pos hpiece) hle

/-- What is pending is in sight where the piece is, and a text ends before the limit. -/
theorem pending_lt_of_scan
    (h : scan delimiter passed pending found chars = some (piece, length))
    (hle : length ≤ passed + count) (hlt : piece = .text → length < passed + count) :
    pending < count := by
  obtain ⟨hpending, hclose, -, hpiece⟩ := lt_of_scan h
  cases piece with
  | text =>
      have hbefore := hlt rfl
      omega
  | close =>
      have hbehind := hclose rfl
      omega
  | replacement => exact absurd rfl hpiece

theorem Fits.pos_of_escape {next : Char} {more : List Char}
    (h : Fits delimiter ('\\' :: next :: more) (count + 1))
    (hscan : scan delimiter 0 0 false ('\\' :: next :: more) = none) : 0 < count := by
  obtain ⟨other, size, hother, -, hlt⟩ := h
  rw [pieceAt_of_not_brace (by simp [isBrace]), hscan, Option.none_or, beyondText_escape] at hother
  cases hother
  have hsize := hlt (by simp)
  have hpos := escapeLength_pos (next :: more)
  omega

theorem Fits.of_close {limit : Nat} {char : Char} {rest : List Char}
    (h : Fits delimiter (char :: rest) limit) (hbrace : ¬ isBrace delimiter char = true)
    (hscan : scan delimiter 0 0 false (char :: rest) = some (.close, length)) : length ≤ limit := by
  obtain ⟨other, size, hother, hle, -⟩ := h
  rw [pieceAt_of_not_brace hbrace, hscan] at hother
  cases hother
  exact hle

theorem scan_take (h : scan delimiter passed pending found chars = some (piece, length))
    (hle : length ≤ passed + count)
    (hnext : piece = .text →
      Fits delimiter (chars.drop (length - passed)) (passed + count - length)) :
    scan delimiter passed pending found (chars.take count) = some (piece, length) := by
  induction chars generalizing passed pending found count with
  | nil => cases h
  | cons char rest ih =>
      have hlt (htext : piece = .text) : length < passed + count := by
        have hpos := (hnext htext).pos
        omega
      have hpending := pending_lt_of_scan h hle hlt
      obtain ⟨count, rfl⟩ : ∃ less, count = less + 1 :=
        Nat.exists_eq_add_of_le' (Nat.zero_lt_of_lt hpending)
      rw [List.take_succ_cons]
      have honward {pending : Nat} {found : Bool}
          (h : scan delimiter (passed + 1) pending found rest = some (piece, length)) :
          scan delimiter (passed + 1) pending found (rest.take count) = some (piece, length) := by
        obtain ⟨hmore, -⟩ := lt_of_scan h
        refine ih h (by omega) fun htext => ?_
        have hfits := hnext htext
        rwa [show length - passed = length - (passed + 1) + 1 by omega, List.drop_succ_cons,
          show passed + (count + 1) - length = passed + 1 + count - length by omega] at hfits
      cases pending with
      | succ pending =>
          rw [scan_pending] at h ⊢
          exact honward h
      | zero =>
          cases scans delimiter char with
          | stop hstep =>
              rw [hstep] at h ⊢
              exact h
          | raw hstep =>
              rw [hstep] at h ⊢
              rw [rawEscape_take]
              · exact honward h
              · exact pending_lt_of_scan h (by omega) fun htext => by
                  have hbefore := hlt htext
                  omega
          | bytes hchar hstep =>
              subst hchar
              rw [hstep] at h ⊢
              cases rest with
              | nil => cases h
              | cons next more =>
                  dsimp only at h
                  split at h
                  · rename_i hletter
                    obtain ⟨hmore, -⟩ := lt_of_scan h
                    obtain ⟨count, rfl⟩ : ∃ less, count = less + 1 :=
                      Nat.exists_eq_add_of_le' (by omega)
                    rw [List.take_succ_cons]
                    dsimp only
                    rw [if_pos hletter, ← List.take_succ_cons]
                    exact honward h
                  · rename_i hletter
                    -- The text ends in front of the backslash, so what that begins is in sight.
                    have hscan : scan delimiter 0 0 false ('\\' :: next :: more) = none := by
                      rw [hstep]
                      exact if_neg hletter
                    obtain ⟨rfl, rfl, -⟩ := of_begun h
                    have hfits := hnext rfl
                    rw [Nat.sub_self, List.drop_zero, Nat.add_sub_cancel_left] at hfits
                    obtain ⟨count, rfl⟩ : ∃ less, count = less + 1 :=
                      Nat.exists_eq_add_of_le' (hfits.pos_of_escape hscan)
                    rw [List.take_succ_cons]
                    dsimp only
                    rw [if_neg hletter, h]
          | quotes hbrace hstep =>
              rw [hstep] at h ⊢
              rw [quoteRun_take]
              by_cases hrun : quoteRun char rest < 2
              · rw [if_pos hrun] at h
                cases h
                rw [Nat.min_eq_right (by have := (hnext rfl).pos; omega), if_pos hrun]
              · rw [if_neg hrun] at h
                have htwo : 2 ≤ count := by
                  split at h <;> cases h
                  · have hfits := hnext rfl
                    rw [Nat.sub_self, List.drop_zero, Nat.add_sub_cancel_left] at hfits
                    have hthree := hfits.of_close hbrace ((hstep ..).trans (if_neg hrun))
                    omega
                  · omega
                rw [if_neg (by omega), h]
          | quote hstep =>
              rw [hstep] at h ⊢
              exact h
          | onward hstep =>
              rw [hstep] at h ⊢
              split at h
              · cases h
              · rename_i hline
                rw [if_neg hline]
                exact honward h

/-- A piece that does not go over a limit is the same where the text is cut off there, if a text is
followed by what fits, too. -/
theorem pieceAt_take (h : pieceAt delimiter chars = some (piece, length)) (hle : length ≤ count)
    (hnext : piece = .text → Fits delimiter (chars.drop length) (count - length)) :
    pieceAt delimiter (chars.take count) = some (piece, length) := by
  have hlt (htext : piece = .text) : length < count := by
    have hpos := (hnext htext).pos
    omega
  obtain ⟨count, rfl⟩ := Nat.exists_eq_add_of_le' (Nat.le_trans (pieceAt_pos h) hle)
  cases chars with
  | nil => rwa [List.take_nil]
  | cons char rest =>
      by_cases hbrace : isBrace delimiter char = true
      · rw [pieceAt_of_brace hbrace] at h
        rw [List.take_succ_cons, pieceAt_of_brace hbrace]
        split at h
        · rename_i hdouble
          cases h
          obtain ⟨count, rfl⟩ := Nat.exists_eq_add_of_le' (Nat.le_of_succ_le_succ hle)
          rw [if_pos (by rwa [head?_take_succ])]
        · rename_i hdouble
          rw [if_neg, ← List.take_succ_cons]
          · exact beyondText_take h hle hlt
          · intro hcut
            refine hdouble ?_
            cases count with
            | zero => cases hcut
            | succ count => rwa [head?_take_succ] at hcut
      · rw [pieceAt_of_not_brace hbrace] at h
        rw [List.take_succ_cons, pieceAt_of_not_brace hbrace, ← List.take_succ_cons]
        rcases Option.or_eq_some_iff.1 h with h | ⟨hnone, h⟩
        · refine Option.or_eq_some_iff.2 (.inl (scan_take h (by omega) fun htext => ?_))
          rw [Nat.sub_zero, Nat.zero_add]
          exact hnext htext
        · exact Option.or_eq_some_iff.2
            (.inr ⟨scan_take_eq_none hnone _, beyondText_take h hle hlt⟩)

/-! ## Formats -/

theorem braceAt_append {front tail : List Char} {isOpen : Bool}
    (h : braceAt (front ++ tail) = some (isOpen, length)) (hlt : length < front.length) :
    braceAt front = some (isOpen, length) := by
  unfold braceAt at h ⊢
  dsimp only at h ⊢
  generalize hmark : (fun char : Char => char ≠ '\x7b' && char ≠ '\x7d') = plain at h ⊢
  have hle : ((front ++ tail).takeWhile plain).length < front.length := by
    split at h <;> cases h <;> omega
  have hfront : front.takeWhile plain = (front ++ tail).takeWhile plain := by
    conv => lhs; rw [← @List.take_left _ front tail, ← List.take_takeWhile]
    exact List.take_of_length_le (Nat.le_of_lt hle)
  rw [hfront]
  rw [List.drop_append_of_le_length (Nat.le_of_lt hle)] at h
  cases hrest : front.drop ((front ++ tail).takeWhile plain).length with
  | nil =>
      have hempty := List.drop_eq_nil_iff.1 hrest
      omega
  | cons char rest =>
      rw [hrest] at h
      split at h
      · rename_i he
        cases he
        exact h
      · rename_i he
        cases he
        exact h
      · cases h

theorem conversionAt_append {front tail : List Char} {read : Unit}
    (h : conversionAt (front ++ tail) = some (read, length)) (hle : length ≤ front.length) :
    conversionAt front = some (read, length) := by
  cases front with
  | nil =>
      unfold conversionAt at h
      split at h
      · split at h <;> cases h
        cases hle
      · cases h
  | cons char rest => exact h

end CodeAtlas.Syntax.Literal
