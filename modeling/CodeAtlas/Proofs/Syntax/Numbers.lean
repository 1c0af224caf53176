import CodeAtlas.Proofs.Syntax.Pieces

/-!
# Numbers in cut texts

A number has the same length where the text is cut off behind it: each of its parts takes characters
from the front, and none is asked for that stands behind the number.
-/

namespace CodeAtlas.Syntax.Lexeme

theorem digitRun_take (chars : List Char) (afterDigit : Bool) (count : Nat) :
    digitRun afterDigit (chars.take count) = min count (digitRun afterDigit chars) := by
  induction chars generalizing afterDigit count with
  | nil => simp [digitRun]
  | cons char rest ih =>
      cases count with
      | zero => simp [digitRun]
      | succ count =>
          rw [List.take_succ_cons, digitRun, digitRun]
          split
          · rw [ih]
            omega
          · split
            · rw [ih]
              omega
            · omega

theorem baseRun_take {isDigit : Char → Bool} (hscore : isDigit '_' = false) {chars : List Char}
    {count : Nat} (h : baseRun isDigit chars ≤ count) :
    baseRun isDigit (chars.take count) = baseRun isDigit chars := by
  fun_induction baseRun isDigit chars generalizing count with
  | case1 char rest hdigit ih =>
      obtain ⟨count, rfl⟩ := Nat.exists_eq_add_of_le' (Nat.le_trans (Nat.le_add_left 2 _) h)
      rw [List.take_succ_cons, List.take_succ_cons, baseRun, if_pos hdigit, ih (by omega)]
  | case2 char rest hdigit =>
      match count with
      | 0 => rfl
      | 1 => simp [baseRun, hscore]
      | count + 2 => rw [List.take_succ_cons, List.take_succ_cons, baseRun, if_neg hdigit]
  | case3 char rest hne hdigit ih =>
      obtain ⟨count, rfl⟩ := Nat.exists_eq_add_of_le' (Nat.le_trans (Nat.le_add_left 1 _) h)
      rw [List.take_succ_cons, baseRun, if_pos hdigit, ih (by omega)]
      rintro next others rfl
      rw [hscore] at hdigit
      cases hdigit
  | case4 char rest hne hdigit =>
      match count, rest with
      | 0, _ => rfl
      | count + 1, [] => simp [baseRun, hdigit]
      | 1, next :: rest => simp [baseRun, hdigit]
      | count + 2, next :: rest =>
          rw [List.take_succ_cons, List.take_succ_cons, baseRun, if_neg hdigit]
          rintro _ _ rfl he
          exact hne _ _ rfl rfl
  | case5 => simp [baseRun]

/-- The length of a mark and the digits behind it, where there are any. -/
def behindMark (mark digits : Nat) : Nat := if digits = 0 then 0 else digits + mark

theorem behindMark_min {mark digits count : Nat} (h : behindMark mark digits ≤ count + mark) :
    behindMark mark (min count digits) = behindMark mark digits := by
  unfold behindMark at h ⊢
  split at h <;> split <;> omega

theorem behindMark_eq_zero {mark digits : Nat} (h : behindMark mark digits ≤ mark) :
    behindMark mark digits = 0 := by
  unfold behindMark at h ⊢
  split at h <;> split <;> omega

theorem exponentLength_cons (char sign : Char) (digits : List Char) :
    exponentLength (char :: sign :: digits) =
      if char = 'e' || char = 'E' then
        if sign = '+' || sign = '-' then behindMark 2 (digitRun false digits)
        else behindMark 1 (digitRun false (sign :: digits))
      else 0 := rfl

theorem exponentLength_take {chars : List Char} {count : Nat} (h : exponentLength chars ≤ count) :
    exponentLength (chars.take count) = exponentLength chars := by
  match count, chars with
  | _, [] => simp
  | 0, char :: rest => rw [List.take_zero, Nat.le_zero.1 h, exponentLength]
  | count + 1, [char] => simp
  | 1, char :: sign :: digits =>
      have hone : exponentLength (char :: sign :: digits) = 0 := by
        rw [exponentLength_cons] at h ⊢
        split at h
        · rename_i he
          rw [if_pos he]
          split at h
          · rename_i hsign
            rw [if_pos hsign, behindMark_eq_zero (by omega)]
          · rename_i hsign
            rw [if_neg hsign, behindMark_eq_zero h]
        · rename_i he
          rw [if_neg he]
      rw [hone, List.take_succ_cons, List.take_zero]
      simp [exponentLength]
  | count + 2, char :: sign :: digits =>
      rw [List.take_succ_cons, List.take_succ_cons, exponentLength_cons, exponentLength_cons,
        ← List.take_succ_cons, digitRun_take, digitRun_take]
      rw [exponentLength_cons] at h
      split at h
      · rename_i he
        rw [if_pos he, if_pos he]
        split at h
        · rename_i hsign
          rw [if_pos hsign, if_pos hsign, behindMark_min h]
        · rename_i hsign
          rw [if_neg hsign, if_neg hsign, behindMark_min h]
      · rename_i he
        rw [if_neg he, if_neg he]

theorem withSuffix_take {letters chars : List Char} {length count : Nat}
    (h : withSuffix letters chars length ≤ count) :
    withSuffix letters (chars.take count) length = withSuffix letters chars length := by
  unfold withSuffix at h ⊢
  rw [List.drop_take]
  cases hrest : chars.drop length with
  | nil => simp
  | cons char rest =>
      rw [hrest] at h
      dsimp only at h
      split at h
      · rename_i hm
        obtain ⟨more, hmore⟩ := Nat.exists_eq_add_of_lt (Nat.lt_of_lt_of_le (Nat.lt_succ_self _) h)
        rw [hmore, Nat.add_assoc, Nat.add_sub_cancel_left, List.take_succ_cons]
      · rename_i hm
        cases count - length with
        | zero => simp [hm]
        | succ more => simp [hm]

/-- The length of a number that starts with so many digits, given what is behind them. -/
def fractionBehind (chars : List Char) (whole : Nat) : List Char → Nat
  | '.' :: rest =>
      let digits := digitRun false rest
      if whole = 0 && digits = 0 then 0
      else withSuffix ['j', 'J'] chars (whole + 1 + digits + exponentLength (rest.drop digits))
  | rest =>
      let exponent := exponentLength rest
      if whole = 0 || exponent = 0 then 0 else withSuffix ['j', 'J'] chars (whole + exponent)

theorem fractionLength_eq (chars : List Char) :
    fractionLength chars =
      fractionBehind chars (digitRun false chars) (chars.drop (digitRun false chars)) := rfl

theorem fractionBehind_point (chars rest : List Char) (whole : Nat) :
    fractionBehind chars whole ('.' :: rest) =
      if whole = 0 && digitRun false rest = 0 then 0
      else withSuffix ['j', 'J'] chars (whole + 1 + digitRun false rest +
        exponentLength (rest.drop (digitRun false rest))) := rfl

theorem fractionBehind_of_head?_ne {rest : List Char} (h : rest.head? ≠ some '.')
    (chars : List Char) (whole : Nat) :
    fractionBehind chars whole rest =
      if whole = 0 || exponentLength rest = 0 then 0
      else withSuffix ['j', 'J'] chars (whole + exponentLength rest) := by
  unfold fractionBehind
  split
  · simp at h
  · rfl

theorem fractionBehind_take {chars rest : List Char} {whole count : Nat}
    (h : fractionBehind chars whole rest ≤ whole + count) :
    fractionBehind (chars.take (whole + count)) whole (rest.take count) =
      fractionBehind chars whole rest := by
  by_cases hpoint : rest.head? = some '.'
  · obtain ⟨rest, rfl⟩ := List.head?_eq_some_iff.1 hpoint
    rw [fractionBehind_point] at h ⊢
    split at h
    · rename_i hzero
      simp at hzero
      rw [if_pos (by simpa using hzero)]
      cases count with
      | zero => simp [fractionBehind, hzero]
      | succ count =>
          rw [List.take_succ_cons, fractionBehind_point, digitRun_take, if_pos (by simp [hzero])]
    · rename_i hzero
      rw [if_neg hzero]
      have hle := Nat.le_trans (le_withSuffix _ _ _) h
      obtain ⟨count, rfl⟩ :=
        Nat.exists_eq_add_of_le' (Nat.le_of_lt_succ (show 1 < count + 1 by omega))
      rw [List.take_succ_cons, fractionBehind_point, digitRun_take, Nat.min_eq_right (by omega),
        if_neg hzero, List.drop_take, exponentLength_take (by omega), withSuffix_take h]
  · have hcut : (rest.take count).head? ≠ some '.' := by
      rw [List.head?_take]
      split
      · simp
      · exact hpoint
    rw [fractionBehind_of_head?_ne hpoint] at h ⊢
    rw [fractionBehind_of_head?_ne hcut]
    split at h
    · rename_i hzero
      rw [if_pos hzero, if_pos]
      simp only [Bool.or_eq_true, decide_eq_true_eq] at hzero ⊢
      exact hzero.imp_right fun hzero => by rw [exponentLength_take (by omega), hzero]
    · rename_i hzero
      have hle := Nat.le_trans (le_withSuffix _ _ _) h
      rw [exponentLength_take (by omega), if_neg hzero, if_neg hzero, withSuffix_take h]

theorem fractionLength_take {chars : List Char} {count : Nat} (h : fractionLength chars ≤ count)
    (hrun : digitRun false chars ≤ count) :
    fractionLength (chars.take count) = fractionLength chars := by
  obtain ⟨more, rfl⟩ := Nat.exists_eq_add_of_le hrun
  rw [fractionLength_eq] at h
  rw [fractionLength_eq, fractionLength_eq, digitRun_take, Nat.min_eq_right hrun, List.drop_take,
    Nat.add_sub_cancel_left, fractionBehind_take h]

/-- The length of a number of another base, of which the mark stands in front of the digits. -/
def basedLength (isDigit : Char → Bool) (chars digits : List Char) : Nat :=
  if baseRun isDigit digits = 0 then withSuffix ['l', 'L', 'j', 'J'] chars 1
  else withSuffix ['l', 'L'] chars (baseRun isDigit digits + 2)

def decimalLength (chars : List Char) : Nat :=
  if digitRun false chars = 0 then 0
  else withSuffix ['l', 'L', 'j', 'J'] chars (digitRun false chars)

def baseMarks : List Char := ['x', 'X', 'o', 'O', 'b', 'B']

theorem exists_basedLength {mark : Char} (h : mark ∈ baseMarks) :
    ∃ isDigit : Char → Bool, isDigit '_' = false ∧ ∀ digits,
      wholeLength ('0' :: mark :: digits) = basedLength isDigit ('0' :: mark :: digits) digits := by
  simp only [baseMarks, List.mem_cons, List.not_mem_nil, or_false] at h
  rcases h with rfl | rfl | rfl | rfl | rfl | rfl
  all_goals exact ⟨_, by decide, fun _ => rfl⟩

theorem wholeLength_eq_decimalLength {chars : List Char}
    (h : ∀ mark digits, chars = '0' :: mark :: digits → mark ∉ baseMarks) :
    wholeLength chars = decimalLength chars := by
  unfold wholeLength
  split
  case h_7 => rfl
  all_goals exact absurd (by decide) (h _ _ rfl)

theorem digitRun_le_wholeLength (chars : List Char) : digitRun false chars ≤ wholeLength chars := by
  by_cases h : ∃ mark digits, chars = '0' :: mark :: digits ∧ mark ∈ baseMarks
  · obtain ⟨mark, digits, rfl, hm⟩ := h
    obtain ⟨isDigit, -, hwhole⟩ := exists_basedLength hm
    have hrun : digitRun false ('0' :: mark :: digits) = 1 := by
      simp only [baseMarks, List.mem_cons, List.not_mem_nil, or_false] at hm
      rcases hm with rfl | rfl | rfl | rfl | rfl | rfl <;> rfl
    rw [hrun, hwhole, basedLength]
    split
    · exact le_withSuffix ..
    · exact Nat.le_trans (Nat.le_add_left 1 _) (le_withSuffix ..)
  · rw [wholeLength_eq_decimalLength fun mark digits he hm => h ⟨mark, digits, he, hm⟩,
      decimalLength]
    split
    · omega
    · exact le_withSuffix ..

theorem decimalLength_take {chars : List Char} {count : Nat} (h : decimalLength chars ≤ count) :
    decimalLength (chars.take count) = decimalLength chars := by
  unfold decimalLength at h ⊢
  rw [digitRun_take]
  split at h
  · rename_i hzero
    simp [hzero]
  · rename_i hzero
    have hle := Nat.le_trans (le_withSuffix _ _ _) h
    rw [Nat.min_eq_right hle, if_neg hzero, if_neg hzero, withSuffix_take h]

theorem wholeLength_take {chars : List Char} {count : Nat} (h : wholeLength chars ≤ count) :
    wholeLength (chars.take count) = wholeLength chars := by
  by_cases hbase : ∃ mark digits, chars = '0' :: mark :: digits ∧ mark ∈ baseMarks
  · obtain ⟨mark, digits, rfl, hm⟩ := hbase
    obtain ⟨isDigit, hscore, hwhole⟩ := exists_basedLength hm
    rw [hwhole] at h
    match count with
    | 0 =>
        rw [List.take_zero, hwhole, Nat.le_zero.1 h]
        rfl
    | 1 =>
        unfold basedLength at h
        split at h
        · rename_i hzero
          have hsuffix := le_withSuffix ['l', 'L', 'j', 'J'] ('0' :: mark :: digits) 1
          rw [hwhole, basedLength, if_pos hzero, Nat.le_antisymm h hsuffix]
          rfl
        · have hsuffix := Nat.le_trans (le_withSuffix _ _ _) h
          omega
    | count + 2 =>
        have htake : ('0' :: mark :: digits).take (count + 2) =
            '0' :: mark :: digits.take count := by
          rw [List.take_succ_cons, List.take_succ_cons]
        rw [htake, hwhole, hwhole]
        unfold basedLength at h ⊢
        split at h
        · rename_i hzero
          rw [if_pos hzero, baseRun_take hscore (by omega), if_pos hzero, ← htake,
            withSuffix_take h]
        · rename_i hzero
          have hle := Nat.le_trans (le_withSuffix _ _ _) h
          rw [if_neg hzero, baseRun_take hscore (by omega), if_neg hzero, ← htake,
            withSuffix_take h]
  · have hnone : ∀ mark digits, chars = '0' :: mark :: digits → mark ∉ baseMarks :=
      fun mark digits he hm => hbase ⟨mark, digits, he, hm⟩
    have hcut : ∀ mark digits, chars.take count = '0' :: mark :: digits → mark ∉ baseMarks := by
      intro mark digits he
      obtain ⟨more, hmore⟩ := List.take_prefix count chars
      rw [he] at hmore
      exact hnone mark (digits ++ more) hmore.symm
    rw [wholeLength_eq_decimalLength hnone] at h ⊢
    rw [wholeLength_eq_decimalLength hcut, decimalLength_take h]

theorem numberLength_take {chars : List Char} {count : Nat} (h : numberLength chars ≤ count) :
    numberLength (chars.take count) = numberLength chars := by
  have hrun := digitRun_le_wholeLength chars
  unfold numberLength at h ⊢
  rw [fractionLength_take (by omega) (by omega), wholeLength_take (by omega)]

theorem textAt_eq_number {chars : List Char} {length : Nat}
    (h : textAt chars = (.number, length)) :
    ∃ char rest, chars = char :: rest ∧ Text.Identifier.isStart char = false ∧
      length = numberLength chars ∧ length ≠ 0 := by
  unfold textAt at h
  split at h
  · cases h
  · rename_i char rest
    split at h
    · cases h
    · rename_i hstart
      dsimp only at h
      split at h
      · rename_i hnumber
        cases h
        exact ⟨char, rest, rfl, by simpa using hstart, rfl, hnumber⟩
      · split at h <;> cases h

theorem textAt_take_number {chars : List Char} {length count : Nat}
    (h : textAt chars = (.number, length)) (hcount : length ≤ count) :
    textAt (chars.take count) = (.number, length) := by
  obtain ⟨char, rest, rfl, hstart, rfl, hne⟩ := textAt_eq_number h
  obtain ⟨count, rfl⟩ :=
    Nat.exists_eq_add_of_le' (Nat.le_trans (Nat.one_le_iff_ne_zero.2 hne) hcount)
  have hcut := numberLength_take hcount
  rw [List.take_succ_cons] at hcut ⊢
  rw [textAt, if_neg (by simp [hstart])]
  dsimp only
  rw [hcut, if_pos hne]

end CodeAtlas.Syntax.Lexeme
