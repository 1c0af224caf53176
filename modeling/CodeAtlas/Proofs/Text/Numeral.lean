import CodeAtlas.Text.Numeral
import Mathlib.Data.List.Basic

/-!
# Numerals that are read back

A number that stays within the limit is read from its own digits as it was written, and nothing is
read but digits that stay within it.
-/

namespace CodeAtlas.Text

theorem le_ofDigitChars (digits : List Char) (start : Nat) :
    start ≤ Nat.ofDigitChars 10 digits start := by
  induction digits generalizing start with
  | nil => simp
  | cons char rest ih =>
      rw [Nat.ofDigitChars_cons]
      exact Nat.le_trans (by omega) (ih (10 * start + (char.toNat - '0'.toNat)))

namespace Numeral

variable {limit : Nat} {past : NumeralError}

/-- The number grows with each digit, so none of them takes it past a limit that it keeps in the
end. -/
theorem digitsUpTo_eq_ok {chars : List Char} {number : Nat}
    (hd : ∀ char ∈ chars, char.isDigit = true) (hl : Nat.ofDigitChars 10 chars number ≤ limit) :
    digitsUpTo limit past number chars = .ok (Nat.ofDigitChars 10 chars number) := by
  induction chars generalizing number with
  | nil => simp [digitsUpTo]
  | cons char rest ih =>
      rw [Nat.ofDigitChars_cons, Nat.mul_comm] at hl ⊢
      have hchar : char.isDigit = true := hd char List.mem_cons_self
      have hnext : number * 10 + (char.toNat - '0'.toNat) ≤ limit :=
        Nat.le_trans (le_ofDigitChars rest _) hl
      show (if !char.isDigit then _ else _) = _
      rw [hchar, if_neg (by simp)]
      show (if limit < number * 10 + (char.toNat - '0'.toNat) then _ else _) = _
      rw [if_neg (Nat.not_lt.2 hnext)]
      exact ih (fun other ho => hd other (List.mem_cons_of_mem _ ho)) hl

theorem of_digitsUpTo_eq_ok {chars : List Char} {number read : Nat}
    (h : digitsUpTo limit past number chars = .ok read) (hl : number ≤ limit) :
    (∀ char ∈ chars, char.isDigit = true) ∧ Nat.ofDigitChars 10 chars number = read ∧
      read ≤ limit := by
  induction chars generalizing number with
  | nil =>
      obtain rfl : number = read := Except.ok.inj h
      exact ⟨by simp, by simp, hl⟩
  | cons char rest ih =>
      unfold digitsUpTo at h
      split at h
      · cases h
      · rename_i hchar
        dsimp only at h
        split at h
        · cases h
        · rename_i hnext
          obtain ⟨hdigits, hread, hle⟩ := ih h (Nat.not_lt.1 hnext)
          refine ⟨?_, ?_, hle⟩
          · rw [List.forall_mem_cons]
            exact ⟨by simpa using hchar, hdigits⟩
          · rw [Nat.ofDigitChars_cons, Nat.mul_comm]
            exact hread

/-- Decimal digits that write a number. -/
structure AreDigitsOf (number : Nat) (chars : List Char) : Prop where
  ne_nil : chars ≠ []
  isDigit : ∀ char ∈ chars, char.isDigit = true
  value : Nat.ofDigitChars 10 chars 0 = number

theorem digits_eq_ok_iff {chars : List Char} {number : Nat} :
    digits limit past chars = .ok number ↔ AreDigitsOf number chars ∧ number ≤ limit := by
  unfold digits
  split
  · rename_i hnil
    constructor
    · intro h
      cases h
    · rintro ⟨h, -⟩
      exact absurd (List.isEmpty_iff.1 hnil) h.ne_nil
  · rename_i hsome
    have hne : chars ≠ [] := by simpa using hsome
    constructor
    · intro h
      obtain ⟨hdigits, hvalue, hl⟩ := of_digitsUpTo_eq_ok h (Nat.zero_le limit)
      exact ⟨⟨hne, hdigits, hvalue⟩, hl⟩
    · rintro ⟨h, hl⟩
      rw [digitsUpTo_eq_ok h.isDigit (by rw [h.value]; exact hl), h.value]

/-- A text that writes a number: its digits, with or without a plus sign in front. -/
def Writes (number : Nat) (text : String) : Prop :=
  ∃ chars, AreDigitsOf number chars ∧ (text.toList = chars ∨ text.toList = '+' :: chars)

theorem natural_eq_ok_iff {number : Nat} {text : String} :
    natural limit text = .ok number ↔ Writes number text ∧ number ≤ limit := by
  unfold natural Writes
  split
  case h_1 hnil =>
    constructor
    · intro h
      cases h
    · rintro ⟨⟨chars, h, he | he⟩, -⟩
      · exact absurd (he.symm.trans hnil) h.ne_nil
      · cases he.symm.trans hnil
  case h_2 rest hplus =>
    rw [digits_eq_ok_iff, hplus]
    refine and_congr_left fun _ => ⟨fun h => ⟨rest, h, .inr rfl⟩, ?_⟩
    rintro ⟨chars, h, rfl | he⟩
    · exact absurd (h.isDigit '+' List.mem_cons_self) (by decide)
    · cases he
      exact h
  case h_3 hplus =>
    rw [digits_eq_ok_iff]
    refine and_congr_left fun _ => ⟨fun h => ⟨_, h, .inl rfl⟩, ?_⟩
    rintro ⟨chars, h, rfl | he⟩
    · exact h
    · exact absurd he (hplus chars)

theorem exists_of_map_digits {chars : List Char} {sign : Nat → Int} {value : Int}
    (h : (digits limit past chars).map sign = .ok value) :
    ∃ number ≤ limit, sign number = value := by
  cases hd : digits limit past chars with
  | error error =>
      rw [hd] at h
      cases h
  | ok number =>
      rw [hd] at h
      exact ⟨number, (digits_eq_ok_iff.1 hd).2, Except.ok.inj h⟩

theorem lt_of_signed64 {text : String} {value : Int} (h : signed64 text = .ok value) :
    value < Nat.pow 2 63 := by
  unfold signed64 at h
  split at h
  · cases h
  · rename_i rest _
    cases hd : digits (Nat.pow 2 63) .tooSmall rest with
    | error error =>
        rw [hd] at h
        cases h
    | ok number =>
        rw [hd] at h
        cases h
        exact Int.lt_of_le_of_lt (Int.neg_nonpos_of_nonneg (Int.natCast_nonneg number)) (by decide)
  all_goals
    obtain ⟨number, hle, rfl⟩ := exists_of_map_digits h
    exact Int.ofNat_lt.2 (Nat.lt_of_le_pred (by decide) hle)

theorem toList_toString (number : Nat) : (toString number).toList = Nat.toDigits 10 number :=
  Nat.toList_repr

theorem isDigit_of_mem_toString {number : Nat} {char : Char}
    (hc : char ∈ (toString number).toList) : char.isDigit = true := by
  rw [toList_toString] at hc
  exact Nat.isDigit_of_mem_toDigits (by decide) (by decide) hc

theorem areDigitsOf_toString (number : Nat) : AreDigitsOf number (toString number).toList where
  ne_nil := by
    rw [toList_toString]
    exact Nat.toDigits_ne_nil
  isDigit _ := isDigit_of_mem_toString
  value := by rw [toList_toString, Nat.ofDigitChars_ten_toDigits]

theorem digits_toString {number : Nat} (hl : number ≤ limit) :
    digits limit past (toString number).toList = .ok number :=
  digits_eq_ok_iff.2 ⟨areDigitsOf_toString number, hl⟩

theorem natural_toString {number : Nat} (hl : number ≤ limit) :
    natural limit (toString number) = .ok number :=
  natural_eq_ok_iff.2 ⟨⟨_, areDigitsOf_toString number, .inl rfl⟩, hl⟩

theorem signed64_toString {number : Nat} (hl : number < Nat.pow 2 63) :
    signed64 (toString number) = .ok (number : Int) := by
  have hread : digits (Nat.pow 2 63 - 1) .tooLarge (toString number).toList = .ok number :=
    digits_toString (Nat.le_sub_one_of_lt hl)
  have hd : ∀ char ∈ (toString number).toList, char.isDigit = true :=
    fun _ => isDigit_of_mem_toString
  unfold signed64
  cases hchars : (toString number).toList with
  | nil => exact absurd ((toList_toString number).symm.trans hchars) Nat.toDigits_ne_nil
  | cons char rest =>
      rw [hchars] at hread hd
      have hchar : char.isDigit = true := hd char List.mem_cons_self
      split
      case h_1 hnil => exact absurd hnil (List.cons_ne_nil char rest)
      case h_2 hminus =>
        cases hminus
        exact absurd hchar (by decide)
      case h_3 hplus =>
        cases hplus
        exact absurd hchar (by decide)
      case h_4 =>
        rw [hread]
        rfl

theorem toList_toString_int (value : Int) : (toString value).toList =
    match value with
    | .ofNat number => (toString number).toList
    | .negSucc below => '-' :: (toString (below + 1)).toList := by
  cases value with
  | ofNat number => rfl
  | negSucc below =>
      show ("-" ++ toString (below + 1)).toList = _
      simp

theorem signed64_toString_int {value : Int} (hl : -(Nat.pow 2 63 : Int) ≤ value)
    (hu : value < Nat.pow 2 63) : signed64 (toString value) = .ok value := by
  cases value with
  | ofNat number => exact signed64_toString (Int.ofNat_lt.1 hu)
  | negSucc below =>
      have hread : digits (Nat.pow 2 63) .tooSmall (toString (below + 1)).toList =
          .ok (below + 1) := digits_toString (by omega)
      unfold signed64
      rw [toList_toString_int]
      simp only [hread]
      rfl

end Numeral

end CodeAtlas.Text
