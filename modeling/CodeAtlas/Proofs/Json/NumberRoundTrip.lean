import CodeAtlas.Json.Print
import CodeAtlas.Json.Reader
import CodeAtlas.Proofs.Decimal.Shortest
import CodeAtlas.Proofs.Text.Numeral
import Mathlib.Data.List.Basic

/-!
# Numbers that are read back

A literal is a number as it is written, with its digits as characters. A well-formed one is read as
the numeral of these digits, and the reader stops right behind it if nothing follows that could
belong to a number.
-/

namespace CodeAtlas.Json

/-- The parts of a written number. -/
structure Literal where
  negative : Bool
  whole : List Char
  fraction : Option (List Char) := none
  /-- Whether the exponent is below zero, with its digits. -/
  exponent : Option (Bool × List Char) := none

namespace Literal

def signText (negative : Bool) : List Char := if negative then ['-'] else []

def fractionText : Option (List Char) → List Char
  | none => []
  | some digits => '.' :: digits

def exponentText : Option (Bool × List Char) → List Char
  | none => []
  | some (negative, digits) => 'e' :: (if negative then '-' else '+') :: digits

def text (literal : Literal) : List Char :=
  signText literal.negative ++ literal.whole ++ fractionText literal.fraction ++
    exponentText literal.exponent

def digitValue (char : Char) : Nat := char.toNat - '0'.toNat

def numeral (literal : Literal) : Reader.Numeral where
  negative := literal.negative
  whole := literal.whole.map digitValue
  fraction := literal.fraction.map (·.map digitValue)
  exponent := literal.exponent.map fun exponent => (exponent.1, exponent.2.map digitValue)

/-- One or more digits. -/
structure AreDigits (chars : List Char) : Prop where
  ne_nil : chars ≠ []
  isDigit : ∀ char ∈ chars, char.isDigit = true

/-- All parts have digits, and no zero leads others. -/
structure IsWellFormed (literal : Literal) : Prop where
  whole : AreDigits literal.whole
  leading : literal.whole = ['0'] ∨ literal.whole.head? ≠ some '0'
  fraction : ∀ digits, literal.fraction = some digits → AreDigits digits
  exponent : ∀ negative digits, literal.exponent = some (negative, digits) → AreDigits digits

end Literal

/-- Nothing that could belong to a number in front of it. -/
def Input.EndsNumber (input : Input) : Prop :=
  ∀ char, input.head? = some (some char) →
    char.isDigit = false ∧ char ≠ '.' ∧ char ≠ 'e' ∧ char ≠ 'E'

namespace Reader

open Literal

variable {rest : Input}

/-! ## Digits -/

theorem digitsOf_append {digits : List Char} (h : ∀ char ∈ digits, char.isDigit = true)
    (rest : Input) :
    digitsOf (digits.map some ++ rest) = digits.map digitValue ++ digitsOf rest := by
  induction digits with
  | nil => rfl
  | cons char digits ih =>
      have hchar := h char List.mem_cons_self
      rw [List.map_cons, List.map_cons, List.cons_append, List.cons_append,
        ← ih fun other hm => h other (List.mem_cons_of_mem char hm)]
      simp [digitsOf, hchar, digitValue]

theorem digitsOf_eq_nil (h : ∀ char, rest.head? = some (some char) → char.isDigit = false) :
    digitsOf rest = [] := by
  cases rest with
  | nil => rfl
  | cons place rest =>
      cases place with
      | none => rfl
      | some char =>
          have hchar := h char rfl
          simp [digitsOf, hchar]

theorem digitsOf_digits {digits : List Char} (h : AreDigits digits)
    (hrest : ∀ char, rest.head? = some (some char) → char.isDigit = false) :
    digitsOf (digits.map some ++ rest) = digits.map digitValue := by
  rw [digitsOf_append h.isDigit, digitsOf_eq_nil hrest, List.append_nil]

theorem drop_digits (digits : List Char) (rest : Input) :
    (digits.map some ++ rest).drop (digits.map digitValue).length = rest := by
  rw [List.length_map, List.drop_left']
  exact List.length_map _

theorem isEmpty_digits {digits : List Char} (h : AreDigits digits) :
    (digits.map digitValue).isEmpty = false := by
  simpa using h.ne_nil

theorem digitValue_ne_zero {char : Char} (h : char.isDigit = true) (hne : char ≠ '0') :
    digitValue char ≠ 0 := by
  rw [Char.isDigit_iff_toNat] at h
  have hnat : char.toNat ≠ '0'.toNat := fun heq => hne (Char.toNat_inj.1 heq)
  simp only [digitValue]
  omega

/-! ## Parts -/

theorem exponent_text {literal : Literal} (h : literal.IsWellFormed) (hrest : rest.EndsNumber) :
    exponent ((exponentText literal.exponent).map some ++ rest) =
      .ok (literal.numeral.exponent, rest) := by
  cases he : literal.exponent with
  | none =>
      rw [numeral, he]
      cases rest with
      | nil => rfl
      | cons place rest =>
          cases place with
          | none => rfl
          | some char =>
              obtain ⟨-, -, hsmall, hcapital⟩ := hrest char rfl
              simp [exponentText, exponent, hsmall, hcapital]
  | some parts =>
      obtain ⟨negative, digits⟩ := parts
      have hdigits := h.exponent negative digits he
      have hread := digitsOf_digits hdigits fun char hc => (hrest char hc).1
      rw [numeral, he]
      have hsome := isEmpty_digits hdigits
      have hdrop := drop_digits digits rest
      cases negative <;>
        simp only [exponentText, List.map_cons, List.cons_append, exponent, decide_true,
          Bool.true_or, if_true, hread, hsome, hdrop, Bool.false_eq_true, if_false] <;> rfl

theorem head?_exponentText {char : Char} {parts : Option (Bool × List Char)}
    (h : ((exponentText parts).map some ++ rest).head? = some (some char)) :
    char = 'e' ∨ rest.head? = some (some char) := by
  cases parts with
  | none => exact .inr h
  | some parts =>
      refine .inl ?_
      simp only [exponentText, List.map_cons, List.cons_append, List.head?_cons,
        Option.some.injEq] at h
      exact h.symm

theorem fraction_text {literal : Literal} (h : literal.IsWellFormed) (hrest : rest.EndsNumber) :
    fraction literal.negative (literal.whole.map digitValue)
      ((fractionText literal.fraction ++ exponentText literal.exponent).map some ++ rest) =
        .ok (literal.numeral, rest) := by
  have hexponent := exponent_text h hrest
  cases hf : literal.fraction with
  | none =>
      -- What comes first is the exponent or the rest, so it is no point.
      have hpoint : ∀ char, ((exponentText literal.exponent).map some ++ rest).head? =
          some (some char) → char ≠ '.' := by
        intro char hc
        rcases head?_exponentText hc with rfl | hc
        · decide
        · exact (hrest char hc).2.1
      rw [fractionText, List.nil_append, fraction]
      · rw [hexponent]
        simp [numeral, hf, bind, Except.bind, pure, Except.pure]
      · intro behind heq
        exact hpoint '.' (by rw [heq]; rfl) rfl
  | some digits =>
      have hdigits := h.fraction digits hf
      have hread : digitsOf (digits.map some ++
          ((exponentText literal.exponent).map some ++ rest)) = digits.map digitValue := by
        refine digitsOf_digits hdigits fun char hc => ?_
        rcases head?_exponentText hc with rfl | hc
        · decide
        · exact (hrest char hc).1
      have hsome := isEmpty_digits hdigits
      have hdrop := drop_digits digits ((exponentText literal.exponent).map some ++ rest)
      simp only [fractionText, List.cons_append, List.map_cons, List.map_append, List.append_assoc,
        fraction, hread, hsome, hdrop, hexponent]
      simp [numeral, hf, bind, Except.bind, pure, Except.pure]

/-! ## Whole numbers -/

theorem head?_tail {char : Char} {literal : Literal}
    (h : ((fractionText literal.fraction ++ exponentText literal.exponent).map some ++ rest).head? =
      some (some char)) : char = '.' ∨ char = 'e' ∨ rest.head? = some (some char) := by
  cases hf : literal.fraction with
  | none =>
      rw [hf, fractionText, List.nil_append] at h
      exact .inr (head?_exponentText h)
  | some digits =>
      refine .inl ?_
      simp only [hf, fractionText, List.cons_append, List.map_cons, List.head?_cons,
        Option.some.injEq] at h
      exact h.symm

theorem unsigned_text {literal : Literal} (h : literal.IsWellFormed) (hrest : rest.EndsNumber) :
    unsigned literal.negative ((literal.whole ++ fractionText literal.fraction ++
      exponentText literal.exponent).map some ++ rest) = .ok (literal.numeral, rest) := by
  have hfraction := fraction_text h hrest
  let behind := (fractionText literal.fraction ++ exponentText literal.exponent).map some ++ rest
  have hinput : (literal.whole ++ fractionText literal.fraction ++
      exponentText literal.exponent).map some ++ rest = literal.whole.map some ++ behind := by
    simp [behind]
  have hread : digitsOf (literal.whole.map some ++ behind) = literal.whole.map digitValue := by
    refine digitsOf_digits h.whole fun char hc => ?_
    rcases head?_tail hc with rfl | rfl | hc
    · decide
    · decide
    · exact (hrest char hc).1
  have hdrop := drop_digits literal.whole behind
  rw [hinput, unsigned, hread]
  rcases h.leading with hzero | hne
  · rw [hzero] at hfraction hdrop ⊢
    exact (congrArg (fraction _ _) hdrop).trans hfraction
  · obtain ⟨first, digits, hwhole⟩ := List.exists_cons_of_ne_nil h.whole.ne_nil
    have hfirst := digitValue_ne_zero (h.whole.isDigit first (by simp [hwhole]))
      fun heq => hne (by rw [hwhole, heq]; rfl)
    rw [hwhole] at hfraction hdrop ⊢
    rw [List.map_cons] at hfraction hdrop ⊢
    split
    · next heq => cases heq
    · next heq => exact absurd (List.cons.inj heq).1 hfirst
    · next heq => exact absurd (List.cons.inj heq).1 hfirst
    · rw [hdrop]
      exact hfraction

theorem number_text {literal : Literal} (h : literal.IsWellFormed) (hrest : rest.EndsNumber) :
    number literal.negative ((literal.whole ++ fractionText literal.fraction ++
      exponentText literal.exponent).map some ++ rest) =
        (.number literal.numeral.value, some rest) := by
  rw [number, unsigned_text h hrest]

end Reader

/-! ## Written numbers -/

namespace Literal

theorem areDigits_digits (number : Nat) : AreDigits (Decimal.digits number) := by
  have hdigits : Decimal.digits number = Nat.toDigits 10 number := Nat.toList_repr
  rw [hdigits]
  exact ⟨Nat.toDigits_ne_nil, fun _ => Nat.isDigit_of_mem_toDigits (by decide) (by decide)⟩

theorem head?_digits_ne_zero {number : Nat} (h : 0 < number) :
    (Decimal.digits number).head? ≠ some '0' := by
  have hdigits : Decimal.digits number = Nat.toDigits 10 number := Nat.toList_repr
  rw [hdigits]
  clear hdigits
  induction number using Nat.base_induction 10 (by decide) with
  | single digit hd =>
      rw [Nat.toDigits_of_lt_base hd]
      revert h
      revert digit
      decide
  | digit front last hl hf ih =>
      rw [← Nat.toDigits_append_toDigits (by decide) hf hl,
        List.head?_append_of_ne_nil _ Nat.toDigits_ne_nil]
      exact ih hf

theorem AreDigits.append {front back : List Char} (h : AreDigits front)
    (hb : ∀ char ∈ back, char.isDigit = true) : AreDigits (front ++ back) := by
  refine ⟨by simp [h.ne_nil], fun char hm => ?_⟩
  rcases List.mem_append.1 hm with hm | hm
  · exact h.isDigit char hm
  · exact hb char hm

theorem AreDigits.take {digits : List Char} (h : AreDigits digits) {count : Nat}
    (hc : 0 < count) : AreDigits (digits.take count) := by
  refine ⟨?_, fun char hm => h.isDigit char (List.mem_of_mem_take hm)⟩
  simp [h.ne_nil, Nat.ne_of_gt hc]

theorem AreDigits.drop {digits : List Char} (h : AreDigits digits) {count : Nat}
    (hc : count < digits.length) : AreDigits (digits.drop count) := by
  refine ⟨?_, fun char hm => h.isDigit char (List.mem_of_mem_drop hm)⟩
  simpa using hc

theorem isDigit_of_mem_zeros {count : Nat} {char : Char} (h : char ∈ List.replicate count '0') :
    char.isDigit = true := by
  rw [List.eq_of_mem_replicate h]
  rfl

/-! ### Whole numbers -/

def ofWhole (value : Int) : Literal where
  negative := value < 0
  whole := Decimal.digits value.natAbs

theorem text_ofWhole (value : Int) : (ofWhole value).text = (toString value).toList := by
  have hvalue : toString value = Int.repr value := rfl
  rw [hvalue]
  cases value with
  | ofNat number =>
      simp [ofWhole, text, signText, fractionText, exponentText, Decimal.digits, Int.repr]
  | negSucc number =>
      simp [ofWhole, text, signText, fractionText, exponentText, Decimal.digits, Int.repr]

theorem isWellFormed_ofWhole (value : Int) : (ofWhole value).IsWellFormed := by
  refine ⟨areDigits_digits _, ?_, by simp [ofWhole], by simp [ofWhole]⟩
  rcases Nat.eq_zero_or_pos value.natAbs with hzero | hpos
  · exact .inl (by rw [ofWhole, hzero]; rfl)
  · exact .inr (head?_digits_ne_zero hpos)

/-! ### Real numbers -/

def positional (negative : Bool) (digits : List Char) (point : Int) : Literal :=
  if point ≤ 0 then
    { negative, whole := ['0'], fraction := some (List.replicate (-point).toNat '0' ++ digits) }
  else if digits.length ≤ point.toNat then
    { negative, whole := digits ++ List.replicate (point.toNat - digits.length) '0'
      fraction := some ['0'] }
  else
    { negative, whole := digits.take point.toNat, fraction := some (digits.drop point.toNat) }

def exponential (negative : Bool) (digits : List Char) (point : Int) : Literal where
  negative
  whole := digits.take 1
  fraction := if digits.length = 1 then none else some (digits.drop 1)
  exponent := some (decide (point - 1 < 0), Decimal.digits (point - 1).natAbs)

theorem text_positional (negative : Bool) (digits : List Char) (point : Int) :
    (positional negative digits point).text =
      signText negative ++ Number.positional digits point := by
  rw [positional, Number.positional]
  split
  · simp [text, fractionText, exponentText]
  split
  · simp [text, fractionText, exponentText]
  · simp [text, fractionText, exponentText]

theorem text_exponential (negative : Bool) (digits : List Char) (point : Int) :
    (exponential negative digits point).text =
      signText negative ++ Number.exponential digits point := by
  rw [exponential, Number.exponential]
  by_cases hone : digits.length = 1 <;>
    simp [text, fractionText, exponentText, hone]

theorem isWellFormed_positional {digits : List Char} (h : AreDigits digits)
    (hlead : digits.head? ≠ some '0') (negative : Bool) (point : Int) :
    (positional negative digits point).IsWellFormed := by
  have hzero : AreDigits ['0'] := ⟨by simp, by simp⟩
  rw [positional]
  split
  · refine ⟨hzero, .inl rfl, ?_, by simp⟩
    rintro _ ⟨⟩
    exact ⟨by simp [h.ne_nil], fun char hm => (List.mem_append.1 hm).elim
      isDigit_of_mem_zeros (h.isDigit char)⟩
  split
  · refine ⟨h.append fun _ => isDigit_of_mem_zeros, .inr ?_, ?_, by simp⟩
    · rwa [List.head?_append_of_ne_nil _ h.ne_nil]
    · rintro _ ⟨⟩
      exact hzero
  · next hpos hlong =>
      refine ⟨h.take (by omega), .inr ?_, ?_, by simp⟩
      · rwa [List.head?_take, if_neg (by omega)]
      · rintro _ ⟨⟩
        exact h.drop (by omega)

theorem isWellFormed_exponential {digits : List Char} (h : AreDigits digits)
    (hlead : digits.head? ≠ some '0') (negative : Bool) (point : Int) :
    (exponential negative digits point).IsWellFormed := by
  refine ⟨h.take (by decide), .inr ?_, ?_, ?_⟩
  · rwa [exponential, List.head?_take, if_neg (by decide)]
  · intro fraction hf
    have hlength := List.length_pos_iff.2 h.ne_nil
    rw [exponential] at hf
    by_cases hone : digits.length = 1
    · simp [hone] at hf
    · simp only [hone, if_false, Option.some.injEq] at hf
      rw [← hf]
      exact h.drop (by omega)
  · rintro _ _ ⟨⟩
    exact areDigits_digits _

/-- The text of a finite number, taken apart. -/
def ofBinary (number : Decimal.Binary) : Literal :=
  if number.significand = 0 then
    { negative := number.negative, whole := ['0'], fraction := some ['0'] }
  else
    let short := Decimal.shortest number
    let digits := Decimal.digits short.digits
    let point := (digits.length : Int) + short.exponent
    if Number.isPositional point then positional number.negative digits point
    else exponential number.negative digits point

theorem text_ofBinary (number : Decimal.Binary) :
    (ofBinary number).text = (Number.finiteText number).toList := by
  have hsign : (Decimal.signText number.negative).toList = signText number.negative := by
    rw [Decimal.signText, signText]
    split <;> rfl
  rw [ofBinary, Number.finiteText, String.toList_append, String.toList_ofList, hsign]
  by_cases hzero : number.significand = 0
  · simp [hzero, text, fractionText, exponentText]
  · simp only [hzero, if_false]
    split
    · exact text_positional _ _ _
    · exact text_exponential _ _ _

theorem isWellFormed_ofBinary {number : Decimal.Binary}
    (h : 0 < number.significand → number.IsDouble) : (ofBinary number).IsWellFormed := by
  rw [ofBinary]
  by_cases hzero : number.significand = 0
  · have hdigits : AreDigits ['0'] := ⟨by simp, by simp⟩
    rw [if_pos hzero]
    refine ⟨hdigits, .inl rfl, ?_, by simp⟩
    rintro _ ⟨⟩
    exact hdigits
  · have hpos := Decimal.shortest_digits_pos (h (Nat.pos_of_ne_zero hzero))
    rw [if_neg hzero]
    dsimp only
    split
    · exact isWellFormed_positional (areDigits_digits _) (head?_digits_ne_zero hpos) _ _
    · exact isWellFormed_exponential (areDigits_digits _) (head?_digits_ne_zero hpos) _ _

/-! ### Digits as numbers -/

theorem accumulate_digits {digits : List Char} {start : Nat}
    (h : Nat.ofDigitChars 10 digits start ≤ Reader.Numeral.wordLimit) :
    Reader.Numeral.accumulate start (digits.map digitValue) =
      (Nat.ofDigitChars 10 digits start, 0) := by
  induction digits generalizing start with
  | nil => simp [Reader.Numeral.accumulate]
  | cons char rest ih =>
      have hstep : start * 10 + digitValue char = 10 * start + (char.toNat - '0'.toNat) := by
        rw [Nat.mul_comm]
        rfl
      rw [Nat.ofDigitChars_cons, ← hstep] at h ⊢
      have hle := (Text.le_ofDigitChars rest (start * 10 + digitValue char)).trans h
      rw [List.map_cons, Reader.Numeral.accumulate, if_neg (Nat.not_lt.2 hle), ih h]

theorem ofDigitChars_digits (number : Nat) :
    Nat.ofDigitChars 10 (Decimal.digits number) 0 = number := by
  have hdigits : Decimal.digits number = Nat.toDigits 10 number := Nat.toList_repr
  rw [hdigits, Nat.ofDigitChars_ten_toDigits]

end Literal

namespace Number

/-- A number as it is read from its text; one that has no text is read as nothing. -/
def draft : Number → Draft
  | .whole value => .number (Literal.ofWhole value).numeral.value
  | .real value =>
      match Decimal.Value.ofFloat value with
      | .finite number => .number (Literal.ofBinary number).numeral.value
      | _ => .null

theorem text_cases (number : Number) :
    (∃ literal : Literal, literal.IsWellFormed ∧ number.text.toList = literal.text ∧
      number.draft = .number literal.numeral.value) ∨
    number.text = "null" ∧ number.draft = .null := by
  cases number with
  | whole value =>
      exact .inl ⟨.ofWhole value, Literal.isWellFormed_ofWhole value,
        (Literal.text_ofWhole value).symm, rfl⟩
  | real value =>
      rw [text, realText?, draft]
      cases h : Decimal.Value.ofFloat value with
      | finite number =>
          exact .inl ⟨.ofBinary number,
            Literal.isWellFormed_ofBinary (Decimal.Binary.isDouble_of_ofBits h),
            (Literal.text_ofBinary number).symm, rfl⟩
      | undefined => exact .inr ⟨rfl, rfl⟩
      | infinite negative => exact .inr ⟨rfl, rfl⟩

theorem draft_whole {number : Nat} (h : number < Nat.pow 2 64) :
    (Number.whole number).draft = .number (.ok (.whole number)) := by
  have hle : Nat.ofDigitChars 10 (Decimal.digits number) 0 ≤ Reader.Numeral.wordLimit := by
    rw [Literal.ofDigitChars_digits]
    exact Nat.le_sub_one_of_lt h
  have hread := Literal.accumulate_digits hle
  rw [Literal.ofDigitChars_digits] at hread
  have hsign : ¬(number : Int) < 0 := by omega
  simp [draft, Literal.ofWhole, Literal.numeral, Reader.Numeral.value, hread, hsign]

end Number

end CodeAtlas.Json
