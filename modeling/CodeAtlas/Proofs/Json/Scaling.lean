import CodeAtlas.Proofs.Json.NumberRoundTrip
import Mathlib.Tactic.Ring

/-!
# Written numbers as scaled words

A real number is read as one machine word, made of all its digits, that is scaled by a power of ten.
-/

namespace CodeAtlas.Json

open Reader

namespace Literal

/-- All digits of a literal as one number. -/
def significand (literal : Literal) : Nat :=
  Nat.ofDigitChars 10 (literal.whole ++ literal.fraction.getD []) 0

/-- The exponent of a literal as a number. -/
def exponentValue : Option (Bool × List Char) → Int
  | none => 0
  | some (true, digits) => -(Nat.ofDigitChars 10 digits 0)
  | some (false, digits) => Nat.ofDigitChars 10 digits 0

/-- The power of ten by which the significand is scaled. -/
def power (literal : Literal) : Int :=
  exponentValue literal.exponent - (literal.fraction.getD []).length

variable {literal : Literal}

theorem accumulate_whole (h : literal.significand ≤ Numeral.wordLimit) :
    Numeral.accumulate 0 (literal.whole.map digitValue) =
      (Nat.ofDigitChars 10 literal.whole 0, 0) := by
  rw [significand, Nat.ofDigitChars_append] at h
  exact accumulate_digits ((Text.le_ofDigitChars _ _).trans h)

theorem foldl_exponentOf {digits : List Char} {start : Nat}
    (h : Nat.ofDigitChars 10 digits start ≤ Numeral.exponentLimit) :
    (digits.map digitValue).foldl (fun number digit =>
      match number with
      | none => none
      | some number =>
          if Numeral.exponentLimit < number * 10 + digit then none
          else some (number * 10 + digit)) (some start) =
      some (Nat.ofDigitChars 10 digits start) := by
  induction digits generalizing start with
  | nil => simp
  | cons char rest ih =>
      have hstep : start * 10 + digitValue char = 10 * start + (char.toNat - '0'.toNat) := by
        rw [Nat.mul_comm]
        rfl
      rw [Nat.ofDigitChars_cons, ← hstep] at h ⊢
      have hle := (Text.le_ofDigitChars rest (start * 10 + digitValue char)).trans h
      rw [List.map_cons, List.foldl_cons]
      dsimp only
      rw [if_neg (Nat.not_lt.2 hle), ih h]

theorem exponentOf_digits {digits : List Char}
    (h : Nat.ofDigitChars 10 digits 0 ≤ Numeral.exponentLimit) :
    Numeral.exponentOf (digits.map digitValue) = some (Nat.ofDigitChars 10 digits 0) :=
  foldl_exponentOf h

theorem clamp_eq {exponent : Int} (h : exponent.natAbs ≤ Numeral.exponentLimit) :
    Numeral.clamp exponent = exponent := by
  rw [Numeral.clamp]
  omega

theorem start_numeral (h : literal.significand ≤ Numeral.wordLimit) :
    Numeral.start literal.numeral (Nat.ofDigitChars 10 literal.whole 0) 0 =
      (literal.significand, -((literal.fraction.getD []).length : Int)) := by
  rw [significand, Nat.ofDigitChars_append] at h ⊢
  rw [Numeral.start]
  cases hf : literal.fraction with
  | none => simp [numeral, hf]
  | some digits =>
      rw [hf, Option.getD_some] at h
      simp [numeral, hf, accumulate_digits h]

theorem value_numeral (hreal : literal.fraction.isSome ∨ literal.exponent.isSome)
    (hsignificand : literal.significand ≤ Numeral.wordLimit)
    (hexponent : (exponentValue literal.exponent).natAbs ≤ Numeral.exponentLimit)
    (hpower : literal.power.natAbs ≤ Numeral.exponentLimit) :
    literal.numeral.value = Numeral.finish literal.numeral literal.significand literal.power := by
  have hcond : (literal.numeral.fraction.isNone && literal.numeral.exponent.isNone) = false := by
    rcases hreal with h | h
    · obtain ⟨digits, hf⟩ := Option.isSome_iff_exists.1 h
      simp [numeral, hf]
    · obtain ⟨parts, he⟩ := Option.isSome_iff_exists.1 h
      simp [numeral, he]
  have hwhole : Numeral.accumulate 0 literal.numeral.whole =
      (Nat.ofDigitChars 10 literal.whole 0, 0) := accumulate_whole hsignificand
  have hvalue : literal.numeral.value =
      Numeral.realValue literal.numeral (Nat.ofDigitChars 10 literal.whole 0) 0 := by
    simp only [Numeral.value, hwhole, hcond, Bool.false_and, Bool.false_eq_true, if_false]
  rw [hvalue, Numeral.realValue, start_numeral hsignificand]
  dsimp only
  cases he : literal.exponent with
  | none =>
      have hexponent' : literal.numeral.exponent = none := by rw [numeral, he]; rfl
      rw [hexponent', power, he, exponentValue, Int.zero_sub]
  | some parts =>
      obtain ⟨isNegative, digits⟩ := parts
      have hexponent' : literal.numeral.exponent = some (isNegative, digits.map digitValue) := by
        rw [numeral, he]
        rfl
      have hdigits : Nat.ofDigitChars 10 digits 0 ≤ Numeral.exponentLimit := by
        rw [he] at hexponent
        cases isNegative <;> simpa [exponentValue] using hexponent
      have hsum : (if isNegative then
            -((literal.fraction.getD []).length : Int) - (Nat.ofDigitChars 10 digits 0 : Nat)
          else -((literal.fraction.getD []).length : Int) + (Nat.ofDigitChars 10 digits 0 : Nat)) =
          literal.power := by
        rw [power, he]
        cases isNegative
        · rw [exponentValue, if_neg Bool.false_ne_true]
          omega
        · rw [exponentValue, if_pos rfl]
          omega
      rw [hexponent']
      dsimp only
      rw [exponentOf_digits hdigits]
      dsimp only
      rw [hsum, clamp_eq hpower]

end Literal

/-! ## Decimals as they are written -/

namespace Number

/-- A decimal as its text has it. One that is whole gets a zero behind the point. -/
def written (short : Decimal.Short) : Decimal.Short :=
  if 0 ≤ short.exponent ∧
      isPositional ((Decimal.digits short.digits).length + short.exponent) then
    ⟨short.digits * 10 ^ (short.exponent + 1).toNat, -1⟩
  else short

theorem magnitude_written (short : Decimal.Short) :
    (written short).magnitude = short.magnitude := by
  rw [written]
  split
  · next h =>
      have hexponent : ((short.exponent + 1).toNat : ℤ) = short.exponent + 1 := by
        omega
      rw [Decimal.Short.magnitude, Decimal.Short.magnitude, Nat.cast_mul, Nat.cast_pow,
        Nat.cast_ofNat, ← zpow_natCast, hexponent, mul_assoc, ← zpow_add₀ (by norm_num),
        add_neg_cancel_right]
  · rfl

theorem digits_written_le {short : Decimal.Short} (h : short.digits ≤ 10 ^ 17) :
    (written short).digits ≤ 10 ^ 17 := by
  rw [written]
  split
  · next hpositional =>
      obtain ⟨hnonneg, hpoint⟩ := hpositional
      have hdigits : Decimal.digits short.digits = Nat.toDigits 10 short.digits := Nat.toList_repr
      rw [hdigits, isPositional, Bool.and_eq_true, decide_eq_true_eq, decide_eq_true_eq] at hpoint
      have hlt : short.digits < 10 ^ (Nat.toDigits 10 short.digits).length :=
        (Nat.length_toDigits_le_iff (by decide) Nat.length_toDigits_pos).1 le_rfl
      calc short.digits * 10 ^ (short.exponent + 1).toNat
          ≤ 10 ^ (Nat.toDigits 10 short.digits).length * 10 ^ (short.exponent + 1).toNat :=
            Nat.mul_le_mul_right _ hlt.le
        _ = 10 ^ ((Nat.toDigits 10 short.digits).length + (short.exponent + 1).toNat) :=
            (Nat.pow_add 10 _ _).symm
        _ ≤ 10 ^ 17 := Nat.pow_le_pow_right (by decide) (by omega)
  · exact h

end Number

namespace Literal

open Number (written)

variable {digits : List Char} {exponent : Int}

theorem significand_positional_whole (negative : Bool) (hd : digits ≠ []) (h : 0 ≤ exponent) :
    (positional negative digits (digits.length + exponent)).significand =
        Nat.ofDigitChars 10 digits 0 * 10 ^ (exponent + 1).toNat ∧
      (positional negative digits (digits.length + exponent)).power = -1 := by
  have hlength := List.length_pos_iff.2 hd
  have hzeros : (digits.length + exponent).toNat - digits.length + 1 = (exponent + 1).toNat := by
    omega
  rw [positional, if_neg (by omega), if_pos (by omega)]
  refine ⟨?_, rfl⟩
  rw [significand, Option.getD_some, Nat.ofDigitChars_append, Nat.ofDigitChars_append,
    Nat.ofDigitChars_replicate_zero, ← hzeros, Nat.pow_succ, Nat.ofDigitChars_cons,
    Nat.ofDigitChars_nil, Nat.sub_self, Nat.add_zero]
  ring

theorem significand_positional (negative : Bool) (h : exponent < 0) :
    (positional negative digits (digits.length + exponent)).significand =
        Nat.ofDigitChars 10 digits 0 ∧
      (positional negative digits (digits.length + exponent)).power = exponent := by
  rw [positional]
  split
  · refine ⟨?_, ?_⟩
    · rw [significand, Option.getD_some, Nat.ofDigitChars_append, Nat.ofDigitChars_append,
        Nat.ofDigitChars_replicate_zero]
      rfl
    · rw [power, Option.getD_some, List.length_append, List.length_replicate, exponentValue]
      omega
  · rw [if_neg (by omega)]
    refine ⟨?_, ?_⟩
    · rw [significand, Option.getD_some, List.take_append_drop]
    · rw [power, Option.getD_some, List.length_drop, exponentValue]
      omega

theorem exponentValue_digits (value : Int) :
    exponentValue (some (decide (value < 0), Decimal.digits value.natAbs)) = value := by
  by_cases hnegative : value < 0
  · rw [decide_eq_true hnegative, exponentValue, ofDigitChars_digits]
    omega
  · rw [decide_eq_false hnegative, exponentValue, ofDigitChars_digits]
    omega

theorem significand_exponential (negative : Bool) (hd : digits ≠ []) :
    (exponential negative digits (digits.length + exponent)).significand =
        Nat.ofDigitChars 10 digits 0 ∧
      (exponential negative digits (digits.length + exponent)).power = exponent := by
  have hlength := List.length_pos_iff.2 hd
  have hfraction : ((exponential negative digits (digits.length + exponent)).fraction).getD [] =
      digits.drop 1 := by
    rw [exponential]
    by_cases hone : digits.length = 1
    · rw [if_pos hone, List.drop_eq_nil_of_le hone.le]
      rfl
    · rw [if_neg hone]
      rfl
  refine ⟨?_, ?_⟩
  · rw [significand, hfraction, exponential, List.take_append_drop]
  · rw [power, hfraction, exponential, exponentValue_digits, List.length_drop]
    omega

theorem significand_ofBinary_zero {number : Decimal.Binary} (h : number.significand = 0) :
    (ofBinary number).significand = 0 ∧ (ofBinary number).power = -1 := by
  rw [ofBinary, if_pos h]
  exact ⟨rfl, rfl⟩

theorem significand_ofBinary {number : Decimal.Binary} (h : number.significand ≠ 0) :
    (ofBinary number).significand = (written (Decimal.shortest number)).digits ∧
      (ofBinary number).power = (written (Decimal.shortest number)).exponent := by
  have hvalue := ofDigitChars_digits (Decimal.shortest number).digits
  have hdigits := (areDigits_digits (Decimal.shortest number).digits).ne_nil
  rw [ofBinary, if_neg h]
  dsimp only
  by_cases hpoint : Number.isPositional
      ((Decimal.digits (Decimal.shortest number).digits).length + (Decimal.shortest number).exponent)
  · rw [if_pos hpoint]
    by_cases hwhole : 0 ≤ (Decimal.shortest number).exponent
    · rw [written, if_pos ⟨hwhole, hpoint⟩]
      obtain ⟨hsignificand, hpower⟩ :=
        significand_positional_whole number.negative hdigits hwhole
      exact ⟨hsignificand.trans (congrArg (· * _) hvalue), hpower⟩
    · rw [written, if_neg fun h => hwhole h.1]
      obtain ⟨hsignificand, hpower⟩ :=
        significand_positional number.negative (Int.not_le.1 hwhole)
      exact ⟨hsignificand.trans hvalue, hpower⟩
  · rw [if_neg hpoint, written, if_neg fun h => hpoint h.2]
    obtain ⟨hsignificand, hpower⟩ := significand_exponential number.negative hdigits
    exact ⟨hsignificand.trans hvalue, hpower⟩

theorem exponent_positional (negative : Bool) (digits : List Char) (point : Int) :
    (positional negative digits point).exponent = none := by
  rw [positional]
  split
  · rfl
  split <;> rfl

theorem isSome_fraction_positional (negative : Bool) (digits : List Char) (point : Int) :
    (positional negative digits point).fraction.isSome := by
  rw [positional]
  split
  · rfl
  split <;> rfl

theorem isSome_ofBinary (number : Decimal.Binary) :
    (ofBinary number).fraction.isSome ∨ (ofBinary number).exponent.isSome := by
  rw [ofBinary]
  split
  · exact .inl rfl
  dsimp only
  split
  · exact .inl (isSome_fraction_positional _ _ _)
  · exact .inr rfl

variable {number : Decimal.Binary}

theorem negative_positional (negative : Bool) (digits : List Char) (point : Int) :
    (positional negative digits point).negative = negative := by
  rw [positional]
  split
  · rfl
  split <;> rfl

theorem negative_ofBinary (number : Decimal.Binary) :
    (ofBinary number).negative = number.negative := by
  rw [ofBinary]
  split
  · rfl
  dsimp only
  split
  · exact negative_positional _ _ _
  · rfl

theorem exponentValue_ofBinary_le (h : 0 < number.significand → number.IsDouble) :
    (exponentValue (ofBinary number).exponent).natAbs ≤ 359 := by
  rw [ofBinary]
  split
  · exact Nat.zero_le _
  next hne =>
  have hdouble := h (Nat.pos_of_ne_zero hne)
  obtain ⟨hlower, hupper⟩ := Decimal.shortest_exponent_bounds hdouble
  have hdigits : Decimal.digits (Decimal.shortest number).digits =
      Nat.toDigits 10 (Decimal.shortest number).digits := Nat.toList_repr
  have hlength : (Decimal.digits (Decimal.shortest number).digits).length ≤ 18 := by
    rw [hdigits, Nat.length_toDigits_le_iff (by decide) (by decide)]
    exact (Decimal.shortest_spec hdouble).2.trans_lt (by decide)
  dsimp only
  split
  · rw [exponent_positional]
    exact Nat.zero_le _
  · rw [exponential, exponentValue_digits]
    omega

theorem significand_ofBinary_le (h : 0 < number.significand → number.IsDouble) :
    (ofBinary number).significand ≤ 10 ^ 17 := by
  by_cases hzero : number.significand = 0
  · rw [(significand_ofBinary_zero hzero).1]
    exact Nat.zero_le _
  · rw [(significand_ofBinary hzero).1]
    exact Number.digits_written_le (Decimal.shortest_spec (h (Nat.pos_of_ne_zero hzero))).2

theorem power_ofBinary_bounds (h : 0 < number.significand → number.IsDouble) :
    -341 ≤ (ofBinary number).power ∧ (ofBinary number).power ≤ 308 := by
  by_cases hzero : number.significand = 0
  · rw [(significand_ofBinary_zero hzero).2]
    decide
  · rw [(significand_ofBinary hzero).2, written]
    split
    · exact ⟨by norm_num, by norm_num⟩
    · exact Decimal.shortest_exponent_bounds (h (Nat.pos_of_ne_zero hzero))

theorem value_ofBinary (h : 0 < number.significand → number.IsDouble) :
    (ofBinary number).numeral.value =
      Numeral.finish (ofBinary number).numeral (ofBinary number).significand
        (ofBinary number).power := by
  obtain ⟨hlower, hupper⟩ := power_ofBinary_bounds h
  refine value_numeral (isSome_ofBinary number) ((significand_ofBinary_le h).trans (by decide))
    ((exponentValue_ofBinary_le h).trans (by decide)) ?_
  exact (by omega : (ofBinary number).power.natAbs ≤ 341).trans (by decide)

theorem magnitude_ofBinary (hne : number.significand ≠ 0) :
    (ofBinary number).significand * (10 : ℚ) ^ (ofBinary number).power =
      (Decimal.shortest number).magnitude := by
  obtain ⟨hsignificand, hpower⟩ := significand_ofBinary hne
  rw [hsignificand, hpower]
  exact Number.magnitude_written _

end Literal

end CodeAtlas.Json
