import CodeAtlas.Proofs.Binary64.Arithmetic
import CodeAtlas.Proofs.Json.DecodeRoundTrip
import CodeAtlas.Proofs.Json.Scaling

/-!
# Real numbers that are read back

The reader scales the digits of a number in floating-point arithmetic. What it gets is finite for
the text of a finite number, but it need not be that number.
-/

namespace CodeAtlas.Json

open Binary64
open Decimal (overflow)
open Float.Model (Format UnpackedFloat)
open Float.Model.UnpackedFloat (ofScientific)
open Reader.Numeral (powerOfTen scaled)

/-! ## Powers of ten -/

/-- A power of ten that is a floating-point number. -/
def isExactPower (power : ℕ) : Bool :=
  match (powerOfTen power).toModel.unpack with
  | .finite .positive significand exponent _ =>
      (Decimal.Binary.mk false significand exponent).fraction.1 =
        10 ^ power * (Decimal.Binary.mk false significand exponent).fraction.2
  | _ => false

theorem isExactPower_of_lt : ∀ power < 23, isExactPower power = true := by
  decide +kernel

theorem exists_unpack_powerOfTen {power : ℕ} (h : power < 23) :
    ∃ significand exponent hpos,
      (powerOfTen power).toModel.unpack = .finite .positive significand exponent hpos ∧
        significand * (2 : ℚ) ^ exponent = (10 ^ power : ℕ) := by
  have hexact := isExactPower_of_lt power h
  rw [isExactPower] at hexact
  split at hexact
  · next significand exponent hpos hunpack =>
      refine ⟨significand, exponent, hpos, hunpack, ?_⟩
      have hratio := Decimal.Binary.ratio_fraction (.mk false significand exponent)
      have hden : 0 < (Decimal.Binary.mk false significand exponent).fraction.2 :=
        Nat.pow_pos (by decide)
      rw [decide_eq_true_eq] at hexact
      rw [Decimal.ratio, hexact, Nat.cast_mul, mul_div_cancel_right₀ _
        (Nat.cast_ne_zero.2 hden.ne')] at hratio
      exact hratio.symm
  · cases hexact

theorem ten_pow_le_greatest : (10 : ℚ) ^ (308 : ℤ) ≤ (2 ^ 53 - 2) * (2 : ℚ) ^ (971 : ℤ) := by
  have hnat : 10 ^ 308 + 2 * 2 ^ 971 ≤ 2 ^ 53 * 2 ^ 971 := by decide +kernel
  rw [sub_mul, le_sub_iff_add_le]
  exact_mod_cast hnat

theorem ten_pow_lt_overflow {power : ℕ} (h : power ≤ 308) :
    ((10 ^ power : ℕ) : ℚ) < overflow := by
  calc ((10 ^ power : ℕ) : ℚ) = (10 : ℚ) ^ (power : ℤ) := by
        rw [zpow_natCast, Nat.cast_pow, Nat.cast_ofNat]
    _ ≤ (10 : ℚ) ^ (308 : ℤ) := zpow_le_zpow_right₀ (by norm_num) (by omega)
    _ ≤ (2 ^ 53 - 2) * (2 : ℚ) ^ (971 : ℤ) := ten_pow_le_greatest
    _ < overflow := mul_lt_mul_of_pos_right (by norm_num) (by positivity)

theorem isRounded_powerOfTen {power : ℕ} (h : power ≤ 308) :
    IsRounded .positive (10 ^ power : ℕ) (powerOfTen power).toModel.unpack := by
  rcases Nat.lt_or_ge power 23 with hsmall | hlarge
  · obtain ⟨significand, exponent, hpos, hunpack, hvalue⟩ := exists_unpack_powerOfTen hsmall
    have hself := isRounded_self (isDouble_of_unpack hunpack)
    rw [hvalue] at hself
    rw [hunpack]
    exact hself
  · have hrounded := @isRounded_ofScientific 1 power Nat.one_pos (by omega)
    rw [Nat.one_mul] at hrounded
    have hmodel : (powerOfTen power).toModel =
        .pack (ofScientific Format.binary64 1 power) := by
      rw [powerOfTen, Float.ofScientific, dif_neg (by omega)]
      rfl
    have hunpack : (powerOfTen power).toModel.unpack = ofScientific Format.binary64 1 power := by
      rw [hmodel]
      exact hrounded.unpack_pack (ten_pow_lt_overflow h)
    rw [hunpack]
    exact hrounded

theorem isFinite_powerOfTen {power : ℕ} (h : power ≤ 308) : (powerOfTen power).isFinite = true :=
  (isRounded_powerOfTen h).isFinite

theorem isAtLeastOne_powerOfTen {power : ℕ} (h : power ≤ 308) :
    IsAtLeastOne (powerOfTen power).toModel.unpack :=
  .inr ((isRounded_powerOfTen h).one_le_magnitude
    (by exact_mod_cast Nat.one_le_pow power 10 (by decide)))

/-! ## Words -/

theorem isRounded_toFloat (word : UInt64) :
    IsRounded .positive word.toNat word.toFloat.toModel.unpack := by
  rw [unpack_toFloat]
  exact isRounded_ofNat word.toNat

theorem isFinite_toFloat (word : UInt64) : word.toFloat.isFinite = true :=
  (isRounded_toFloat word).isFinite

/-! ## Scaling -/

theorem exists_scaled_of_neg {number : Float} {exponent : Int} (h : number.isFinite = true)
    (hexponent : exponent < 0) (rounds : ℕ) :
    ∃ result, scaled number rounds exponent = .ok result ∧ result.isFinite = true := by
  induction rounds generalizing number exponent with
  | zero => exact ⟨number, rfl, h⟩
  | succ rounds ih =>
      rw [scaled]
      split
      · next hsmall =>
          rw [if_neg (Int.not_le.2 hexponent)]
          exact ⟨_, rfl, isFinite_div h (isAtLeastOne_powerOfTen hsmall)⟩
      · next hlarge =>
          split
          · exact ⟨number, rfl, h⟩
          · rw [if_neg (Int.not_le.2 hexponent)]
            exact ih (isFinite_div h (isAtLeastOne_powerOfTen le_rfl)) (by omega)

theorem isInf_of_isFinite {number : Float} (h : number.isFinite = true) :
    number.isInf = false := by
  change number.toModel.unpack.isInf = false
  rcases unpack_of_isFinite h with ⟨sign, hn⟩ | ⟨sign, significand, exponent, hpos, hn⟩ <;>
    rw [hn] <;> rfl

theorem scaled_of_nonneg {number : Float} {exponent : Int} (hexponent : 0 ≤ exponent)
    (hle : exponent ≤ 308) (h : (number * powerOfTen exponent.natAbs).isFinite = true)
    (rounds : ℕ) :
    scaled number (rounds + 1) exponent = .ok (number * powerOfTen exponent.natAbs) := by
  rw [scaled, if_pos (by omega), if_pos hexponent]
  dsimp only
  rw [isInf_of_isFinite h, if_neg Bool.false_ne_true]

theorem magnitude_product_le {word : UInt64} {power : ℕ} (hword : 0 < word.toNat)
    (hpower : power ≤ 308) :
    magnitude word.toFloat.toModel.unpack * magnitude (powerOfTen power).toModel.unpack ≤
      word.toNat * (10 : ℚ) ^ power * (1 + 1 / 2 ^ 53) ^ 2 := by
  have hleast : (2 : ℚ) ^ (-1022 : ℤ) ≤ 1 := by
    rw [zpow_neg]
    exact inv_le_one_of_one_le₀ (one_le_zpow₀ (by norm_num) (by norm_num))
  have hfirst : (1 : ℚ) ≤ word.toNat := by exact_mod_cast hword
  have hsecond : (1 : ℚ) ≤ (10 ^ power : ℕ) := by
    exact_mod_cast Nat.one_le_pow power 10 (by decide)
  have hle := (isRounded_toFloat word).magnitude_le (hleast.trans hfirst)
  have hle' := (isRounded_powerOfTen hpower).magnitude_le (hleast.trans hsecond)
  have hpos := (isRounded_powerOfTen hpower).one_le_magnitude hsecond
  calc magnitude word.toFloat.toModel.unpack * magnitude (powerOfTen power).toModel.unpack
      ≤ word.toNat * (1 + 1 / 2 ^ 53) * ((10 ^ power : ℕ) * (1 + 1 / 2 ^ 53)) :=
        mul_le_mul hle hle' (by linarith) (by positivity)
    _ = word.toNat * (10 : ℚ) ^ power * (1 + 1 / 2 ^ 53) ^ 2 := by
        push_cast
        ring

/-! ## Finite numbers -/

theorem shortest_greatest (negative : Bool) {below : ℕ} (h : below < 2) :
    Decimal.shortest ⟨negative, 2 ^ 53 - 1 - below, 971⟩ =
      ⟨17976931348623157 - 2 * below, 292⟩ := by
  have hdouble : (Decimal.Binary.mk negative (2 ^ 53 - 1 - below) 971).IsDouble :=
    ⟨by simp only; omega, by simp only; omega, by norm_num, by norm_num, .inr (by simp only; omega)⟩
  have hleading : Decimal.leadingExponent
      (Decimal.Binary.mk negative (2 ^ 53 - 1 - below) 971).fraction = 308 := by
    have hsignificand : (2 : ℚ) ^ 53 - 2 ≤ (2 ^ 53 - 1 - below : ℕ) := by
      rw [Nat.cast_sub (by omega)]
      have hbelow : (below : ℚ) ≤ 1 := by exact_mod_cast Nat.le_of_lt_succ h
      norm_num
      linarith
    refine hdouble.leadingExponent_eq (ten_pow_le_greatest.trans
      (mul_le_mul_of_nonneg_right hsignificand (by positivity))) ?_
    exact (Decimal.Binary.magnitude_le_upper _).trans_lt
      (hdouble.upper_le.trans_lt Decimal.overflow_lt_ten_pow)
  have hsearch : ∀ below < 2, Decimal.Shortest.trimZeros 18 (Decimal.Shortest.fromLength
      ⟨negative, 2 ^ 53 - 1 - below, 971⟩ 308 18 1) = ⟨17976931348623157 - 2 * below, 292⟩ := by
    cases negative <;> decide +kernel
  rw [Decimal.shortest, hleading]
  exact hsearch below h

theorem isFinite_product_greatest : ∀ below < 2,
    ((UInt64.ofNat (Number.written ⟨17976931348623157 - 2 * below, 292⟩).digits).toFloat *
      powerOfTen (Number.written ⟨17976931348623157 - 2 * below, 292⟩).exponent.natAbs).isFinite =
        true := by
  decide +kernel

theorem upper_of_not_greatest {number : Decimal.Binary} (h : number.IsDouble)
    (hne : number.significand + 2 < 2 ^ 53 ∨ number.exponent < 971) :
    number.upper ≤ (2 ^ 53 - 5 / 2) * (2 : ℚ) ^ (971 : ℤ) := by
  have hpos : (0 : ℚ) < (2 : ℚ) ^ (970 : ℤ) := by positivity
  have hsucc : (2 : ℚ) ^ (971 : ℤ) = 2 * (2 : ℚ) ^ (970 : ℤ) := by
    rw [← zpow_one_add₀ (by norm_num)]
    rfl
  rcases hne with hsmall | hsmall
  · have hsignificand : (number.significand : ℚ) + 2 + 1 ≤ 2 ^ 53 := by exact_mod_cast hsmall
    exact mul_le_mul (by linarith) (zpow_le_zpow_right₀ (by norm_num) h.exponent_le)
      (by positivity) (by norm_num)
  · have hsignificand : (number.significand : ℚ) + 1 ≤ 2 ^ 53 := by exact_mod_cast h.lt
    calc number.upper ≤ (2 ^ 53 - 1 / 2) * (2 : ℚ) ^ (970 : ℤ) :=
          mul_le_mul (by linarith) (zpow_le_zpow_right₀ (by norm_num) (by omega))
            (by positivity) (by norm_num)
      _ ≤ (2 ^ 53 - 5 / 2) * (2 : ℚ) ^ (971 : ℤ) := by
          rw [hsucc]
          generalize (2 : ℚ) ^ (970 : ℤ) = unit at hpos
          linarith

theorem isFinite_product {number : Decimal.Binary} (h : number.IsDouble)
    (hpower : 0 ≤ (Literal.ofBinary number).power) :
    ((UInt64.ofNat (Literal.ofBinary number).significand).toFloat *
      powerOfTen (Literal.ofBinary number).power.natAbs).isFinite = true := by
  by_cases hne : number.significand + 2 < 2 ^ 53 ∨ number.exponent < 971
  · have hmagnitude := Literal.magnitude_ofBinary h.pos.ne'
    have hle := Literal.significand_ofBinary_le fun _ => h
    have hpower' := (Literal.power_ofBinary_bounds fun _ => h).2
    have hupper := (Decimal.shortest_spec h).1.bounds.2.trans (upper_of_not_greatest h hne)
    have hpos := h.lower_pos.trans_le (Decimal.shortest_spec h).1.bounds.1
    rw [← hmagnitude] at hupper hpos
    generalize (Literal.ofBinary number).significand = significand at *
    generalize (Literal.ofBinary number).power = power at *
    have hword : (UInt64.ofNat significand).toNat = significand :=
      UInt64.toNat_ofNat_of_lt' (hle.trans_lt (by decide))
    have hsignificand : 0 < significand := by
      rw [Nat.pos_iff_ne_zero]
      rintro rfl
      simp at hpos
    have hnatural : (10 : ℚ) ^ power.natAbs = (10 : ℚ) ^ power := by
      rw [← zpow_natCast, Int.natAbs_of_nonneg hpower]
    have hproduct := @magnitude_product_le (UInt64.ofNat significand) power.natAbs
      (by rwa [hword]) (by omega)
    rw [hword, hnatural] at hproduct
    refine isFinite_mul (isFinite_toFloat _) (isFinite_powerOfTen (by omega)) (hproduct.trans_lt ?_)
    calc significand * (10 : ℚ) ^ power * (1 + 1 / 2 ^ 53) ^ 2
        ≤ (2 ^ 53 - 5 / 2) * (2 : ℚ) ^ (971 : ℤ) * (1 + 1 / 2 ^ 53) ^ 2 :=
          mul_le_mul_of_nonneg_right hupper (by positivity)
      _ = (2 ^ 53 - 5 / 2) * (1 + 1 / 2 ^ 53) ^ 2 * (2 : ℚ) ^ (971 : ℤ) := by ring
      _ < overflow := mul_lt_mul_of_pos_right (by norm_num) (by positivity)
  · obtain ⟨negative, significand, exponent⟩ := number
    have hlt : significand < 2 ^ 53 := h.lt
    have hle : exponent ≤ 971 := h.exponent_le
    simp only [not_or, not_lt] at hne
    obtain rfl : exponent = 971 := by omega
    obtain ⟨below, hbelow, rfl⟩ : ∃ below < 2, significand = 2 ^ 53 - 1 - below :=
      ⟨2 ^ 53 - 1 - significand, by omega, by omega⟩
    obtain ⟨hsignificand, hpower⟩ := Literal.significand_ofBinary h.pos.ne'
    rw [hsignificand, hpower, shortest_greatest negative hbelow]
    exact isFinite_product_greatest below hbelow

theorem exists_scaled_ofBinary {number : Decimal.Binary}
    (h : 0 < number.significand → number.IsDouble) :
    ∃ result, scaled (UInt64.ofNat (Literal.ofBinary number).significand).toFloat 8
      (Literal.ofBinary number).power = .ok result ∧ result.isFinite = true := by
  rcases lt_or_ge (Literal.ofBinary number).power 0 with hnegative | hnonneg
  · exact exists_scaled_of_neg (isFinite_toFloat _) hnegative 8
  · have hne : number.significand ≠ 0 := by
      intro hzero
      rw [(Literal.significand_ofBinary_zero hzero).2] at hnonneg
      exact absurd hnonneg (by decide)
    have hproduct := isFinite_product (h (Nat.pos_of_ne_zero hne)) hnonneg
    exact ⟨_, scaled_of_nonneg hnonneg (Literal.power_ofBinary_bounds h).2 hproduct 7, hproduct⟩

theorem exists_ofFloat_of_isFinite {number : Float} (h : number.isFinite = true) :
    ∃ binary, Decimal.Value.ofFloat number = .finite binary := by
  rw [ofFloat_eq_toValue]
  rcases unpack_of_isFinite h with ⟨sign, hn⟩ | ⟨sign, significand, exponent, hpos, hn⟩ <;>
    exact ⟨_, congrArg toValue hn⟩

theorem reread_eq {number result : Float} {binary : Decimal.Binary}
    (h : Decimal.Value.ofFloat number = .finite binary)
    (hresult : scaled (UInt64.ofNat (Literal.ofBinary binary).significand).toFloat 8
      (Literal.ofBinary binary).power = .ok result) :
    reread number = .ok (Reader.Numeral.signed binary.negative result) := by
  have hnegative : (Literal.ofBinary binary).numeral.negative = binary.negative :=
    Literal.negative_ofBinary binary
  have hvalue := Literal.value_ofBinary (Decimal.Binary.isDouble_of_ofBits h)
  rw [Reader.Numeral.finish, hresult, hnegative] at hvalue
  rw [← Decoder.real_draft .value, Number.draft, h]
  dsimp only
  rw [hvalue]
  rfl

theorem exists_reread {number : Float} (h : number.isFinite = true) :
    ∃ result, reread number = .ok result ∧ result.isFinite = true := by
  obtain ⟨binary, hbinary⟩ := exists_ofFloat_of_isFinite h
  obtain ⟨result, hresult, hfinite⟩ :=
    exists_scaled_ofBinary (Decimal.Binary.isDouble_of_ofBits hbinary)
  refine ⟨_, reread_eq hbinary hresult, ?_⟩
  rw [Reader.Numeral.signed]
  split
  · exact isFinite_neg hfinite
  · exact hfinite

/-! ## Numbers that are read back as they were -/

/-- A text whose digits and whose power of ten are floating-point numbers both. -/
structure IsExactText (number : Decimal.Binary) : Prop where
  significand_le : (Literal.ofBinary number).significand ≤ 2 ^ 53
  power_le : (Literal.ofBinary number).power.natAbs ≤ 22

/-- A result that has been rounded once, from within the interval of a number, is that number. -/
theorem unpack_of_holds {number : Decimal.Binary} (h : number.IsDouble) {value : ℚ}
    (hholds : number.Holds value) {rounded : UnpackedFloat} {result : Float}
    (hresult : result.toModel = .pack rounded) (hrounded : IsRounded .positive value rounded) :
    result.toModel.unpack = .finite .positive number.significand number.exponent h.pos := by
  obtain ⟨negative, significand, exponent⟩ := number
  rw [hresult, hrounded.eq_of_holds h hholds]
  exact unpack_pack_finite ⟨h.pos, h.lt, h.le_exponent, h.exponent_le, h.normal⟩

/-- Digits and a power of ten that are floating-point numbers are rounded once, by the division or
the multiplication. -/
theorem scaled_of_isExactText {number : Decimal.Binary} (h : number.IsDouble)
    (hexact : IsExactText number) :
    ∃ result, scaled (UInt64.ofNat (Literal.ofBinary number).significand).toFloat 8
      (Literal.ofBinary number).power = .ok result ∧
        result.toModel.unpack = .finite .positive number.significand number.exponent h.pos := by
  have hholds := (Decimal.shortest_spec h).1
  have hpos := h.lower_pos.trans_le hholds.bounds.1
  rw [← Literal.magnitude_ofBinary h.pos.ne'] at hholds hpos
  obtain ⟨hsignificand, hpower⟩ := hexact
  obtain ⟨second, exponent', hsecond, hunpack', hvalue'⟩ := exists_unpack_powerOfTen
    (Nat.lt_succ_of_le hpower)
  have hproduct := isFinite_product h
  generalize (Literal.ofBinary number).significand = significand at *
  generalize (Literal.ofBinary number).power = power at *
  have hword : (UInt64.ofNat significand).toNat = significand :=
    UInt64.toNat_ofNat_of_lt' (hsignificand.trans_lt (by decide))
  have hrounded := isRounded_toFloat (UInt64.ofNat significand)
  rw [hword] at hrounded
  have hmagnitude := hrounded.magnitude_natCast hsignificand
  obtain ⟨first, exponent, hfirst, hunpack⟩ := hrounded.exists_eq_finite (by
    rw [hmagnitude]
    rintro hzero
    rw [hzero, zero_mul] at hpos
    exact lt_irrefl _ hpos)
  rw [hunpack, magnitude] at hmagnitude
  rcases lt_or_ge power 0 with hnegative | hnonneg
  · have hdiv := @isRounded_div first second exponent exponent' .positive .positive hfirst hsecond
    have hcount : (power.natAbs : ℤ) = -power := by omega
    have hten : (significand : ℚ) / (10 ^ power.natAbs : ℕ) = significand * (10 : ℚ) ^ power := by
      rw [Nat.cast_pow, Nat.cast_ofNat, ← zpow_natCast, hcount, zpow_neg, div_inv_eq_mul]
    rw [hmagnitude, hvalue', hten] at hdiv
    refine ⟨(UInt64.ofNat significand).toFloat / powerOfTen power.natAbs, ?_,
      unpack_of_holds h hholds ?_ hdiv⟩
    · rw [scaled, if_pos (by omega), if_neg (Int.not_le.2 hnegative)]
    · rw [← hunpack, ← hunpack']
      rfl
  · have hmul := isRounded_mul (isDouble_of_unpack hunpack) (isDouble_of_unpack hunpack')
    have hten : ((10 ^ power.natAbs : ℕ) : ℚ) = (10 : ℚ) ^ power := by
      rw [Nat.cast_pow, Nat.cast_ofNat, ← zpow_natCast, Int.natAbs_of_nonneg hnonneg]
    rw [hmagnitude, hvalue', hten] at hmul
    refine ⟨_, scaled_of_nonneg hnonneg (by omega) (hproduct hnonneg) 7,
      unpack_of_holds h hholds ?_ hmul⟩
    rw [← hunpack, ← hunpack']
    rfl

theorem ofFloat_signed_finite {result : Float} {significand : ℕ} {exponent : ℤ}
    {hpos : 0 < significand} (negative : Bool)
    (h : result.toModel.unpack = .finite .positive significand exponent hpos) :
    Decimal.Value.ofFloat (Reader.Numeral.signed negative result) =
      .finite ⟨negative, significand, exponent⟩ := by
  rw [ofFloat_eq_toValue]
  cases negative with
  | false => exact congrArg toValue h
  | true => exact congrArg toValue (unpack_neg_finite h)

theorem ofFloat_signed_zero {result : Float} (negative : Bool)
    (h : result.toModel.unpack = .zero .positive) :
    Decimal.Value.ofFloat (Reader.Numeral.signed negative result) =
      .finite ⟨negative, 0, -1074⟩ := by
  rw [ofFloat_eq_toValue]
  cases negative with
  | false => exact congrArg toValue h
  | true => exact congrArg toValue (unpack_neg_zero h)

theorem exponent_of_zero {number : Float} {binary : Decimal.Binary}
    (h : Decimal.Value.ofFloat number = .finite binary) (hzero : binary.significand = 0) :
    binary = ⟨binary.negative, 0, -1074⟩ := by
  rw [ofFloat_eq_toValue] at h
  cases hn : number.toModel.unpack with
  | notANumber => rw [hn] at h; cases h
  | infinity sign => rw [hn] at h; cases h
  | zero sign => rw [hn] at h; cases h; rfl
  | finite sign significand exponent hpos => rw [hn] at h; cases h; exact absurd hzero hpos.ne'

theorem reread_of_isExactText {number : Float} {binary : Decimal.Binary}
    (h : Decimal.Value.ofFloat number = .finite binary) (hexact : IsExactText binary) :
    reread number = .ok number := by
  rcases Nat.eq_zero_or_pos binary.significand with hzero | hpos
  · obtain ⟨hsignificand, hpower⟩ := Literal.significand_ofBinary_zero hzero
    have hscaled : scaled (UInt64.ofNat (Literal.ofBinary binary).significand).toFloat 8
        (Literal.ofBinary binary).power = .ok ((UInt64.ofNat 0).toFloat / powerOfTen 1) := by
      rw [hsignificand, hpower]
      rfl
    have hresult := @ofFloat_signed_zero ((UInt64.ofNat 0).toFloat / powerOfTen 1) binary.negative rfl
    rw [← exponent_of_zero h hzero] at hresult
    rw [reread_eq h hscaled, eq_of_ofFloat hresult h]
  · have hdouble := Decimal.Binary.isDouble_of_ofBits h hpos
    obtain ⟨result, hscaled, hunpack⟩ := scaled_of_isExactText hdouble hexact
    rw [reread_eq h hscaled, eq_of_ofFloat (ofFloat_signed_finite binary.negative hunpack) h]

/-- A finite number whose text is exact, as those with up to fifteen digits are whose power of ten
is small. -/
def IsExact (number : Float) : Prop :=
  ∃ binary, Decimal.Value.ofFloat number = .finite binary ∧ IsExactText binary

theorem reread_of_isExact {number : Float} (h : IsExact number) : reread number = .ok number := by
  obtain ⟨binary, hbinary, hexact⟩ := h
  exact reread_of_isExactText hbinary hexact

end CodeAtlas.Json
