import CodeAtlas.Proofs.Binary64.Packing

/-!
# Products and quotients

A product or a quotient is the exact one, rounded. It stays finite below the number halfway between
the greatest one and the next that would follow it.
-/

namespace CodeAtlas.Binary64

open Float.Model (Format UnpackedFloat totalExponent)
open Float.Model.UnpackedFloat
open Decimal (IsNearest overflow)

variable {sign other : Sign} {first second : ℕ} {exponent exponent' place : ℤ} {value : ℚ}

/-! ## Exact results, rounded -/

theorem isPrecise_mul (h : (Decimal.Binary.mk (isNegative sign) first exponent).IsDouble)
    (h' : (Decimal.Binary.mk (isNegative other) second exponent').IsDouble) :
    IsPrecise (first * second) (exponent + exponent') := by
  have hfirst : 0 < first := h.pos
  have hsecond : 0 < second := h'.pos
  rcases h.normal with hleast | hnormal
  · rcases h'.normal with hleast' | hnormal'
    · simp only at hleast hleast'
      exact .inr (by omega)
    · exact .inl (hnormal'.trans (Nat.le_mul_of_pos_left second hfirst))
  · exact .inl (hnormal.trans (Nat.le_mul_of_pos_right first hsecond))

theorem isRounded_mul (h : (Decimal.Binary.mk (isNegative sign) first exponent).IsDouble)
    (h' : (Decimal.Binary.mk (isNegative other) second exponent').IsDouble) :
    IsRounded (sign * other) (first * (2 : ℚ) ^ exponent * (second * (2 : ℚ) ^ exponent'))
      (UnpackedFloat.mul Format.binary64 (.finite sign first exponent h.pos)
        (.finite other second exponent' h'.pos)) := by
  have hvalue : first * (2 : ℚ) ^ exponent * (second * (2 : ℚ) ^ exponent') =
      ((first * second : ℕ) : ℚ) * (2 : ℚ) ^ (exponent + exponent') := by
    rw [zpow_add₀ (by norm_num)]
    push_cast
    ring
  rw [hvalue]
  exact isRounded_roundWithAccuracy _ (isPrecise_mul h h') rfl

theorem represents_quotient (numerator : ℕ) {denominator : ℕ} (h : 0 < denominator) :
    Represents (.ofMantissaAndAccuracy (numerator / denominator)
      (accuracyOfFraction (numerator % denominator) denominator))
        ((numerator : ℚ) / denominator) := by
  have hpos : (0 : ℚ) < denominator := Nat.cast_pos.2 h
  have hlt : numerator % denominator < denominator := Nat.mod_lt numerator h
  rw [Decimal.natCast_div_eq numerator h]
  generalize numerator / denominator = quotient
  generalize numerator % denominator = rest at *
  rw [accuracyOfFraction]
  by_cases hzero : rest = 0
  · rw [if_pos hzero, hzero, Nat.cast_zero, zero_div, add_zero]
    rfl
  rw [if_neg hzero]
  have hrest : (0 : ℚ) < rest / denominator :=
    div_pos (Nat.cast_pos.2 (Nat.pos_of_ne_zero hzero)) hpos
  have hone : (rest : ℚ) / denominator < 1 := by
    rw [div_lt_one hpos]
    exact_mod_cast hlt
  rcases Nat.lt_trichotomy (2 * rest) denominator with hbelow | hhalf | habove
  · have hsmall : (rest : ℚ) / denominator < 1 / 2 := by
      rw [div_lt_div_iff₀ hpos (by norm_num)]
      exact_mod_cast (by omega : rest * 2 < 1 * denominator)
    rw [Nat.compare_eq_lt.2 hbelow]
    change (quotient : ℚ) < _ ∧ _ < (quotient : ℚ) + 1 / 2
    exact ⟨by linarith, by linarith⟩
  · have hequal : (rest : ℚ) / denominator = 1 / 2 := by
      rw [div_eq_div_iff hpos.ne' (by norm_num)]
      exact_mod_cast (by omega : rest * 2 = 1 * denominator)
    rw [Nat.compare_eq_eq.2 hhalf, hequal]
    rfl
  · have hlarge : 1 / 2 < (rest : ℚ) / denominator := by
      rw [div_lt_div_iff₀ (by norm_num) hpos]
      exact_mod_cast (by omega : 1 * denominator < rest * 2)
    rw [Nat.compare_eq_gt.2 habove]
    change (quotient : ℚ) + 1 / 2 < _ ∧ _ < (quotient : ℚ) + 1
    exact ⟨by linarith, by linarith⟩

theorem isPrecise_divCore (hfirst : 0 < first) (hsecond : 0 < second) :
    IsPrecise (divCore Format.binary64 first exponent second exponent').1
      (divCore Format.binary64 first exponent second exponent').2.1 := by
  have hlower := Nat.log2_self_le hfirst.ne'
  have hupper : second < 2 ^ (second.log2 + 1) := Nat.lt_log2_self
  have htarget : Format.binary64.targetExponent
      (totalExponent first exponent - totalExponent second exponent') =
        max ((first.log2 : ℤ) - second.log2 + (exponent - exponent') - 53) (-1074) := by
    change max (totalExponent first exponent - totalExponent second exponent' - 53) (-1074) = _
    rw [totalExponent, totalExponent]
    omega
  simp only [divCore, htarget, IsPrecise, Nat.shiftLeft_eq]
  rw [or_iff_not_imp_right]
  intro hexponent
  rw [Nat.le_div_iff_mul_le hsecond]
  have hshift : 52 + (second.log2 + 1) ≤ first.log2 + (exponent - exponent' -
      min (exponent - exponent')
        (max ((first.log2 : ℤ) - second.log2 + (exponent - exponent') - 53) (-1074))).toNat := by
    omega
  calc 2 ^ 52 * second ≤ 2 ^ 52 * 2 ^ (second.log2 + 1) := Nat.mul_le_mul_left _ hupper.le
    _ = 2 ^ (52 + (second.log2 + 1)) := (Nat.pow_add 2 _ _).symm
    _ ≤ 2 ^ (first.log2 + _) := Nat.pow_le_pow_right (by decide) hshift
    _ = 2 ^ first.log2 * 2 ^ _ := Nat.pow_add 2 _ _
    _ ≤ first * 2 ^ _ := Nat.mul_le_mul_right _ hlower

theorem isRounded_div (sign other : Sign) (hfirst : 0 < first) (hsecond : 0 < second) :
    IsRounded (sign / other) (first * (2 : ℚ) ^ exponent / (second * (2 : ℚ) ^ exponent'))
      (UnpackedFloat.div Format.binary64 (.finite sign first exponent hfirst)
        (.finite other second exponent' hsecond)) := by
  let target := min (exponent - exponent') (Format.binary64.targetExponent
    (totalExponent first exponent - totalExponent second exponent'))
  let dividend := first <<< (exponent - exponent' - target).toNat
  have hvalue : first * (2 : ℚ) ^ exponent / (second * (2 : ℚ) ^ exponent') =
      (dividend : ℚ) / second * (2 : ℚ) ^ target := by
    have hshift : ((exponent - exponent' - target).toNat : ℤ) = exponent - exponent' - target := by
      omega
    have hpow : (dividend : ℚ) = first * (2 : ℚ) ^ (exponent - exponent' - target) := by
      rw [← hshift, zpow_natCast]
      simp only [dividend, Nat.shiftLeft_eq]
      push_cast
      rfl
    have hne : (second : ℚ) ≠ 0 := Nat.cast_ne_zero.2 hsecond.ne'
    rw [hpow, zpow_sub₀ (by norm_num), zpow_sub₀ (by norm_num)]
    field_simp
  rw [hvalue]
  exact isRounded_roundWithAccuracy _ (isPrecise_divCore hfirst hsecond)
    (represents_quotient dividend hsecond)

theorem isRounded_ofNat (number : ℕ) :
    IsRounded .positive number (UnpackedFloat.ofNat Format.binary64 number) := by
  rcases Nat.eq_zero_or_pos number with rfl | hpos
  · exact ⟨-1074, 0, ⟨le_rfl, by rw [Nat.cast_zero]; positivity, .inl rfl⟩,
      by rw [Nat.cast_zero, zero_div]; exact IsNearest.natCast 0, rfl⟩
  let count := (0 - lastPlace number 0).toNat
  have hround : UnpackedFloat.ofNat Format.binary64 number =
      roundWithAccuracy Format.binary64 .positive (number <<< count) (0 - count) .exact := by
    have hcompare : compare (number : ℤ) 0 = .gt := Int.compare_eq_gt.2 (by omega)
    rw [UnpackedFloat.ofNat, ofInt, UnpackedFloat.normalize, hcompare]
    rfl
  have hprecise : IsPrecise (number <<< count) (0 - count) := by
    have hcount : 52 ≤ number.log2 + count := by
      simp only [count, lastPlace]
      omega
    refine .inl ?_
    calc 2 ^ 52 ≤ 2 ^ (number.log2 + count) := Nat.pow_le_pow_right (by decide) hcount
      _ = 2 ^ number.log2 * 2 ^ count := Nat.pow_add 2 _ _
      _ ≤ number * 2 ^ count := Nat.mul_le_mul_right _ (Nat.log2_self_le hpos.ne')
      _ = number <<< count := (Nat.shiftLeft_eq number count).symm
  have hvalue : (number : ℚ) = ((number <<< count : ℕ) : ℚ) * (2 : ℚ) ^ (0 - count : ℤ) := by
    rw [Nat.shiftLeft_eq, Nat.cast_mul, Nat.cast_pow, Nat.cast_ofNat, zero_sub, zpow_neg,
      zpow_natCast, mul_inv_cancel_right₀ (by positivity)]
  rw [hround, hvalue]
  exact isRounded_roundWithAccuracy _ hprecise rfl

theorem isRounded_ofScientific {digits power : ℕ} (hdigits : 0 < digits) (hpower : power ≤ 2 ^ 11) :
    IsRounded .positive (digits * 10 ^ power : ℕ)
      (UnpackedFloat.ofScientific Format.binary64 digits power) := by
  have hgreatest : ¬(power : ℤ) > 2 ^ 11 := by omega
  have hleast : ¬(power : ℤ) < -((2 ^ 11 : ℤ) + digits.log2) := by omega
  have hresult : UnpackedFloat.ofScientific Format.binary64 digits power =
      roundWithAccuracy Format.binary64 .positive ((digits <<< 53) * 10 ^ power) (-53 + 0)
        .exact := by
    rw [UnpackedFloat.ofScientific, dif_neg hdigits.ne', if_neg hgreatest, if_neg hleast,
      if_pos (Int.natCast_nonneg power)]
    rfl
  have hvalue : ((digits * 10 ^ power : ℕ) : ℚ) =
      (((digits <<< 53) * 10 ^ power : ℕ) : ℚ) * (2 : ℚ) ^ (-53 + 0 : ℤ) := by
    rw [Nat.shiftLeft_eq]
    push_cast
    norm_num
    ring
  rw [hresult, hvalue]
  refine isRounded_roundWithAccuracy _ (.inl ?_) rfl
  rw [Nat.shiftLeft_eq]
  calc 2 ^ 52 ≤ 1 * 2 ^ 53 * 1 := by norm_num
    _ ≤ digits * 2 ^ 53 * 10 ^ power :=
        Nat.mul_le_mul (Nat.mul_le_mul_right _ hdigits) (Nat.pow_pos (by decide))

theorem isRounded_self (h : (Decimal.Binary.mk (isNegative sign) first exponent).IsDouble) :
    IsRounded sign (first * (2 : ℚ) ^ exponent) (.finite sign first exponent h.pos) := by
  have hpos : (0 : ℚ) < (2 : ℚ) ^ exponent := by positivity
  refine ⟨exponent, first, ⟨h.le_exponent, ?_, ?_⟩, ?_, ?_⟩
  · have hlt : (first : ℚ) < 2 ^ 53 := by exact_mod_cast h.lt
    rw [add_comm, zpow_add₀ (by norm_num)]
    exact mul_lt_mul_of_pos_right hlt hpos
  · refine h.normal.imp_right fun hnormal => ?_
    have hle : (2 : ℚ) ^ 52 ≤ first := by exact_mod_cast hnormal
    rw [add_comm, zpow_add₀ (by norm_num)]
    exact mul_le_mul_of_nonneg_right hle hpos.le
  · rw [mul_div_cancel_right₀ _ hpos.ne']
    exact IsNearest.natCast first
  · rw [ofUnits, if_neg h.lt.ne, dif_neg h.pos.ne']

/-! ## Values near a number -/

theorem IsLastPlace.unique {other : ℤ} (h : IsLastPlace value place)
    (hother : IsLastPlace value other) : place = other := by
  have hle : ∀ {first second : ℤ}, IsLastPlace value first → IsLastPlace value second →
      second ≤ first := by
    intro first second hfirst hsecond
    by_contra hlt
    have hsecond' := hsecond.le.resolve_left (by have := hfirst.least_le; omega)
    have hbound : (2 : ℚ) ^ (first + 53) ≤ (2 : ℚ) ^ (second + 52) :=
      zpow_le_zpow_right₀ (by norm_num) (by omega)
    exact absurd hfirst.lt (not_lt.2 (hbound.trans hsecond'))
  exact Int.le_antisymm (hle hother h) (hle h hother)

section

variable {negative : Bool}

/-- Only at a power of two does the interval of a number reach below the numbers of its size. -/
theorem eq_two_pow_of_holds (h : (Decimal.Binary.mk negative first exponent).IsDouble)
    (hholds : (Decimal.Binary.mk negative first exponent).Holds value) (hne : exponent ≠ -1074)
    (hbelow : value < (2 : ℚ) ^ (exponent + 52)) : first = 2 ^ 52 := by
  have hlower := hholds.bounds.1
  have hgap := Decimal.Binary.gap_le ⟨negative, first, exponent⟩
  rw [add_comm, zpow_add₀ (by norm_num)] at hbelow
  have hlt := lt_of_mul_lt_mul_right (hlower.trans_lt hbelow) (by positivity)
  refine Nat.le_antisymm ?_ (h.normal.resolve_left hne)
  by_contra hlarge
  have hsucc : (2 : ℚ) ^ 52 + 1 ≤ first := by exact_mod_cast Nat.not_le.1 hlarge
  norm_num at hlt
  linarith

theorem bounds_of_two_pow_holds (hholds : (Decimal.Binary.mk negative (2 ^ 52) exponent).Holds value)
    (hne : exponent ≠ -1074) (hbelow : value < (2 : ℚ) ^ (exponent + 52)) :
    (2 : ℚ) ^ 53 - 1 / 2 ≤ value / (2 : ℚ) ^ (exponent - 1) ∧
      value / (2 : ℚ) ^ (exponent - 1) < (2 : ℚ) ^ 53 := by
  have hpos : (0 : ℚ) < (2 : ℚ) ^ (exponent - 1) := by positivity
  have hdouble : (2 : ℚ) ^ exponent = 2 * (2 : ℚ) ^ (exponent - 1) := by
    rw [zpow_sub_one₀ (by norm_num)]
    field_simp
  have hgap : Decimal.Binary.gap ⟨negative, 2 ^ 52, exponent⟩ = 1 / 4 := if_pos ⟨rfl, hne⟩
  have hlower := hholds.bounds.1
  rw [Decimal.Binary.lower, hgap, hdouble] at hlower
  rw [zpow_add₀ (by norm_num), hdouble] at hbelow
  rw [le_div_iff₀ hpos, div_lt_iff₀ hpos]
  norm_num at hlower hbelow ⊢
  constructor <;> linarith

theorem IsRounded.eq_of_holds {number : UnpackedFloat}
    (h : (Decimal.Binary.mk negative first exponent).IsDouble)
    (hholds : (Decimal.Binary.mk negative first exponent).Holds value)
    (hrounded : IsRounded sign value number) : number = .finite sign first exponent h.pos := by
  obtain ⟨place, units, hplace, hunits, rfl⟩ := hrounded
  by_cases hbinade : exponent = -1074 ∨ (2 : ℚ) ^ (exponent + 52) ≤ value
  · have hpos : (0 : ℚ) < (2 : ℚ) ^ exponent := by positivity
    have hfirst : (first : ℚ) + 1 ≤ 2 ^ 53 := by exact_mod_cast h.lt
    have hupper : value ≤ (first + 1 / 2) * (2 : ℚ) ^ exponent := hholds.bounds.2
    have hlt : value < (2 : ℚ) ^ (exponent + 53) := by
      rw [add_comm, zpow_add₀ (by norm_num)]
      exact hupper.trans_lt (mul_lt_mul_of_pos_right (by norm_num; linarith) hpos)
    obtain rfl := hplace.unique ⟨h.le_exponent, hlt, hbinade⟩
    obtain rfl := hunits.unique hholds.isNearest
    rw [ofUnits, if_neg h.lt.ne, dif_neg h.pos.ne']
  · -- Below a power of two the last place is half of that above, and a carry leads back.
    rw [not_or, not_le] at hbinade
    obtain ⟨hne, hbelow⟩ := hbinade
    obtain rfl := eq_two_pow_of_holds h hholds hne hbelow
    obtain ⟨hlower, hupper⟩ := bounds_of_two_pow_holds hholds hne hbelow
    have hpos : (0 : ℚ) < (2 : ℚ) ^ (exponent - 1) := by positivity
    have hleast : -1074 ≤ exponent := h.le_exponent
    have hhalf : IsLastPlace value (exponent - 1) := by
      refine ⟨by omega, ?_, .inr ?_⟩
      · rw [add_comm, zpow_add₀ (by norm_num), ← div_lt_iff₀ hpos]
        exact_mod_cast hupper
      · rw [add_comm, zpow_add₀ (by norm_num), ← le_div_iff₀ hpos]
        norm_num at hlower ⊢
        linarith
    obtain rfl := hplace.unique hhalf
    have hnearest : IsNearest (value / (2 : ℚ) ^ (exponent - 1)) (2 ^ 53) := by
      refine ⟨by exact_mod_cast hlower, ?_, fun hodd => absurd hodd (by norm_num)⟩
      push_cast
      linarith
    rw [hunits.unique hnearest, ofUnits, if_pos rfl]
    congr 1
    omega

end

/-! ## Results that stay finite -/

theorem le_overflow : (2 : ℚ) ^ (52 + 971 : ℤ) ≤ overflow := by
  rw [zpow_add₀ (by norm_num)]
  exact mul_le_mul_of_nonneg_right (by norm_num) (by positivity)

namespace IsRounded

variable {number : UnpackedFloat}

theorem unpack_pack (h : IsRounded sign value number) (hvalue : value < overflow) :
    unpack Format.binary64 (pack Format.binary64 number) = number := by
  obtain ⟨place, units, hplace, hunits, rfl⟩ := h
  have hle := hplace.units_le hunits
  have hnormal := hplace.le_units hunits
  have hpos : (0 : ℚ) < (2 : ℚ) ^ place := by positivity
  have hgreatest : place ≤ 971 := by
    by_contra hlarge
    have hbound : (2 : ℚ) ^ (1024 : ℤ) ≤ (2 : ℚ) ^ (place + 52) :=
      zpow_le_zpow_right₀ (by norm_num) (by omega)
    have hvalue' := hplace.le.resolve_left (by omega)
    have hoverflow : overflow < (2 : ℚ) ^ (53 + 971 : ℤ) := by
      rw [zpow_add₀ (by norm_num)]
      exact mul_lt_mul_of_pos_right (by norm_num) (by positivity)
    exact absurd hvalue (not_lt.2 (hoverflow.le.trans (hbound.trans hvalue')))
  rw [ofUnits]
  split
  · next hcarry =>
      -- A carry at the last exponent would take a value that overflows.
      have hne : place ≠ 971 := by
        rintro rfl
        have hlower := hunits.lower
        rw [hcarry, le_div_iff₀ hpos] at hlower
        refine absurd hvalue (not_lt.2 (le_of_eq_of_le ?_ hlower))
        norm_num [overflow]
      have hleast : -1074 ≤ place + 1 := hplace.least_le.trans (by omega)
      have hnext : place + 1 ≤ 971 := by omega
      exact unpack_pack_finite ⟨Nat.two_pow_pos 52, by norm_num, hleast, hnext, .inr le_rfl⟩
  · next hcarry =>
      split
      · exact unpack_pack_zero sign
      · next hzero =>
          exact unpack_pack_finite ⟨Nat.pos_of_ne_zero hzero, hle.lt_of_ne hcarry, hplace.least_le,
            hgreatest, hnormal⟩

theorem unpack_pack_of_overflow (h : IsRounded sign value number) (hvalue : overflow ≤ value) :
    unpack Format.binary64 (pack Format.binary64 number) = .infinity sign := by
  obtain ⟨place, units, hplace, hunits, rfl⟩ := h
  have hlarge : 971 ≤ place := by
    by_contra hsmall
    have hbound : (2 : ℚ) ^ (place + 53) ≤ (2 : ℚ) ^ (52 + 971 : ℤ) :=
      zpow_le_zpow_right₀ (by norm_num) (by omega)
    exact absurd (hplace.lt.trans_le hbound) (not_lt.2 (le_overflow.trans hvalue))
  rw [ofUnits]
  rcases hlarge.eq_or_lt with rfl | hlarge
  · have hcarry : units = 2 ^ 53 := by
      rw [overflow, ← le_div_iff₀ (by positivity)] at hvalue
      by_contra hne
      have hlt : units + 1 ≤ 2 ^ 53 := (hplace.units_le hunits).lt_of_ne hne
      have hle : (units : ℚ) + 1 ≤ 2 ^ 53 := by exact_mod_cast hlt
      -- Only the greatest significand is near enough, and that one is odd.
      have hgreatest : units + 1 = 2 ^ 53 := by
        have hge : (2 : ℚ) ^ 53 ≤ units + 1 := by linarith [hunits.upper]
        exact Nat.le_antisymm hlt (by exact_mod_cast hge)
      linarith [(hunits.strict (by omega)).2]
    rw [if_pos hcarry]
    exact unpack_pack_infinite sign _ le_rfl
  · have hlong := (hplace.le_units hunits).resolve_left (by omega)
    split
    · exact unpack_pack_infinite sign _ (by omega)
    · rw [dif_neg (by omega)]
      exact unpack_pack_infinite sign _ hlarge

end IsRounded

theorem magnitude_lt_overflow
    (h : (Decimal.Binary.mk (isNegative sign) first exponent).IsDouble) :
    first * (2 : ℚ) ^ exponent < overflow := by
  have hfirst : (first : ℚ) ≤ (2 ^ 53 - 1 : ℕ) := Nat.cast_le.2 (Nat.le_sub_one_of_lt h.lt)
  have hpow : (2 : ℚ) ^ exponent ≤ (2 : ℚ) ^ (971 : ℤ) :=
    zpow_le_zpow_right₀ (by norm_num) h.exponent_le
  calc first * (2 : ℚ) ^ exponent ≤ (2 ^ 53 - 1 : ℕ) * (2 : ℚ) ^ (971 : ℤ) :=
        mul_le_mul hfirst hpow (by positivity) (by positivity)
    _ < overflow := mul_lt_mul_of_pos_right (by norm_num) (by positivity)

/-! ## Numbers as the program computes with them -/

/-- A divisor that makes nothing greater. -/
def IsAtLeastOne (number : UnpackedFloat) : Prop := number.isInf = true ∨ 1 ≤ magnitude number

theorem IsAtLeastOne.cases {number : UnpackedFloat} (h : IsAtLeastOne number) :
    (∃ sign, number = .infinity sign) ∨ ∃ sign significand exponent hpos,
      number = .finite sign significand exponent hpos ∧ 1 ≤ significand * (2 : ℚ) ^ exponent := by
  cases number with
  | infinity sign => exact .inl ⟨sign, rfl⟩
  | finite sign significand exponent hpos =>
      exact .inr ⟨sign, significand, exponent, hpos, rfl, h.resolve_left Bool.false_ne_true⟩
  | notANumber => exact absurd (h.resolve_left Bool.false_ne_true) (by norm_num [magnitude])
  | zero sign => exact absurd (h.resolve_left Bool.false_ne_true) (by norm_num [magnitude])

theorem IsRounded.isAtLeastOne {number : UnpackedFloat} (h : IsRounded sign value number)
    (hvalue : 1 ≤ value) :
    IsAtLeastOne (unpack Format.binary64 (pack Format.binary64 number)) := by
  rcases lt_or_ge value overflow with hlt | hge
  · rw [h.unpack_pack hlt]
    exact .inr (h.one_le_magnitude hvalue)
  · rw [h.unpack_pack_of_overflow hge]
    exact .inl rfl

theorem isFinite_of_rounded {number : UnpackedFloat} {result : Float}
    (hresult : result.toModel = .pack number) (h : IsRounded sign value number)
    (hvalue : value < overflow) : result.isFinite = true := by
  have hunpack : result.toModel.unpack = number := by
    rw [hresult]
    exact h.unpack_pack hvalue
  change result.toModel.unpack.isFinite = true
  rw [hunpack]
  exact h.isFinite

theorem isFinite_of_zero {result : Float} (h : result.toModel = .pack (.zero sign)) :
    result.isFinite = true := by
  have hunpack : result.toModel.unpack = .zero sign := by
    rw [h]
    exact unpack_pack_zero sign
  change result.toModel.unpack.isFinite = true
  rw [hunpack]
  rfl

theorem unpack_of_isFinite {number : Float} (h : number.isFinite = true) :
    (∃ sign, number.toModel.unpack = .zero sign) ∨
      ∃ sign significand exponent hpos,
        number.toModel.unpack = .finite sign significand exponent hpos := by
  change number.toModel.unpack.isFinite = true at h
  cases hn : number.toModel.unpack with
  | notANumber => rw [hn] at h; cases h
  | infinity sign => rw [hn] at h; cases h
  | zero sign => exact .inl ⟨sign, rfl⟩
  | finite sign significand exponent hpos => exact .inr ⟨sign, significand, exponent, hpos, rfl⟩

theorem unpack_neg_zero {number : Float} (h : number.toModel.unpack = .zero sign) :
    (-number).toModel.unpack = .zero (-sign) := by
  have hresult : (-number).toModel = .pack number.toModel.unpack.neg := rfl
  rw [hresult, h]
  exact unpack_pack_zero (-sign)

theorem unpack_neg_finite {number : Float} {hpos : 0 < first}
    (h : number.toModel.unpack = .finite sign first exponent hpos) :
    (-number).toModel.unpack = .finite (-sign) first exponent hpos := by
  have hresult : (-number).toModel = .pack number.toModel.unpack.neg := rfl
  obtain ⟨_, hlt, hle, hge, hnormal⟩ := isDouble_of_unpack h
  have hdouble : (Decimal.Binary.mk (isNegative (-sign)) first exponent).IsDouble :=
    ⟨hpos, hlt, hle, hge, hnormal⟩
  rw [hresult, h, UnpackedFloat.neg]
  exact unpack_pack_finite hdouble

theorem isFinite_neg {number : Float} (h : number.isFinite = true) : (-number).isFinite = true := by
  change (-number).toModel.unpack.isFinite = true
  rcases unpack_of_isFinite h with ⟨sign, hn⟩ | ⟨sign, significand, exponent, hpos, hn⟩
  · rw [unpack_neg_zero hn]
    rfl
  · rw [unpack_neg_finite hn]
    rfl

theorem isFinite_mul {first second : Float} (h : first.isFinite = true)
    (h' : second.isFinite = true)
    (hlt : magnitude first.toModel.unpack * magnitude second.toModel.unpack < overflow) :
    (first * second).isFinite = true := by
  have hresult : (first * second).toModel =
      .pack (UnpackedFloat.mul Format.binary64 first.toModel.unpack second.toModel.unpack) := rfl
  rcases unpack_of_isFinite h with ⟨sign, hn⟩ | ⟨sign, significand, exponent, hpos, hn⟩ <;>
    rcases unpack_of_isFinite h' with ⟨other, hn'⟩ | ⟨other, significand', exponent', hpos', hn'⟩
  · exact @isFinite_of_zero (sign * other) _ (by rw [hresult, hn, hn', UnpackedFloat.mul])
  · exact @isFinite_of_zero (sign * other) _ (by rw [hresult, hn, hn', UnpackedFloat.mul])
  · exact @isFinite_of_zero (sign * other) _ (by rw [hresult, hn, hn', UnpackedFloat.mul])
  · rw [hn, hn'] at hlt
    exact isFinite_of_rounded (hresult.trans (by rw [hn, hn']))
      (isRounded_mul (isDouble_of_unpack hn) (isDouble_of_unpack hn')) hlt

theorem isFinite_div {dividend divisor : Float} (h : dividend.isFinite = true)
    (hdivisor : IsAtLeastOne divisor.toModel.unpack) : (dividend / divisor).isFinite = true := by
  have hresult : (dividend / divisor).toModel =
      .pack (UnpackedFloat.div Format.binary64 dividend.toModel.unpack divisor.toModel.unpack) := rfl
  rcases unpack_of_isFinite h with ⟨sign, hn⟩ | ⟨sign, significand, exponent, hpos, hn⟩ <;>
    rcases hdivisor.cases with ⟨other, hn'⟩ | ⟨other, significand', exponent', hpos', hn', hone⟩
  · exact @isFinite_of_zero (sign / other) _ (by rw [hresult, hn, hn', UnpackedFloat.div])
  · exact @isFinite_of_zero (sign / other) _ (by rw [hresult, hn, hn', UnpackedFloat.div])
  · exact @isFinite_of_zero (sign / other) _ (by rw [hresult, hn, hn', UnpackedFloat.div])
  · refine isFinite_of_rounded (hresult.trans (by rw [hn, hn']))
      (isRounded_div sign other hpos hpos') ?_
    exact (div_le_self (by positivity) hone).trans_lt (magnitude_lt_overflow (isDouble_of_unpack hn))

/-! ## Whole numbers -/

theorem natCast_lt_overflow {number : ℕ} (h : number < 2 ^ 64) : (number : ℚ) < overflow := by
  have hnumber : (number : ℚ) < (2 : ℚ) ^ (64 : ℤ) := by exact_mod_cast h
  have hbound : (2 : ℚ) ^ (64 : ℤ) ≤ (2 : ℚ) ^ (52 + 971 : ℤ) :=
    zpow_le_zpow_right₀ (by norm_num) (by norm_num)
  exact hnumber.trans_le (hbound.trans le_overflow)

theorem unpack_toFloat (word : UInt64) :
    word.toFloat.toModel.unpack = UnpackedFloat.ofNat Format.binary64 word.toNat :=
  (isRounded_ofNat word.toNat).unpack_pack (natCast_lt_overflow word.toNat_lt)

theorem unpack_one : (Float.ofBits 0x3FF0000000000000).toModel.unpack =
    .finite .positive (2 ^ 52) (-52) (Nat.two_pow_pos 52) := by
  rfl

theorem exists_isRounded_ofNat (number : ℕ) :
    ∃ rounded, IsRounded .positive number rounded ∧ (Float.ofNat number).toModel = .pack rounded := by
  have hdef : Float.ofNat number = Float.ofScientific number false 0 := rfl
  rw [hdef, Float.ofScientific]
  by_cases hsmall : number < 2 ^ 53
  · have hword : number.toUInt64.toNat = number :=
      UInt64.toNat_ofNat_of_lt' (hsmall.trans (by decide))
    have hunpack := unpack_toFloat number.toUInt64
    rw [hword] at hunpack
    have hrounded := isRounded_ofNat number
    have hmagnitude := hrounded.magnitude_natCast hsmall.le
    refine ⟨UnpackedFloat.mul Format.binary64 (UnpackedFloat.ofNat Format.binary64 number)
      (.finite .positive (2 ^ 52) (-52) (Nat.two_pow_pos 52)), ?_, ?_⟩
    · rcases Nat.eq_zero_or_pos number with rfl | hpos
      · exact isRounded_ofNat 0
      · obtain ⟨significand, exponent, hpos', hfinite⟩ := hrounded.exists_eq_finite
          (by rw [hmagnitude]; exact_mod_cast hpos.ne')
        rw [hfinite] at hunpack hmagnitude ⊢
        have hproduct := isRounded_mul (isDouble_of_unpack hunpack) (isDouble_of_unpack unpack_one)
        have hone : ((2 ^ 52 : ℕ) : ℚ) * (2 : ℚ) ^ (-52 : ℤ) = 1 := by norm_num
        rw [hone, mul_one] at hproduct
        exact (congrArg (IsRounded .positive · _) hmagnitude).mp hproduct
    · rw [dif_pos ⟨hsmall, by decide⟩, ← hunpack, ← unpack_one]
      rfl
  · have hrounded := @isRounded_ofScientific number 0 (by omega) (by decide)
    rw [pow_zero, mul_one] at hrounded
    refine ⟨UnpackedFloat.ofScientific Format.binary64 number 0, hrounded, ?_⟩
    rw [dif_neg (by omega)]
    rfl

theorem isFinite_ofNat {number : ℕ} (h : number < 2 ^ 64) :
    (Float.ofNat number).isFinite = true := by
  obtain ⟨rounded, hrounded, hresult⟩ := exists_isRounded_ofNat number
  exact isFinite_of_rounded hresult hrounded (natCast_lt_overflow h)

theorem isAtLeastOne_ofNat {number : ℕ} (h : 1 ≤ number) :
    IsAtLeastOne (Float.ofNat number).toModel.unpack := by
  obtain ⟨rounded, hrounded, hresult⟩ := exists_isRounded_ofNat number
  rw [hresult]
  exact hrounded.isAtLeastOne (by exact_mod_cast h)

end CodeAtlas.Binary64
