import CodeAtlas.Proofs.Decimal.Nearest
import Mathlib

/-!
# Rounding to floating-point numbers

A number that has been cut off keeps two bits of what was behind: the first bit, and whether there
was anything else. Together they say which whole number is the nearest. The last place of a result
is chosen so that its significand has fifty-three bits, or is the last place there is.
-/

namespace CodeAtlas.Binary64

open Float.Model Float.Model.UnpackedFloat
open Decimal (IsNearest)

/-! ## Numbers that are cut off -/

/-- The numbers a significand with its two bits stands for. -/
def Represents (extended : ExtendedMantissa) (value : ℚ) : Prop :=
  match extended.roundBit, extended.stickyBit with
  | false, false => value = extended.mantissa
  | false, true => extended.mantissa < value ∧ value < extended.mantissa + 1 / 2
  | true, false => value = extended.mantissa + 1 / 2
  | true, true => extended.mantissa + 1 / 2 < value ∧ value < extended.mantissa + 1

namespace Represents

variable {extended : ExtendedMantissa} {value : ℚ}

theorem bounds (h : Represents extended value) :
    extended.mantissa ≤ value ∧ value < extended.mantissa + 1 := by
  obtain ⟨significand, _ | _, _ | _⟩ := extended <;> simp only [Represents] at h
  · exact ⟨by linarith, by linarith⟩
  · exact ⟨by linarith, by linarith⟩
  · exact ⟨by linarith, by linarith⟩
  · exact ⟨by linarith, by linarith⟩

theorem isNearest (h : Represents extended value) : IsNearest value extended.roundedMantissa := by
  obtain ⟨significand, _ | _, _ | _⟩ := extended <;> simp only [Represents] at h
  · rw [h]
    exact IsNearest.natCast significand
  · change IsNearest value significand
    exact ⟨by linarith, by linarith, fun _ => ⟨by linarith, by linarith⟩⟩
  · change IsNearest value (significand + significand % 2)
    rw [h]
    rcases Nat.mod_two_eq_zero_or_one significand with heven | hodd
    · rw [heven, Nat.add_zero]
      exact ⟨by linarith, by linarith, fun hodd => by omega⟩
    · rw [hodd]
      exact ⟨by push_cast; linarith, by push_cast; linarith, fun hodd => by omega⟩
  · have hlower : ((significand + 1 : ℕ) : ℚ) - 1 / 2 < value := by
      push_cast
      linarith
    have hupper : value < ((significand + 1 : ℕ) : ℚ) + 1 / 2 := by
      push_cast
      linarith
    exact ⟨hlower.le, hupper.le, fun _ => ⟨hlower, hupper⟩⟩

theorem shiftRightOne (h : Represents extended value) :
    Represents extended.shiftRightOne (value / 2) := by
  obtain ⟨significand, first, rest⟩ := extended
  rcases Nat.even_or_odd' significand with ⟨half, rfl | rfl⟩
  · have hshift : (ExtendedMantissa.mk (2 * half) first rest).shiftRightOne =
        ⟨half, false, first || rest⟩ := by
      simp [ExtendedMantissa.shiftRightOne]
    rw [hshift]
    cases first <;> cases rest <;> simp only [Represents, Bool.or_true, Bool.or_false] at h ⊢ <;>
      push_cast at h
    · linarith
    all_goals exact ⟨by linarith, by linarith⟩
  · have hshift : (ExtendedMantissa.mk (2 * half + 1) first rest).shiftRightOne =
        ⟨half, true, first || rest⟩ := by
      simp only [ExtendedMantissa.shiftRightOne, ExtendedMantissa.mk.injEq, bne_iff_ne, and_true]
      omega
    rw [hshift]
    cases first <;> cases rest <;> simp only [Represents, Bool.or_true, Bool.or_false] at h ⊢ <;>
      push_cast at h
    · linarith
    all_goals exact ⟨by linarith, by linarith⟩

theorem shiftRight (h : Represents extended value) (count : ℕ) :
    Represents (extended >>> count) (value / 2 ^ count) := by
  change Represents (count.repeat ExtendedMantissa.shiftRightOne extended) _
  induction count with
  | zero => simpa [Nat.repeat] using h
  | succ count ih =>
      rw [Nat.repeat, pow_succ, div_mul_eq_div_div]
      exact ih.shiftRightOne

end Represents

/-! ## The last place -/

/-- The exponent of the last place a value has once it is rounded. -/
structure IsLastPlace (value : ℚ) (place : ℤ) : Prop where
  least_le : -1074 ≤ place
  lt : value < (2 : ℚ) ^ (place + 53)
  le : place = -1074 ∨ (2 : ℚ) ^ (place + 52) ≤ value

def lastPlace (significand : ℕ) (exponent : ℤ) : ℤ :=
  max (significand.log2 + 1 + exponent - 53) (-1074)

theorem targetExponent_eq (significand : ℕ) (exponent : ℤ) :
    Format.binary64.targetExponent (totalExponent significand exponent) =
      lastPlace significand exponent := rfl

variable {significand : ℕ} {exponent place : ℤ} {value : ℚ}

/-- A number that is known to so many places can be rounded. -/
def IsPrecise (significand : ℕ) (exponent : ℤ) : Prop :=
  2 ^ 52 ≤ significand ∨ exponent ≤ -1074

theorem IsPrecise.le_lastPlace (h : IsPrecise significand exponent) :
    exponent ≤ lastPlace significand exponent := by
  rw [lastPlace]
  rcases h with h | h
  · have := (Nat.le_log2 (Nat.ne_of_gt ((Nat.two_pow_pos 52).trans_le h))).2 h
    omega
  · omega

theorem IsPrecise.isLastPlace (h : IsPrecise significand exponent) (hlower : significand ≤ value)
    (hupper : value < significand + 1) :
    IsLastPlace (value * (2 : ℚ) ^ exponent) (lastPlace significand exponent) := by
  have hunit : (0 : ℚ) < (2 : ℚ) ^ exponent := by positivity
  refine ⟨le_max_right _ _, ?_, ?_⟩
  · have hbound : value < (2 : ℚ) ^ ((significand.log2 + 1 : ℕ) : ℤ) := by
      rw [zpow_natCast]
      exact hupper.trans_le (by exact_mod_cast Nat.lt_log2_self)
    calc value * (2 : ℚ) ^ exponent
        < (2 : ℚ) ^ ((significand.log2 + 1 : ℕ) : ℤ) * (2 : ℚ) ^ exponent :=
          mul_lt_mul_of_pos_right hbound hunit
      _ = (2 : ℚ) ^ (((significand.log2 + 1 : ℕ) : ℤ) + exponent) :=
          (zpow_add₀ (by norm_num) _ _).symm
      _ ≤ (2 : ℚ) ^ (lastPlace significand exponent + 53) := by
          refine zpow_le_zpow_right₀ (by norm_num) ?_
          rw [lastPlace]
          omega
  · rw [or_iff_not_imp_left, lastPlace]
    intro hplace
    have hne : significand ≠ 0 := by
      rintro rfl
      rw [IsPrecise] at h
      simp only [Nat.log2_zero] at hplace
      omega
    have hexponent : max (significand.log2 + 1 + exponent - 53) (-1074) + 52 =
        (significand.log2 : ℤ) + exponent := by
      omega
    have hbound : (2 : ℚ) ^ (significand.log2 : ℤ) ≤ value := by
      rw [zpow_natCast]
      exact le_trans (by exact_mod_cast Nat.log2_self_le hne) hlower
    rw [hexponent, zpow_add₀ (by norm_num)]
    exact mul_le_mul_of_nonneg_right hbound hunit.le

/-- A significand with its last place, where a carry may have made it too long by one bit. -/
def ofUnits (sign : Sign) (units : ℕ) (place : ℤ) : UnpackedFloat :=
  if units = 2 ^ 53 then .finite sign (2 ^ 52) (place + 1) (Nat.two_pow_pos 52)
  else if h : units = 0 then .zero sign
  else .finite sign units place (Nat.pos_of_ne_zero h)

/-- A finite number without its sign; the others count as zero. -/
def magnitude : UnpackedFloat → ℚ
  | .finite _ significand exponent _ => significand * (2 : ℚ) ^ exponent
  | _ => 0

theorem magnitude_ofUnits (sign : Sign) (units : ℕ) (place : ℤ) :
    magnitude (ofUnits sign units place) = units * (2 : ℚ) ^ place := by
  rw [ofUnits]
  split
  · next hcarry =>
      rw [magnitude, hcarry, zpow_add_one₀ (by norm_num)]
      push_cast
      ring
  split
  · next hzero =>
      rw [hzero, Nat.cast_zero, zero_mul]
      rfl
  · rfl

theorem isFinite_ofUnits (sign : Sign) (units : ℕ) (place : ℤ) :
    (ofUnits sign units place).isFinite = true := by
  rw [ofUnits]
  split
  · rfl
  split <;> rfl

theorem shiftToTargetExponent_of_lt {units : ℕ} (h : units < 2 ^ 53) (hplace : -1074 ≤ place) :
    shiftToTargetExponent Format.binary64 units place .exact = (⟨units, false, false⟩, place) := by
  have hlog : units.log2 < 53 := by
    rcases Nat.eq_zero_or_pos units with rfl | hpos
    · decide
    · exact (Nat.log2_lt hpos.ne').2 h
  have hshift : (lastPlace units place - place).toNat = 0 := by
    rw [lastPlace]
    omega
  rw [shiftToTargetExponent, targetExponent_eq, shiftToExponent, hshift]
  simp [ExtendedMantissa.ofMantissaAndAccuracy, HShiftRight.hShiftRight, Nat.repeat]

theorem shiftToTargetExponent_carry (hplace : -1074 ≤ place) :
    shiftToTargetExponent Format.binary64 (2 ^ 53) place .exact =
      (⟨2 ^ 52, false, false⟩, place + 1) := by
  have hshift : (lastPlace (2 ^ 53) place - place).toNat = 1 := by
    rw [lastPlace, Nat.log2_two_pow]
    omega
  rw [shiftToTargetExponent, targetExponent_eq, shiftToExponent, hshift]
  rfl

theorem shiftToTargetExponent_eq_ofUnits {units : ℕ} (sign : Sign) (h : units ≤ 2 ^ 53)
    (hplace : -1074 ≤ place) :
    (let shifted := shiftToTargetExponent Format.binary64 units place .exact
      if h : shifted.1.mantissa = 0 then UnpackedFloat.zero sign
      else .finite sign shifted.1.mantissa shifted.2 (Nat.pos_of_ne_zero h)) =
        ofUnits sign units place := by
  rw [ofUnits]
  rcases h.eq_or_lt with rfl | hlt
  · rw [if_pos rfl]
    simp only [shiftToTargetExponent_carry hplace]
    exact dif_neg (Nat.two_pow_pos 52).ne'
  · rw [if_neg hlt.ne]
    simp only [shiftToTargetExponent_of_lt hlt hplace]

/-- The number nearest to a value, of those with fifty-three bits or the last place there is. -/
def IsRounded (sign : Sign) (value : ℚ) (number : UnpackedFloat) : Prop :=
  ∃ place units, IsLastPlace value place ∧ IsNearest (value / (2 : ℚ) ^ place) units ∧
    number = ofUnits sign units place

theorem IsLastPlace.units_le {units : ℕ} (h : IsLastPlace value place)
    (hunits : IsNearest (value / (2 : ℚ) ^ place) units) : units ≤ 2 ^ 53 := by
  refine hunits.le_of_le (IsNearest.natCast (2 ^ 53)) ?_
  rw [div_le_iff₀ (by positivity)]
  refine h.lt.le.trans (le_of_eq ?_)
  rw [zpow_add₀ (by norm_num), mul_comm]
  norm_num

theorem IsLastPlace.le_units {units : ℕ} (h : IsLastPlace value place)
    (hunits : IsNearest (value / (2 : ℚ) ^ place) units) : place = -1074 ∨ 2 ^ 52 ≤ units := by
  refine h.le.imp_right fun hle => (IsNearest.natCast (2 ^ 52)).le_of_le hunits ?_
  rw [le_div_iff₀ (by positivity)]
  refine le_trans (le_of_eq ?_) hle
  rw [zpow_add₀ (by norm_num), mul_comm]
  norm_num

namespace IsRounded

variable {sign : Sign} {number : UnpackedFloat}

theorem isFinite (h : IsRounded sign value number) : number.isFinite = true := by
  obtain ⟨place, units, -, -, rfl⟩ := h
  exact isFinite_ofUnits sign units place

theorem exists_eq_finite (h : IsRounded sign value number) (hne : magnitude number ≠ 0) :
    ∃ significand exponent hpos, number = .finite sign significand exponent hpos := by
  obtain ⟨place, units, -, -, rfl⟩ := h
  rw [magnitude_ofUnits] at hne
  rw [ofUnits]
  split
  · exact ⟨2 ^ 52, place + 1, Nat.two_pow_pos 52, rfl⟩
  · have hunits : units ≠ 0 := by
      rintro rfl
      simp at hne
    exact ⟨units, place, Nat.pos_of_ne_zero hunits, dif_neg hunits⟩

theorem magnitude_le (h : IsRounded sign value number) (hvalue : (2 : ℚ) ^ (-1022 : ℤ) ≤ value) :
    magnitude number ≤ value * (1 + 1 / 2 ^ 53) := by
  obtain ⟨place, units, hplace, hunits, rfl⟩ := h
  have hpos : (0 : ℚ) < (2 : ℚ) ^ place := by positivity
  have hlower := mul_le_mul_of_nonneg_right hunits.lower hpos.le
  rw [div_mul_cancel₀ _ hpos.ne'] at hlower
  have hlast : (2 : ℚ) ^ place * 2 ^ 52 ≤ value := by
    have hexponent : (2 : ℚ) ^ place * 2 ^ 52 = (2 : ℚ) ^ (place + 52) := by
      rw [zpow_add₀ (by norm_num)]
      norm_num
    rw [hexponent]
    rcases hplace.le with rfl | hle
    · exact hvalue
    · exact hle
  rw [magnitude_ofUnits]
  linarith

theorem one_le_magnitude (h : IsRounded sign value number) (hvalue : 1 ≤ value) :
    1 ≤ magnitude number := by
  obtain ⟨place, units, hplace, hunits, rfl⟩ := h
  have hexponent : -53 < place := by
    by_contra hsmall
    have hbound : (2 : ℚ) ^ (place + 53) ≤ (2 : ℚ) ^ (0 : ℤ) :=
      zpow_le_zpow_right₀ (by norm_num) (by omega)
    rw [zpow_zero] at hbound
    exact absurd (hplace.lt.trans_le hbound) (not_lt.2 hvalue)
  have hlong : (2 ^ 52 : ℕ) ≤ units := (hplace.le_units hunits).resolve_left (by omega)
  rw [magnitude_ofUnits]
  calc (1 : ℚ) = (2 : ℚ) ^ (52 : ℤ) * (2 : ℚ) ^ (-52 : ℤ) := by norm_num
    _ ≤ (2 : ℚ) ^ (52 : ℤ) * (2 : ℚ) ^ place :=
        mul_le_mul_of_nonneg_left (zpow_le_zpow_right₀ (by norm_num) (by omega)) (by positivity)
    _ ≤ units * (2 : ℚ) ^ place :=
        mul_le_mul_of_nonneg_right (by exact_mod_cast hlong) (by positivity)

theorem magnitude_natCast {whole : ℕ} (h : IsRounded sign whole number) (hwhole : whole ≤ 2 ^ 53) :
    magnitude number = whole := by
  obtain ⟨place, units, hplace, hunits, rfl⟩ := h
  have hpos : (0 : ℚ) < (2 : ℚ) ^ place := by positivity
  -- The value is a multiple of its last place, which is one or less unless a bit is carried.
  obtain ⟨multiple, hmultiple⟩ : ∃ multiple : ℕ, (whole : ℚ) / (2 : ℚ) ^ place = multiple := by
    rcases le_or_gt place 0 with hsmall | hlarge
    · refine ⟨whole * 2 ^ (-place).toNat, ?_⟩
      rw [Nat.cast_mul, Nat.cast_pow, Nat.cast_ofNat, ← zpow_natCast,
        Int.toNat_of_nonneg (by omega), zpow_neg, div_eq_mul_inv]
    · have hle := hplace.le.resolve_left (by omega)
      have hone : place = 1 := by
        by_contra hne
        have hbound : (2 : ℚ) ^ (54 : ℤ) ≤ (2 : ℚ) ^ (place + 52) :=
          zpow_le_zpow_right₀ (by norm_num) (by omega)
        have hcast : (whole : ℚ) ≤ 2 ^ 53 := by exact_mod_cast hwhole
        norm_num at hbound
        linarith
      rw [hone] at hle ⊢
      have hwhole' : 2 ^ 53 ≤ whole := by
        norm_num at hle
        exact_mod_cast hle
      refine ⟨2 ^ 52, ?_⟩
      rw [Nat.le_antisymm hwhole hwhole']
      norm_num
  rw [hmultiple] at hunits
  rw [magnitude_ofUnits, hunits.unique (IsNearest.natCast multiple), ← hmultiple,
    div_mul_cancel₀ _ hpos.ne']

end IsRounded

theorem isRounded_roundWithAccuracy {accuracy : Accuracy} (sign : Sign)
    (h : IsPrecise significand exponent)
    (hvalue : Represents (.ofMantissaAndAccuracy significand accuracy) value) :
    IsRounded sign (value * (2 : ℚ) ^ exponent)
      (roundWithAccuracy Format.binary64 sign significand exponent accuracy) := by
  let place := lastPlace significand exponent
  let shifted := ExtendedMantissa.ofMantissaAndAccuracy significand accuracy >>>
    (place - exponent).toNat
  have hfirst : shiftToTargetExponent Format.binary64 significand exponent accuracy =
      (shifted, place) := by
    have hexponent : exponent + ((place - exponent).toNat : ℤ) = place := by
      have := h.le_lastPlace
      omega
    rw [shiftToTargetExponent, targetExponent_eq, shiftToExponent, hexponent]
  have hscaled : value / (2 : ℚ) ^ (place - exponent).toNat =
      value * (2 : ℚ) ^ exponent / (2 : ℚ) ^ place := by
    have hcount : ((place - exponent).toNat : ℤ) = place - exponent :=
      Int.toNat_of_nonneg (Int.sub_nonneg_of_le h.le_lastPlace)
    rw [← zpow_natCast, hcount, zpow_sub₀ (by norm_num), div_div_eq_mul_div]
  have hplace : IsLastPlace (value * (2 : ℚ) ^ exponent) place := by
    obtain ⟨hlower, hupper⟩ := hvalue.bounds
    cases accuracy with
    | exact => exact h.isLastPlace hlower hupper
    | inexact order => cases order <;> exact h.isLastPlace hlower hupper
  have hunits := (hvalue.shiftRight (place - exponent).toNat).isNearest
  rw [hscaled] at hunits
  refine ⟨place, shifted.roundedMantissa, hplace, hunits, ?_⟩
  rw [roundWithAccuracy, hfirst]
  exact shiftToTargetExponent_eq_ofUnits sign (hplace.units_le hunits) hplace.least_le

end CodeAtlas.Binary64
