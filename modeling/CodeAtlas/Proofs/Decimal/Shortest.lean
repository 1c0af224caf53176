import CodeAtlas.Decimal.Shortest
import CodeAtlas.Proofs.Decimal.Nearest
import Mathlib.Algebra.Order.Field.Power
import Mathlib.Data.Nat.Cast.Order.Field
import Mathlib.Tactic.Ring

/-!
# The decimals of a binary fraction

A decimal reads back as a binary fraction if it lies between the two numbers halfway to the
neighbours of the fraction.
-/

namespace CodeAtlas.Decimal

/-! ## Fractions as rational numbers -/

def ratio (fraction : Nat × Nat) : ℚ := fraction.1 / fraction.2

namespace Binary

def magnitude (number : Binary) : ℚ := number.significand * (2 : ℚ) ^ number.exponent

/-- How far below the number its interval begins, in units of the last place. -/
def gap (number : Binary) : ℚ :=
  if number.significand = 2 ^ 52 ∧ number.exponent ≠ -1074 then 1 / 4 else 1 / 2

def lower (number : Binary) : ℚ := (number.significand - number.gap) * (2 : ℚ) ^ number.exponent

def upper (number : Binary) : ℚ := (number.significand + 1 / 2) * (2 : ℚ) ^ number.exponent

/-- A number lies in the interval of those that round to a binary fraction. -/
def Holds (number : Binary) (value : ℚ) : Prop :=
  if number.significand % 2 = 0 then number.lower ≤ value ∧ value ≤ number.upper
  else number.lower < value ∧ value < number.upper

theorem ratio_pow (base : Nat) (hb : 0 < base) (power : Int) :
    (base : ℚ) ^ power.toNat / (base : ℚ) ^ (-power).toNat = (base : ℚ) ^ power := by
  have hne : (base : ℚ) ≠ 0 := by positivity
  rcases Int.le_total 0 power with h | h
  · obtain ⟨n, rfl⟩ := Int.eq_ofNat_of_zero_le h
    simp
  · obtain ⟨n, hn⟩ := Int.eq_ofNat_of_zero_le (Int.neg_nonneg_of_nonpos h)
    obtain rfl : power = -(n : Int) := by omega
    simp

theorem ratio_fraction (number : Binary) : ratio number.fraction = number.magnitude := by
  have hpow := ratio_pow 2 (by decide) number.exponent
  simp only [ratio, fraction, magnitude, Nat.pow_eq, Nat.cast_mul, Nat.cast_pow, Nat.cast_ofNat] at *
  rw [← hpow, mul_div_assoc]

end Binary

theorem ratio_scale (fraction : Nat × Nat) (power : Int) :
    ratio (scale fraction power) = ratio fraction * (10 : ℚ) ^ power := by
  have hpow := Binary.ratio_pow 10 (by decide) power
  simp only [ratio, scale, Nat.pow_eq, Nat.cast_mul, Nat.cast_pow, Nat.cast_ofNat] at *
  rw [← hpow, mul_div_mul_comm]

namespace Shortest

theorem ratio_unit (number : Binary) :
    ratio { number with significand := 1, exponent := number.exponent - 2 : Binary }.fraction * 4 =
      (2 : ℚ) ^ number.exponent := by
  rw [Binary.ratio_fraction, Binary.magnitude, zpow_sub₀ (by norm_num)]
  norm_num

theorem lower_eq {number : Binary} (h : 0 < number.significand) :
    (number.interval.2.1 : ℚ) = 4 * (number.significand - number.gap) := by
  have hle : (if number.significand = Nat.pow 2 52 && number.exponent ≠ -1074 then 1 else 2) ≤
      4 * number.significand := by
    split <;> omega
  rw [Binary.interval, Binary.gap, Nat.cast_sub hle]
  by_cases hp : number.significand = 2 ^ 52 ∧ number.exponent ≠ -1074
  · have hbelow : (number.significand = Nat.pow 2 52 && number.exponent ≠ -1074) = true := by
      simpa using hp
    rw [if_pos hp, if_pos hbelow]
    push_cast
    ring
  · have hbelow : ¬(number.significand = Nat.pow 2 52 && number.exponent ≠ -1074) = true := by
      simpa using hp
    rw [if_neg hp, if_neg hbelow]
    push_cast
    ring

theorem upper_eq (number : Binary) :
    (number.interval.2.2 : ℚ) = 4 * (number.significand + 1 / 2) := by
  rw [Binary.interval]
  push_cast
  ring

theorem reads_iff {number : Binary} (h : 0 < number.significand) {candidate : Nat × Nat}
    (hc : 0 < candidate.2) : reads number candidate = true ↔ number.Holds (ratio candidate) := by
  let unit := { number with significand := 1, exponent := number.exponent - 2 : Binary }.fraction
  have hunit : 0 < unit.2 := Nat.pow_pos (by decide)
  have hscaled : ∀ bound : ℕ, ∀ value : ℚ, (bound : ℚ) = 4 * value →
      (bound : ℚ) * (unit.1 / unit.2) = value * (2 : ℚ) ^ number.exponent := by
    intro bound value hbound
    rw [hbound, ← ratio_unit]
    change _ = value * ((unit.1 : ℚ) / unit.2 * 4)
    ring
  have hlower := hscaled _ _ (lower_eq h)
  have hupper := hscaled _ _ (upper_eq number)
  have hle : ∀ bound : ℕ, (bound * (unit.1 * candidate.2) ≤ candidate.1 * unit.2 ↔
      (bound : ℚ) * (unit.1 / unit.2) ≤ ratio candidate) := by
    intro bound
    rw [ratio, mul_div_assoc', div_le_div_iff₀ (by positivity) (by positivity), mul_assoc]
    norm_cast
  have hge : ∀ bound : ℕ, (candidate.1 * unit.2 ≤ bound * (unit.1 * candidate.2) ↔
      ratio candidate ≤ (bound : ℚ) * (unit.1 / unit.2)) := by
    intro bound
    rw [ratio, mul_div_assoc', div_le_div_iff₀ (by positivity) (by positivity), mul_assoc]
    norm_cast
  rw [Binary.Holds, Binary.lower, Binary.upper, ← hlower, ← hupper, ← hle, ← hge, ← not_le,
    ← not_le, ← hge, ← hle, not_le, not_le, reads]
  by_cases heven : number.significand % 2 = 0
  · simp [heven, unit]
  · simp [heven, unit]

end Shortest

/-! ## Leading digits -/

theorem powerBelowOne_spec {fraction : Nat × Nat} (hd : 0 < fraction.2) {rounds power : Nat}
    (hlt : fraction.1 * 10 ^ power < fraction.2)
    (hle : fraction.2 ≤ fraction.1 * 10 ^ (power + rounds)) :
    (10 : ℚ) ^ powerBelowOne fraction rounds (power + 1) ≤ ratio fraction ∧
      ratio fraction < (10 : ℚ) ^ (powerBelowOne fraction rounds (power + 1) + 1) := by
  induction rounds generalizing power with
  | zero => exact absurd hle (Nat.not_le.2 hlt)
  | succ rounds ih =>
      rw [powerBelowOne]
      split
      · next hreached =>
          have hpos : (0 : ℚ) < fraction.2 := Nat.cast_pos.2 hd
          have hnext : -((power + 1 : Nat) : Int) + 1 = -(power : Int) := by omega
          rw [hnext, zpow_neg, zpow_neg, zpow_natCast, zpow_natCast, ratio]
          constructor
          · rw [inv_le_iff_one_le_mul₀ (by positivity), div_mul_eq_mul_div, le_div_iff₀ hpos, one_mul]
            exact_mod_cast hreached
          · rw [div_lt_iff₀ hpos, inv_mul_eq_div, lt_div_iff₀ (by positivity)]
            exact_mod_cast hlt
      · next hbelow =>
          refine ih (Nat.not_le.1 hbelow) ?_
          rwa [Nat.add_right_comm]

theorem leadingExponent_spec {fraction : Nat × Nat} (hd : 0 < fraction.2)
    (hsmall : fraction.2 ≤ fraction.1 * 10 ^ 400) :
    (10 : ℚ) ^ leadingExponent fraction ≤ ratio fraction ∧
      ratio fraction < (10 : ℚ) ^ (leadingExponent fraction + 1) := by
  rw [leadingExponent]
  split
  · next hle =>
      have hpos : (0 : ℚ) < fraction.2 := Nat.cast_pos.2 hd
      obtain ⟨count, hcount⟩ := Nat.exists_eq_add_one_of_ne_zero
        (Nat.ne_of_gt (@Nat.length_toDigits_pos 10 (fraction.1 / fraction.2)))
      have hdigits : digits (fraction.1 / fraction.2) = Nat.toDigits 10 (fraction.1 / fraction.2) :=
        Nat.toList_repr
      have hupper : fraction.1 / fraction.2 < 10 ^ (count + 1) :=
        (Nat.length_toDigits_le_iff (by decide) (Nat.succ_pos count)).1 hcount.le
      have hlower : 10 ^ count ≤ fraction.1 / fraction.2 := by
        rcases Nat.eq_zero_or_pos count with rfl | hc
        · exact Nat.div_pos hle hd
        · by_contra hlt
          have := (Nat.length_toDigits_le_iff (by decide) hc).2 (Nat.not_le.1 hlt)
          omega
      have hexponent : ((count + 1 : Nat) : Int) - 1 = count := by omega
      rw [hdigits, hcount, hexponent, ← Nat.cast_succ, zpow_natCast, zpow_natCast, ratio]
      constructor
      · rw [le_div_iff₀ hpos]
        exact_mod_cast (Nat.le_div_iff_mul_le hd).1 hlower
      · rw [div_lt_iff₀ hpos]
        exact_mod_cast (Nat.div_lt_iff_lt_mul hd).1 hupper
  · next hlt => exact powerBelowOne_spec hd (by simpa using hlt) ((Nat.zero_add 400).symm ▸ hsmall)

/-! ## The search -/

def Short.magnitude (short : Short) : ℚ := short.digits * (10 : ℚ) ^ short.exponent

theorem ratio_scale_digits (digits : Nat) (exponent : Int) :
    ratio (scale (digits, 1) exponent) = (Short.mk digits exponent).magnitude := by
  rw [ratio_scale, Short.magnitude, ratio]
  simp

namespace Binary

/-- A number above zero that a machine word can hold. -/
structure IsDouble (number : Binary) : Prop where
  pos : 0 < number.significand
  lt : number.significand < 2 ^ 53
  le_exponent : -1074 ≤ number.exponent
  exponent_le : number.exponent ≤ 971
  normal : number.exponent = -1074 ∨ 2 ^ 52 ≤ number.significand

theorem isDouble_of_ofBits {bits : UInt64} {number : Binary}
    (h : Value.ofBits bits = .finite number) (hpos : 0 < number.significand) :
    number.IsDouble := by
  have hbiased : bits.toNat / Nat.pow 2 52 % Nat.pow 2 11 < 2 ^ 11 :=
    Nat.mod_lt _ (by decide)
  have hfraction : bits.toNat % Nat.pow 2 52 < 2 ^ 52 := Nat.mod_lt _ (by decide)
  unfold Value.ofBits at h
  dsimp only at h
  generalize bits.toNat / Nat.pow 2 52 % Nat.pow 2 11 = biased at *
  generalize bits.toNat % Nat.pow 2 52 = fraction at *
  split at h
  · split at h <;> cases h
  · split at h
    · cases h
      exact ⟨hpos, by simp only; omega, by simp, by simp, .inl rfl⟩
    · cases h
      refine ⟨hpos, ?_, ?_, ?_, .inr (Nat.le_add_right _ _)⟩
      · simp only [Nat.pow_eq]
        omega
      · simp only
        omega
      · simp only
        omega

variable {number : Binary}

theorem gap_le (number : Binary) : number.gap ≤ 1 / 2 := by
  rw [gap]
  split <;> norm_num

theorem IsDouble.lower_pos (h : number.IsDouble) : 0 < number.lower := by
  have hone : (1 : ℚ) ≤ number.significand := by exact_mod_cast h.pos
  have hgap := number.gap_le
  have hpow : (0 : ℚ) < (2 : ℚ) ^ number.exponent := by positivity
  exact mul_pos (by linarith) hpow

theorem magnitude_le_upper (number : Binary) : number.magnitude ≤ number.upper :=
  mul_le_mul_of_nonneg_right (by linarith) (by positivity)

theorem Holds.bounds {value : ℚ} (h : number.Holds value) :
    number.lower ≤ value ∧ value ≤ number.upper := by
  rw [Holds] at h
  split at h
  · exact h
  · exact ⟨h.1.le, h.2.le⟩

theorem Holds.isNearest {value : ℚ} (h : number.Holds value) :
    IsNearest (value / (2 : ℚ) ^ number.exponent) number.significand := by
  have hpos : (0 : ℚ) < (2 : ℚ) ^ number.exponent := by positivity
  have hgap := number.gap_le
  obtain ⟨hlower, hupper⟩ := h.bounds
  rw [lower, ← le_div_iff₀ hpos] at hlower
  rw [upper, ← div_le_iff₀ hpos] at hupper
  refine ⟨by linarith, by linarith, fun hodd => ?_⟩
  rw [Holds, if_neg (by omega), lower, upper, ← lt_div_iff₀ hpos, ← div_lt_iff₀ hpos] at h
  exact ⟨by linarith [h.1], h.2⟩

theorem IsDouble.holds_of_abs_lt (h : number.IsDouble) {value : ℚ}
    (hv : |value - number.magnitude| * 2 ^ 54 < number.magnitude) : number.Holds value := by
  have hpow : (0 : ℚ) < (2 : ℚ) ^ number.exponent := by positivity
  have hsignificand : (number.significand : ℚ) < 2 ^ 53 := by exact_mod_cast h.lt
  have hgap : (number.significand : ℚ) ≤ number.gap * 2 ^ 54 := by
    rw [gap]
    split
    · next hp =>
        rw [hp.1]
        norm_num
    · linarith
  have hlower : |value - number.magnitude| < number.gap * (2 : ℚ) ^ number.exponent := by
    have hle := mul_le_mul_of_nonneg_right hgap hpow.le
    rw [magnitude] at hv ⊢
    nlinarith
  have hupper : |value - number.magnitude| < 1 / 2 * (2 : ℚ) ^ number.exponent :=
    hlower.trans_le (mul_le_mul_of_nonneg_right number.gap_le hpow.le)
  rw [abs_lt] at hlower hupper
  have hstrict : number.lower < value ∧ value < number.upper := by
    rw [lower, upper, sub_mul, add_mul]
    rw [magnitude] at hlower hupper
    exact ⟨by linarith, by linarith⟩
  rw [Holds]
  split
  · exact ⟨hstrict.1.le, hstrict.2.le⟩
  · exact hstrict

theorem IsDouble.leadingExponent_spec (h : number.IsDouble) :
    (10 : ℚ) ^ leadingExponent number.fraction ≤ number.magnitude ∧
      number.magnitude < (10 : ℚ) ^ (leadingExponent number.fraction + 1) := by
  rw [← ratio_fraction]
  refine Decimal.leadingExponent_spec (Nat.pow_pos (by decide)) ?_
  have hnumerator : 0 < number.fraction.1 := Nat.mul_pos h.pos (Nat.pow_pos (by decide))
  have hexponent : (-number.exponent).toNat ≤ 1074 := by
    have := h.le_exponent
    omega
  have hten : ∀ power, 2 ^ (3 * power) ≤ 10 ^ power := fun power => by
    rw [Nat.pow_mul]
    exact Nat.pow_le_pow_left (by decide) power
  calc number.fraction.2 ≤ 2 ^ (3 * 400) := Nat.pow_le_pow_right (by decide) (by omega)
    _ ≤ 10 ^ 400 := hten 400
    _ ≤ number.fraction.1 * 10 ^ 400 := Nat.le_mul_of_pos_left _ hnumerator

end Binary

theorem Binary.IsDouble.leadingExponent_eq {number : Binary} (h : number.IsDouble) {place : Int}
    (hlower : (10 : ℚ) ^ place ≤ number.magnitude)
    (hupper : number.magnitude < (10 : ℚ) ^ (place + 1)) :
    leadingExponent number.fraction = place := by
  obtain ⟨hle, hlt⟩ := h.leadingExponent_spec
  have hbelow := (zpow_lt_zpow_iff_right₀ (by norm_num)).1 (hle.trans_lt hupper)
  have habove := (zpow_lt_zpow_iff_right₀ (by norm_num)).1 (hlower.trans_lt hlt)
  omega

namespace Shortest

variable {number : Binary}

theorem atPlace_eq_some {exponent : Int} {short : Short} (h : number.IsDouble)
    (hplace : atPlace number exponent = some short) :
    short.exponent = exponent ∧ number.Holds short.magnitude ∧
      (short.digits : ℚ) ≤ number.magnitude * (10 : ℚ) ^ (-exponent) + 1 := by
  let scaled := scale number.fraction (-exponent)
  have hscaled : ratio scaled = number.magnitude * (10 : ℚ) ^ (-exponent) := by
    rw [ratio_scale, Binary.ratio_fraction]
  have hpos : 0 < scaled.2 := Nat.mul_pos (Nat.pow_pos (by decide)) (Nat.pow_pos (by decide))
  have hfloor : ((scaled.1 / scaled.2 : ℕ) : ℚ) ≤ number.magnitude * (10 : ℚ) ^ (-exponent) := by
    rw [← hscaled, ratio]
    exact Nat.cast_div_le
  have hnearest := (isNearest_roundDiv scaled.1 hpos).lower
  change _ ≤ ratio scaled at hnearest
  rw [hscaled] at hnearest
  have hgood : ∀ digits, reads number (scale (digits, 1) exponent) = true →
      number.Holds (Short.mk digits exponent).magnitude := by
    intro digits hreads
    rw [← ratio_scale_digits]
    exact (reads_iff h.pos (Nat.mul_pos Nat.one_pos (Nat.pow_pos (by decide)))).1 hreads
  let other := if roundDiv scaled.1 scaled.2 = scaled.1 / scaled.2 then scaled.1 / scaled.2 + 1
    else scaled.1 / scaled.2
  have hother : (other : ℚ) ≤ number.magnitude * (10 : ℚ) ^ (-exponent) + 1 := by
    simp only [other]
    split
    · push_cast
      linarith
    · linarith
  have heq : atPlace number exponent =
      if reads number (scale (roundDiv scaled.1 scaled.2, 1) exponent) = true then
        some ⟨roundDiv scaled.1 scaled.2, exponent⟩
      else if reads number (scale (other, 1) exponent) = true then some ⟨other, exponent⟩
      else none := rfl
  rw [heq] at hplace
  split at hplace
  · next hreads =>
      cases hplace
      exact ⟨rfl, hgood _ hreads, by linarith⟩
  split at hplace
  · next hreads =>
      cases hplace
      exact ⟨rfl, hgood _ hreads, hother⟩
  · cases hplace

theorem atPlace_seventeen (h : number.IsDouble) :
    ∃ short, atPlace number (leadingExponent number.fraction - 17 + 1) = some short := by
  let place := leadingExponent number.fraction - 17 + 1
  let scaled := scale number.fraction (-place)
  have hscaled : ratio scaled = number.magnitude * (10 : ℚ) ^ (-place) := by
    rw [ratio_scale, Binary.ratio_fraction]
  have hpos : 0 < scaled.2 := Nat.mul_pos (Nat.pow_pos (by decide)) (Nat.pow_pos (by decide))
  have hnearest := isNearest_roundDiv scaled.1 hpos
  change IsNearest (ratio scaled) _ at hnearest
  rw [hscaled] at hnearest
  have hplace : (0 : ℚ) < (10 : ℚ) ^ place := by positivity
  have hunit : number.magnitude * (10 : ℚ) ^ (-place) * (10 : ℚ) ^ place = number.magnitude := by
    rw [mul_assoc, ← zpow_add₀ (by norm_num), neg_add_cancel, zpow_zero, mul_one]
  have hleading : (10 : ℚ) ^ place * 10 ^ 16 ≤ number.magnitude := by
    refine le_of_eq_of_le ?_ h.leadingExponent_spec.1
    rw [← zpow_natCast, ← zpow_add₀ (by norm_num)]
    congr 1
    simp only [place]
    omega
  have hdistance : |(Short.mk (roundDiv scaled.1 scaled.2) place).magnitude - number.magnitude| ≤
      (10 : ℚ) ^ place / 2 := by
    have hlower := mul_le_mul_of_nonneg_right hnearest.lower hplace.le
    have hupper := mul_le_mul_of_nonneg_right hnearest.upper hplace.le
    rw [hunit] at hlower hupper
    rw [Short.magnitude, abs_le]
    exact ⟨by linarith, by linarith⟩
  have hholds := h.holds_of_abs_lt
    (show |(Short.mk (roundDiv scaled.1 scaled.2) place).magnitude - number.magnitude| * 2 ^ 54 <
      number.magnitude by linarith)
  rw [← ratio_scale_digits,
    ← reads_iff h.pos (Nat.mul_pos Nat.one_pos (Nat.pow_pos (by decide)))] at hholds
  exact ⟨_, if_pos hholds⟩

theorem fromLength_spec {leading : Int} {short : Short} {rounds length : Nat}
    (hplace : atPlace number (leading - 17 + 1) = some short) (hle : length ≤ 17)
    (hlt : 17 < length + rounds) :
    ∃ count : Nat, count ≤ 17 ∧ atPlace number (leading - count + 1) =
      some (fromLength number leading rounds length) := by
  induction rounds generalizing length with
  | zero => omega
  | succ rounds ih =>
      rw [fromLength]
      cases hfound : atPlace number (leading - length + 1) with
      | some found => exact ⟨length, hle, hfound⟩
      | none =>
          have hne : length ≠ 17 := by
            rintro rfl
            cases hplace.symm.trans hfound
          exact ih (by omega) (by omega)

theorem trimZeros_spec (rounds : Nat) (short : Short) :
    (trimZeros rounds short).magnitude = short.magnitude ∧
      (trimZeros rounds short).digits ≤ short.digits := by
  induction rounds generalizing short with
  | zero => exact ⟨rfl, le_rfl⟩
  | succ rounds ih =>
      rw [trimZeros]
      split
      · next hzero =>
          obtain ⟨hmagnitude, hdigits⟩ := ih ⟨short.digits / 10, short.exponent + 1⟩
          refine ⟨hmagnitude.trans ?_, hdigits.trans (Nat.div_le_self _ _)⟩
          have hdigit : (short.digits : ℚ) = 10 * (short.digits / 10 : ℕ) := by
            exact_mod_cast (Nat.mul_div_cancel' (Nat.dvd_of_mod_eq_zero hzero)).symm
          rw [Short.magnitude, Short.magnitude, hdigit, zpow_add_one₀ (by norm_num)]
          ring
      · exact ⟨rfl, le_rfl⟩

end Shortest

theorem shortest_spec {number : Binary} (h : number.IsDouble) :
    number.Holds (shortest number).magnitude ∧ (shortest number).digits ≤ 10 ^ 17 := by
  obtain ⟨short, hshort⟩ := Shortest.atPlace_seventeen h
  obtain ⟨count, hcount, hplace⟩ := @Shortest.fromLength_spec number _ _ 18 1 hshort (by decide)
    (by decide)
  obtain ⟨-, hholds, hdigits⟩ := Shortest.atPlace_eq_some h hplace
  obtain ⟨hmagnitude, htrimmed⟩ := Shortest.trimZeros_spec 18
    (Shortest.fromLength number (leadingExponent number.fraction) 18 1)
  rw [shortest, hmagnitude]
  refine ⟨hholds, htrimmed.trans ?_⟩
  have hten : number.magnitude *
      (10 : ℚ) ^ (-(leadingExponent number.fraction - count + 1)) < 10 ^ 17 := by
    have hpos : (0 : ℚ) < (10 : ℚ) ^ (-(leadingExponent number.fraction - count + 1)) := by
      positivity
    calc number.magnitude * (10 : ℚ) ^ (-(leadingExponent number.fraction - count + 1))
        < (10 : ℚ) ^ (leadingExponent number.fraction + 1) *
            (10 : ℚ) ^ (-(leadingExponent number.fraction - count + 1)) :=
          mul_lt_mul_of_pos_right h.leadingExponent_spec.2 hpos
      _ = 10 ^ count := by
          rw [← zpow_add₀ (by norm_num), ← zpow_natCast]
          congr 1
          omega
      _ ≤ 10 ^ 17 := pow_le_pow_right₀ (by norm_num) hcount
  have hlt : ((Shortest.fromLength number (leadingExponent number.fraction) 18 1).digits : ℚ) <
      (10 ^ 17 + 1 : ℕ) := by
    push_cast
    linarith
  exact Nat.lt_succ_iff.1 (Nat.cast_lt.1 hlt)

theorem shortest_digits_pos {number : Binary} (h : number.IsDouble) :
    0 < (shortest number).digits := by
  have hpos := h.lower_pos.trans_le (shortest_spec h).1.bounds.1
  refine Nat.pos_of_ne_zero fun hzero => ?_
  rw [Short.magnitude, hzero, Nat.cast_zero, zero_mul] at hpos
  exact lt_irrefl _ hpos

/-! ## The range of exponents -/

/-- Halfway between the greatest number and the one that would come after it. -/
def overflow : ℚ := (2 ^ 53 - 1 / 2) * (2 : ℚ) ^ (971 : ℤ)

theorem overflow_lt_ten_pow : overflow < (10 : ℚ) ^ (309 : ℤ) := by
  have hnat : 2 ^ 53 * 2 ^ 971 < 10 ^ 309 := by decide +kernel
  calc overflow ≤ 2 ^ 53 * (2 : ℚ) ^ (971 : ℤ) :=
        mul_le_mul_of_nonneg_right (by norm_num) (by positivity)
    _ < (10 : ℚ) ^ (309 : ℤ) := by exact_mod_cast hnat

theorem ten_pow_le_least : (10 : ℚ) ^ (-324 : ℤ) ≤ (2 : ℚ) ^ (-1075 : ℤ) := by
  have hnat : 2 ^ 1075 ≤ 10 ^ 324 := by decide +kernel
  rw [zpow_neg, zpow_neg]
  exact inv_anti₀ (by positivity) (by exact_mod_cast hnat)

theorem Binary.IsDouble.upper_le {number : Binary} (h : number.IsDouble) :
    number.upper ≤ overflow := by
  have hsignificand : (number.significand : ℚ) + 1 ≤ 2 ^ 53 := by exact_mod_cast h.lt
  exact mul_le_mul (by linarith) (zpow_le_zpow_right₀ (by norm_num) h.exponent_le) (by positivity)
    (by norm_num)

theorem Binary.IsDouble.le_lower {number : Binary} (h : number.IsDouble) :
    (2 : ℚ) ^ (-1075 : ℤ) ≤ number.lower := by
  have hone : (1 : ℚ) ≤ number.significand := by exact_mod_cast h.pos
  have hgap := number.gap_le
  calc (2 : ℚ) ^ (-1075 : ℤ) = 1 / 2 * (2 : ℚ) ^ (-1074 : ℤ) := by
        rw [one_div, ← zpow_neg_one, ← zpow_add₀ (by norm_num)]
        norm_num
    _ ≤ number.lower := mul_le_mul (by linarith)
        (zpow_le_zpow_right₀ (by norm_num) h.le_exponent) (by positivity) (by linarith)

theorem shortest_exponent_bounds {number : Binary} (h : number.IsDouble) :
    -341 ≤ (shortest number).exponent ∧ (shortest number).exponent ≤ 308 := by
  obtain ⟨hholds, hdigits⟩ := shortest_spec h
  obtain ⟨hlower, hupper⟩ := hholds.bounds
  have hpos : (0 : ℚ) < (10 : ℚ) ^ (shortest number).exponent := by positivity
  rw [Short.magnitude] at hlower hupper
  constructor
  · have hten : (shortest number).digits ≤ (10 : ℚ) ^ (17 : ℤ) := by exact_mod_cast hdigits
    have hsmall : (10 : ℚ) ^ (-324 : ℤ) ≤ (10 : ℚ) ^ (17 + (shortest number).exponent) := by
      calc (10 : ℚ) ^ (-324 : ℤ) ≤ (2 : ℚ) ^ (-1075 : ℤ) := ten_pow_le_least
        _ ≤ (shortest number).digits * (10 : ℚ) ^ (shortest number).exponent :=
            h.le_lower.trans hlower
        _ ≤ (10 : ℚ) ^ (17 : ℤ) * (10 : ℚ) ^ (shortest number).exponent :=
            mul_le_mul_of_nonneg_right hten hpos.le
        _ = (10 : ℚ) ^ (17 + (shortest number).exponent) := (zpow_add₀ (by norm_num) _ _).symm
    have := (zpow_le_zpow_iff_right₀ (by norm_num)).1 hsmall
    omega
  · have hone : (1 : ℚ) ≤ (shortest number).digits := by exact_mod_cast shortest_digits_pos h
    have hlarge : (10 : ℚ) ^ (shortest number).exponent < (10 : ℚ) ^ (309 : ℤ) := by
      calc (10 : ℚ) ^ (shortest number).exponent
          ≤ (shortest number).digits * (10 : ℚ) ^ (shortest number).exponent :=
            le_mul_of_one_le_left hpos.le hone
        _ ≤ overflow := hupper.trans h.upper_le
        _ < (10 : ℚ) ^ (309 : ℤ) := overflow_lt_ten_pow
    have := (zpow_lt_zpow_iff_right₀ (by norm_num)).1 hlarge
    omega

end CodeAtlas.Decimal
