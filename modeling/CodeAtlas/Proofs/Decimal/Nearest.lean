import CodeAtlas.Decimal.Rounded
import Mathlib.Algebra.Order.Field.Basic
import Mathlib.Algebra.Order.Field.Rat
import Mathlib.Data.Rat.Cast.Order
import Mathlib.Tactic.FieldSimp
import Mathlib.Tactic.Linarith
import Mathlib.Tactic.NormNum
import Mathlib.Tactic.Positivity

/-!
# The nearest whole number

Of two whole numbers that are equally near the even one counts, so that there is only one nearest.
-/

namespace CodeAtlas.Decimal

/-- A whole number at most half away, and less than that if it is odd. -/
structure IsNearest (value : ℚ) (number : ℕ) : Prop where
  lower : number - 1 / 2 ≤ value
  upper : value ≤ number + 1 / 2
  strict : number % 2 = 1 → number - 1 / 2 < value ∧ value < number + 1 / 2

namespace IsNearest

variable {value other : ℚ} {number bound : ℕ}

theorem le_of_le (h : IsNearest value number) (hother : IsNearest other bound)
    (hle : value ≤ other) : number ≤ bound := by
  by_contra hlt
  have hsucc : bound + 1 ≤ number := Nat.not_le.1 hlt
  have hcast : (bound : ℚ) + 1 ≤ number := by exact_mod_cast hsucc
  -- Both would be half away, on the two sides of one number.
  have hnext : number = bound + 1 := by
    have : (number : ℚ) ≤ bound + 1 := by linarith [h.lower, hother.upper]
    exact Nat.le_antisymm (by exact_mod_cast this) hsucc
  rcases Nat.mod_two_eq_zero_or_one number with heven | hodd
  · have := (hother.strict (by omega)).2
    linarith [h.lower]
  · have := (h.strict hodd).1
    linarith [hother.upper]

theorem unique (h : IsNearest value number) (hother : IsNearest value bound) : number = bound :=
  Nat.le_antisymm (h.le_of_le hother le_rfl) (hother.le_of_le h le_rfl)

theorem natCast (number : ℕ) : IsNearest number number := by
  constructor
  · linarith
  · linarith
  · exact fun _ => ⟨by linarith, by linarith⟩

end IsNearest

theorem natCast_div_eq (numerator : ℕ) {denominator : ℕ} (hd : 0 < denominator) :
    (numerator : ℚ) / denominator =
      (numerator / denominator : ℕ) + ((numerator % denominator : ℕ) : ℚ) / denominator := by
  have hdivision : (numerator : ℚ) =
      denominator * (numerator / denominator : ℕ) + (numerator % denominator : ℕ) := by
    exact_mod_cast (Nat.div_add_mod numerator denominator).symm
  have hpos : (0 : ℚ) < denominator := Nat.cast_pos.2 hd
  field_simp
  linarith

theorem isNearest_roundDiv (numerator : ℕ) {denominator : ℕ} (hd : 0 < denominator) :
    IsNearest ((numerator : ℚ) / denominator) (roundDiv numerator denominator) := by
  have hpos : (0 : ℚ) < denominator := Nat.cast_pos.2 hd
  have hnonneg : (0 : ℚ) ≤ ((numerator % denominator : ℕ) : ℚ) / denominator := by positivity
  have hone : ((numerator % denominator : ℕ) : ℚ) / denominator < 1 := by
    rw [div_lt_one hpos]
    exact_mod_cast Nat.mod_lt numerator hd
  rw [natCast_div_eq numerator hd, roundDiv]
  generalize hq : numerator / denominator = quotient at *
  generalize hr : numerator % denominator = rest at *
  by_cases hlow : 2 * rest < denominator
  · have hhalf : (rest : ℚ) / denominator < 1 / 2 := by
      rw [div_lt_div_iff₀ hpos (by norm_num)]
      exact_mod_cast (by omega : rest * 2 < 1 * denominator)
    rw [if_pos hlow]
    exact ⟨by linarith, by linarith, fun _ => ⟨by linarith, by linarith⟩⟩
  rw [if_neg hlow]
  by_cases htie : 2 * rest = denominator
  · have hhalf : (rest : ℚ) / denominator = 1 / 2 := by
      rw [div_eq_div_iff hpos.ne' (by norm_num)]
      exact_mod_cast (by omega : rest * 2 = 1 * denominator)
    rw [if_pos htie, hhalf]
    rcases Nat.mod_two_eq_zero_or_one quotient with heven | hodd
    · rw [heven, Nat.add_zero]
      exact ⟨by linarith, by linarith, fun hodd => by omega⟩
    · rw [hodd]
      exact ⟨by push_cast; linarith, by push_cast; linarith, fun hodd => by omega⟩
  · have hhalf : 1 / 2 < (rest : ℚ) / denominator := by
      rw [div_lt_div_iff₀ (by norm_num) hpos]
      exact_mod_cast (by omega : 1 * denominator < rest * 2)
    rw [if_neg htie]
    refine ⟨?_, ?_, fun _ => ⟨?_, ?_⟩⟩ <;> push_cast <;> linarith

end CodeAtlas.Decimal
