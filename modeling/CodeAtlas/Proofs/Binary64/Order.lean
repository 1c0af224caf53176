import Mathlib

/-!
# The order of floating-point numbers

Numbers are compared by sign, exponent and significand. Apart from those that are undefined they are
ordered like keys of a linear order, in which both zeros have one key.
-/

namespace CodeAtlas.Binary64

open Float.Model

/-- What a number is ordered by: which side of zero it is on, its exponent and its significand. -/
def unpackedKey : UnpackedFloat → ℤ ×ₗ ℤ ×ₗ ℤ
  | .notANumber => toLex (0, toLex (0, 0))
  | .infinity .negative => toLex (-2, toLex (0, 0))
  | .infinity .positive => toLex (2, toLex (0, 0))
  | .zero _ => toLex (0, toLex (0, 0))
  | .finite .negative significand exponent _ => toLex (-1, toLex (-exponent, -significand))
  | .finite .positive significand exponent _ => toLex (1, toLex (exponent, significand))

theorem compare_then_eq_lt_iff {a c : Int} {b d : Nat} :
    (compare a c).then (compare b d) = .lt ↔ a < c ∨ a = c ∧ b < d := by
  rw [Ordering.then_eq_lt, compare_lt_iff_lt, compare_lt_iff_lt, compare_eq_iff_eq]

theorem compare_then_eq_gt_iff {a c : Int} {b d : Nat} :
    (compare a c).then (compare b d) = .gt ↔ c < a ∨ a = c ∧ d < b := by
  rw [Ordering.then_eq_gt, compare_gt_iff_gt, compare_gt_iff_gt, compare_eq_iff_eq]

theorem lt_unpacked_iff {a b : UnpackedFloat} (ha : a.isNaN = false) (hb : b.isNaN = false) :
    a.lt b = true ↔ unpackedKey a < unpackedKey b := by
  have hlt {order : Ordering} : (some order == some Ordering.lt) = true ↔ order = .lt := by simp
  have hsign : compare UnpackedFloat.Sign.negative .positive = .lt := rfl
  rcases a with ⟨_ | _⟩ | _ | _ | ⟨_ | _, am, ae, _⟩ <;>
    rcases b with ⟨_ | _⟩ | _ | _ | ⟨_ | _, bm, be, _⟩ <;>
    simp_all [UnpackedFloat.lt, UnpackedFloat.compare, UnpackedFloat.isNaN, unpackedKey,
      Prod.Lex.toLex_lt_toLex, compare_then_eq_lt_iff, compare_then_eq_gt_iff]

def key (number : Float) : ℤ ×ₗ ℤ ×ₗ ℤ := unpackedKey number.toModel.unpack

theorem lt_iff {a b : Float} (ha : a.isNaN = false) (hb : b.isNaN = false) :
    a < b ↔ key a < key b := by
  rw [key, key, ← lt_unpacked_iff ha hb]
  change (decide (a.toModel.unpack.lt b.toModel.unpack = true)) = true ↔ _
  rw [decide_eq_true_eq]

end CodeAtlas.Binary64
