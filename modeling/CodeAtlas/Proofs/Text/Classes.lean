/-!
# Character classes

The letters and digits of ASCII by their codes, and what becomes of capital letters.
-/

namespace CodeAtlas.Text

variable {char : Char}

theorem isLower_iff_val :
    char.isLower = true ↔ char.val ≥ 'a'.val ∧ char.val ≤ 'z'.val := by
  show (decide (char.val ≥ 'a'.val) && decide (char.val ≤ 'z'.val)) = true ↔ _
  rw [Bool.and_eq_true, decide_eq_true_eq, decide_eq_true_eq]

theorem isLower_iff : char.isLower = true ↔ 97 ≤ char.toNat ∧ char.toNat ≤ 122 := by
  rw [isLower_iff_val, ge_iff_le, UInt32.le_iff_toNat_le, UInt32.le_iff_toNat_le]
  rfl

theorem isUpper_iff : char.isUpper = true ↔ 65 ≤ char.toNat ∧ char.toNat ≤ 90 := by
  show decide (char.val ≥ 'A'.val ∧ char.val ≤ 'Z'.val) = true ↔ _
  rw [decide_eq_true_eq, ge_iff_le, UInt32.le_iff_toNat_le, UInt32.le_iff_toNat_le]
  rfl

theorem isDigit_iff : char.isDigit = true ↔ 48 ≤ char.toNat ∧ char.toNat ≤ 57 :=
  Char.isDigit_iff_toNat

theorem isAlpha_iff : char.isAlpha = true ↔ char.isUpper = true ∨ char.isLower = true :=
  Bool.or_eq_true_iff

theorem isAlphanum_iff : char.isAlphanum = true ↔ char.isAlpha = true ∨ char.isDigit = true :=
  Bool.or_eq_true_iff

theorem isUpper_of_isLower (h : char.isLower = true) : char.isUpper = false := by
  rw [← Bool.not_eq_true, isUpper_iff]
  rw [isLower_iff] at h
  omega

theorem isUpper_of_isDigit (h : char.isDigit = true) : char.isUpper = false := by
  rw [← Bool.not_eq_true, isUpper_iff]
  rw [isDigit_iff] at h
  omega

theorem toLower_of_not_isUpper (h : char.isUpper = false) : char.toLower = char := by
  unfold Char.toLower
  rw [dif_neg]
  exact of_decide_eq_false h

theorem toNat_toLower (h : char.isUpper = true) : char.toLower.toNat = char.toNat + 32 := by
  have hrange : char.val ≥ 'A'.val ∧ char.val ≤ 'Z'.val := of_decide_eq_true h
  have hval : char.toLower.val = char.val + 32 := by
    unfold Char.toLower
    rw [dif_pos hrange]
    rfl
  have hbound : 65 ≤ char.val.toNat ∧ char.val.toNat ≤ 90 := isUpper_iff.1 h
  have hstep : (32 : UInt32).toNat = 32 := rfl
  show char.toLower.val.toNat = char.val.toNat + 32
  rw [hval, UInt32.toNat_add]
  omega

theorem isLower_toLower (h : char.isUpper = true) : char.toLower.isLower = true := by
  rw [isLower_iff, toNat_toLower h]
  rw [isUpper_iff] at h
  omega

theorem toUpper_of_not_isLower (h : char.isLower = false) : char.toUpper = char := by
  unfold Char.toUpper
  rw [dif_neg]
  intro hrange
  exact absurd (isLower_iff_val.2 hrange) (by simp [h])

theorem toNat_toUpper (h : char.isLower = true) : char.toUpper.toNat = char.toNat - 32 := by
  have hrange := isLower_iff_val.1 h
  have hval : char.toUpper.val = char.val + ('A'.val - 'a'.val) := by
    unfold Char.toUpper
    rw [dif_pos hrange]
  have hbound : 97 ≤ char.val.toNat ∧ char.val.toNat ≤ 122 := isLower_iff.1 h
  have hstep : ('A'.val - 'a'.val).toNat = 2 ^ 32 - 32 := rfl
  show char.toUpper.val.toNat = char.val.toNat - 32
  rw [hval, UInt32.toNat_add, hstep]
  omega

theorem toLower_eq_iff {base : Char} (h : base.isUpper = false) :
    char.toLower = base ↔ char = base ∨ char = base.toUpper := by
  constructor
  · intro hlower
    cases hupper : char.isUpper with
    | false => exact .inl (by rw [← hlower, toLower_of_not_isUpper hupper])
    | true =>
        have hbase : base.toUpper.toNat = char.toNat := by
          rw [← hlower, toNat_toUpper (isLower_toLower hupper), toNat_toLower hupper,
            Nat.add_sub_cancel]
        exact .inr (Char.toNat_inj.1 hbase.symm)
  · rintro (rfl | rfl)
    · exact toLower_of_not_isUpper h
    · cases hlower : base.isLower with
      | false => rw [toUpper_of_not_isLower hlower, toLower_of_not_isUpper h]
      | true =>
          have hcode := toNat_toUpper hlower
          have hrange := isLower_iff.1 hlower
          have hupper : base.toUpper.isUpper = true := isUpper_iff.2 (by omega)
          refine Char.toNat_inj.1 ?_
          rw [toNat_toLower hupper, hcode]
          omega

end CodeAtlas.Text
