import CodeAtlas.Text.Utf8

/-!
# The order of bytes

Texts in the order of their characters are in the order of their bytes: an encoding shows the more
significant digits of a code point first, and a longer one starts with a greater byte.
-/

namespace CodeAtlas.Text.Utf8

/-! ## Encodings -/

private theorem toList_loop (bytes : ByteArray) (left i : Nat) (read : List UInt8)
    (hl : bytes.size - i = left) :
    ByteArray.toList.loop bytes i read = read.reverse ++ bytes.data.toList.drop i := by
  have hsize : bytes.data.toList.length = bytes.size := rfl
  induction left generalizing i read with
  | zero =>
      rw [ByteArray.toList.loop, if_neg (by omega), List.drop_eq_nil_of_le (by omega),
        List.append_nil]
  | succ left ih =>
      have hi : i < bytes.data.toList.length := by omega
      rw [ByteArray.toList.loop, if_pos (by omega), ih (i + 1) _ (by omega),
        List.drop_eq_getElem_cons hi]
      have hb : bytes.get! i = bytes.data.toList[i] := by simp [ByteArray.get!, hsize ▸ hi]
      simp [hb]

theorem encode_eq_flatMap (text : String) :
    encode text = text.toList.flatMap String.utf8EncodeChar := by
  have hb : text.toUTF8 = (text.toList.flatMap String.utf8EncodeChar).toByteArray :=
    String.utf8Encode_toList.symm
  rw [encode, hb, ByteArray.toList, toList_loop _ _ _ _ rfl]
  simp

/-! ## Characters -/

theorem toNat_ofNat_mod_add (number modulus mark : Nat) (hm : 0 < modulus)
    (hb : modulus + mark ≤ 256) :
    (UInt8.ofNat (number % modulus + mark)).toNat = number % modulus + mark := by
  have hd := Nat.mod_lt number hm
  rw [UInt8.toNat_ofNat', Nat.mod_eq_of_lt (by omega)]

/-- Of two code points the smaller one is smaller at the first digit at which they differ, in the
digits that four bytes hold. -/
private theorem digits_lt {m n : Nat} (h : m < n) (hn : n < 0x110000) :
    m / 262144 % 8 < n / 262144 % 8 ∨ m / 262144 % 8 = n / 262144 % 8 ∧
      (m / 4096 % 64 < n / 4096 % 64 ∨ m / 4096 % 64 = n / 4096 % 64 ∧
        (m / 64 % 64 < n / 64 % 64 ∨ m / 64 % 64 = n / 64 % 64 ∧ m % 64 < n % 64)) := by
  have hlow : m / 64 < n / 64 ∨ m / 64 = n / 64 ∧ m % 64 < n % 64 := by omega
  have hmid : m / 64 < n / 64 →
      m / 4096 < n / 4096 ∨ m / 4096 = n / 4096 ∧ m / 64 % 64 < n / 64 % 64 := by omega
  have hhigh : m / 4096 < n / 4096 →
      m / 262144 < n / 262144 ∨ m / 262144 = n / 262144 ∧ m / 4096 % 64 < n / 4096 % 64 := by omega
  have hmid' : m / 64 = n / 64 → m / 4096 = n / 4096 := by omega
  have hhigh' : m / 4096 = n / 4096 → m / 262144 = n / 262144 := by omega
  have hm8 : m / 262144 % 8 = m / 262144 := by omega
  have hn8 : n / 262144 % 8 = n / 262144 := by omega
  omega

/-- A smaller character has a smaller encoding, and what follows the two makes no difference. -/
theorem encodeChar_append_lt {left right : Char} (h : left < right) (a b : List UInt8) :
    String.utf8EncodeChar left ++ a < String.utf8EncodeChar right ++ b := by
  have hv : left.val.toNat < right.val.toNat := h
  have hr := right.valid
  simp only [UInt32.isValidChar, Nat.isValidChar] at hr
  unfold String.utf8EncodeChar
  generalize left.val.toNat = m at *
  generalize right.val.toNat = n at *
  have digits := digits_lt hv (by omega)
  have hm : m ≤ 0x7f → (UInt8.ofNat m).toNat = m := fun h => Nat.mod_eq_of_lt (by omega)
  have hn : n ≤ 0x7f → (UInt8.ofNat n).toNat = n := fun h => Nat.mod_eq_of_lt (by omega)
  dsimp only
  -- The cases are the pairs of lengths; in each the first bytes that differ decide.
  repeat' split
  all_goals
    simp +decide only [List.cons_append, List.nil_append, List.cons_lt_cons_iff,
      UInt8.lt_iff_toNat_lt, ← UInt8.toNat_inj, toNat_ofNat_mod_add]
  all_goals omega

/-! ## Texts -/

theorem flatMap_encodeChar_lt {left right : List Char} (h : left < right) :
    left.flatMap String.utf8EncodeChar < right.flatMap String.utf8EncodeChar := by
  induction h with
  | nil =>
      rw [List.flatMap_nil, List.flatMap_cons]
      cases hc : String.utf8EncodeChar _ with
      | nil => exact absurd hc String.utf8EncodeChar_ne_nil
      | cons byte rest => exact .nil
  | rel h =>
      rw [List.flatMap_cons, List.flatMap_cons]
      exact encodeChar_append_lt h _ _
  | cons _ ih =>
      rw [List.flatMap_cons, List.flatMap_cons]
      exact List.append_left_lt ih

theorem encode_lt_encode_iff (left right : String) :
    encode left < encode right ↔ left < right := by
  have hlt {a b : String} (h : a < b) : encode a < encode b := by
    rw [encode_eq_flatMap, encode_eq_flatMap]
    exact flatMap_encodeChar_lt h
  refine ⟨fun h => Decidable.byContradiction fun hn => ?_, hlt⟩
  by_cases hr : right < left
  · exact List.lt_asymm h (hlt hr)
  · have he : left = right := String.le_antisymm hr hn
    exact List.lt_irrefl _ (he ▸ h)

theorem compare_eq_lt_iff {left right : String} :
    compare left right = .lt ↔ encode left < encode right := by
  rw [encode_lt_encode_iff]
  exact compareOfLessAndEq_eq_lt

end CodeAtlas.Text.Utf8
