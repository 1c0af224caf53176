import CodeAtlas.Proofs.Binary64.Rounding
import CodeAtlas.Proofs.Decimal.Shortest

/-!
# Floating-point numbers as bits

A number that fits the bits is what is found in them again. What is found in the bits of a number
is what its decimal texts are made of.
-/

namespace CodeAtlas.Binary64

open Float.Model (Format UnpackedFloat)
open Float.Model.UnpackedFloat

def isNegative : Sign → Bool
  | .negative => true
  | .positive => false

/-- A number as its decimal texts see it. -/
def toValue : UnpackedFloat → Decimal.Value
  | .notANumber => .undefined
  | .infinity sign => .infinite (isNegative sign)
  | .zero sign => .finite ⟨isNegative sign, 0, -1074⟩
  | .finite sign significand exponent _ => .finite ⟨isNegative sign, significand, exponent⟩

/-! ## Packing -/

theorem unpackSign_packComponents (sign : Sign) (exponent : BitVec 11) (fraction : BitVec 52) :
    Sign.ofBitVec (unpackSign (packComponents Format.binary64 sign exponent fraction)) = sign := by
  simp only [unpackSign, packComponents, BitVec.extractLsb]
  rw [BitVec.extractLsb'_append_eq_of_le (by decide), BitVec.extractLsb'_append_eq_of_le (by decide)]
  cases sign <;> rfl

variable {significand : ℕ} {exponent : ℤ}

theorem unpack_pack_zero (sign : Sign) :
    unpack Format.binary64 (pack Format.binary64 (.zero sign)) = .zero sign := by
  cases sign <;> rfl

theorem append_fraction (fraction : BitVec 52) :
    (1#1 ++ fraction).toNat = 2 ^ 52 + fraction.toNat := by
  rw [BitVec.toNat_append, ← Nat.shiftLeft_add_eq_or_of_lt fraction.isLt]
  rfl

theorem unpack_normal (sign : Sign) {biased : BitVec 11} (fraction : BitVec 52)
    (hleast : biased ≠ 0#11) (hgreatest : biased ≠ -1#11) :
    unpack Format.binary64 (packComponents Format.binary64 sign biased fraction) =
      .finite sign (1#1 ++ fraction).toNat (biased.toNat - 1075)
        (by rw [append_fraction]; exact Nat.add_pos_left (Nat.two_pow_pos 52) _) := by
  simp only [unpack, unpackMantissa_packComponents, unpackExponent_packComponents,
    unpackSign_packComponents]
  rw [if_neg hgreatest, if_neg hleast]
  rfl

theorem unpack_subnormal (sign : Sign) {fraction : BitVec 52} (h : fraction ≠ 0#52) :
    unpack Format.binary64 (packComponents Format.binary64 sign 0#11 fraction) =
      .finite sign fraction.toNat (-1074)
        (by simpa [BitVec.toNat_pos, BitVec.pos_iff_ne_zero] using h) := by
  simp only [unpack, unpackMantissa_packComponents, unpackExponent_packComponents,
    unpackSign_packComponents]
  rw [if_neg (by decide), if_pos trivial, dif_neg h]
  rfl

theorem biased_eq (exponent : ℤ) : exponent + (Format.binary64.exponentBias : ℤ) +
    (Format.binary64.mantissaBitsWithoutImplicit : ℤ) = exponent + 1075 := by
  rw [add_assoc]
  rfl

theorem unpack_pack_infinite (sign : Sign) (hpos : 0 < significand) (h : 972 ≤ exponent) :
    unpack Format.binary64 (pack Format.binary64 (.finite sign significand exponent hpos)) =
      .infinity sign := by
  have hbound : 2 ^ 11 ≤ (exponent + 1075).toNat + 1 := by
    omega
  rw [pack]
  dsimp only
  rw [biased_eq, if_pos hbound]
  cases sign <;> rfl

theorem pack_normal (sign : Sign) (hpos : 0 < significand) (hnormal : 2 ^ 52 ≤ significand)
    (hlt : significand < 2 ^ 53) (hgreatest : exponent ≤ 971) :
    pack Format.binary64 (.finite sign significand exponent hpos) =
      packComponents Format.binary64 sign (BitVec.ofNat 11 (exponent + 1075).toNat)
        (BitVec.ofNat 52 significand) := by
  have hbound : ¬2 ^ 11 ≤ (exponent + 1075).toNat + 1 := by
    omega
  have hlog : significand.log2 + 1 = Format.binary64.mantissaBits := by
    have hlower := (Nat.le_log2 hpos.ne').2 hnormal
    have hupper := (Nat.log2_lt hpos.ne').2 hlt
    change significand.log2 + 1 = 53
    omega
  rw [pack]
  dsimp only
  rw [biased_eq, if_neg hbound, if_pos hlog]

theorem pack_subnormal (sign : Sign) (hpos : 0 < significand) (hsmall : significand < 2 ^ 52)
    (hgreatest : exponent ≤ 971) :
    pack Format.binary64 (.finite sign significand exponent hpos) =
      packComponents Format.binary64 sign 0#11 (BitVec.ofNat 52 significand) := by
  have hbound : ¬2 ^ 11 ≤ (exponent + 1075).toNat + 1 := by
    omega
  have hlog : significand.log2 + 1 ≠ Format.binary64.mantissaBits := by
    have hupper := (Nat.log2_lt hpos.ne').2 hsmall
    change significand.log2 + 1 ≠ 53
    omega
  rw [pack]
  dsimp only
  rw [biased_eq, if_neg hbound, if_neg hlog]

theorem unpack_pack_finite {sign : Sign}
    (h : (Decimal.Binary.mk (isNegative sign) significand exponent).IsDouble) :
    unpack Format.binary64 (pack Format.binary64 (.finite sign significand exponent h.pos)) =
      .finite sign significand exponent h.pos := by
  have hpos : 0 < significand := h.pos
  have hlt : significand < 2 ^ 53 := h.lt
  have hleast : -1074 ≤ exponent := h.le_exponent
  have hgreatest : exponent ≤ 971 := h.exponent_le
  by_cases hnormal : 2 ^ 52 ≤ significand
  · have hbiased : (BitVec.ofNat 11 (exponent + 1075).toNat).toNat = (exponent + 1075).toNat := by
      rw [BitVec.toNat_ofNat, Nat.mod_eq_of_lt (by omega)]
    have hsmall : BitVec.ofNat 11 (exponent + 1075).toNat ≠ 0#11 := by
      intro heq
      have := congrArg BitVec.toNat heq
      rw [hbiased, BitVec.toNat_zero] at this
      omega
    have hlarge : BitVec.ofNat 11 (exponent + 1075).toNat ≠ -1#11 := by
      intro heq
      have := congrArg BitVec.toNat heq
      rw [hbiased] at this
      change (exponent + 1075).toNat = 2047 at this
      omega
    have hfraction : (1#1 ++ BitVec.ofNat 52 significand).toNat = significand := by
      rw [append_fraction, BitVec.toNat_ofNat]
      omega
    rw [pack_normal sign hpos hnormal hlt hgreatest, unpack_normal sign _ hsmall hlarge]
    congr 1
    omega
  · have hfraction : (BitVec.ofNat 52 significand).toNat = significand := by
      rw [BitVec.toNat_ofNat, Nat.mod_eq_of_lt (Nat.not_le.1 hnormal)]
    have hne : BitVec.ofNat 52 significand ≠ 0#52 := by
      intro heq
      have := congrArg BitVec.toNat heq
      rw [hfraction, BitVec.toNat_zero] at this
      omega
    rw [pack_subnormal sign hpos (Nat.not_le.1 hnormal) hgreatest, unpack_subnormal sign hne]
    congr 1
    exact (h.normal.resolve_right hnormal).symm

/-! ## Bits -/

theorem toNat_unpackMantissa (bits : BitVec 64) :
    (@unpackMantissa Format.binary64 bits).toNat = bits.toNat % 2 ^ 52 := by
  simp [unpackMantissa, BitVec.extractLsb_toNat]

theorem toNat_unpackExponent (bits : BitVec 64) :
    (@unpackExponent Format.binary64 bits).toNat = bits.toNat / 2 ^ 52 % 2 ^ 11 := by
  simp [unpackExponent, BitVec.extractLsb_toNat, Nat.shiftRight_eq_div_pow]

theorem toNat_unpackSign (bits : BitVec 64) :
    (@unpackSign Format.binary64 bits).toNat = bits.toNat / 2 ^ 63 := by
  have hlt : bits.toNat / 2 ^ 63 < 2 := Nat.div_lt_of_lt_mul bits.isLt
  simpa [unpackSign, BitVec.extractLsb_toNat, Nat.shiftRight_eq_div_pow] using hlt

theorem isNegative_unpackSign (bits : BitVec 64) :
    isNegative (Sign.ofBitVec (@unpackSign Format.binary64 bits)) =
      decide (2 ^ 63 ≤ bits.toNat) := by
  have hlt := bits.isLt
  have hbit := toNat_unpackSign bits
  rw [Sign.ofBitVec]
  split
  · next hzero =>
      rw [hzero, BitVec.toNat_zero] at hbit
      exact (decide_eq_false (by omega)).symm
  · next hone =>
      have hne : (@unpackSign Format.binary64 bits).toNat ≠ 0 := fun heq =>
        hone (BitVec.eq_of_toNat_eq heq)
      exact (decide_eq_true (by omega)).symm

theorem ofBits_eq_toValue (bits : UInt64) :
    Decimal.Value.ofBits bits = toValue (unpack Format.binary64 bits.toBitVec) := by
  obtain ⟨bits⟩ := bits
  have hfraction : ∀ value : BitVec 52,
      @unpackMantissa Format.binary64 bits = value ↔ bits.toNat % 2 ^ 52 = value.toNat := by
    intro value
    rw [← toNat_unpackMantissa, BitVec.toNat_inj]
  have hexponent : ∀ value : BitVec 11,
      @unpackExponent Format.binary64 bits = value ↔
        bits.toNat / 2 ^ 52 % 2 ^ 11 = value.toNat := by
    intro value
    rw [← toNat_unpackExponent, BitVec.toNat_inj]
  have htop : @unpackExponent Format.binary64 bits = -1#11 ↔
      bits.toNat / 2 ^ 52 % 2 ^ 11 = 2047 := hexponent (-1#11)
  have hbottom : @unpackExponent Format.binary64 bits = 0#11 ↔
      bits.toNat / 2 ^ 52 % 2 ^ 11 = 0 := hexponent 0#11
  have hzero : @unpackMantissa Format.binary64 bits = 0#52 ↔ bits.toNat % 2 ^ 52 = 0 :=
    hfraction 0#52
  simp only [Decimal.Value.ofBits, UInt64.toNat_ofBitVec, Nat.pow_eq, unpack, ← htop, ← hbottom,
    ← hzero, ← isNegative_unpackSign]
  split
  · split <;> rfl
  split
  · next hsubnormal =>
      split
      · next hfraction => rw [hzero.1 hfraction]; rfl
      · rw [toValue, toNat_unpackMantissa, toNat_unpackExponent, hbottom.1 hsubnormal]
        rfl
  · rw [toValue, append_fraction, toNat_unpackMantissa, toNat_unpackExponent]
    rfl

theorem ofFloat_eq_toValue (number : Float) :
    Decimal.Value.ofFloat number = toValue number.toModel.unpack :=
  ofBits_eq_toValue number.toBits

theorem eq_of_ofBits {first second : UInt64} {number : Decimal.Binary}
    (h : Decimal.Value.ofBits first = .finite number)
    (h' : Decimal.Value.ofBits second = .finite number) : first = second := by
  have hbits : ∀ {bits : UInt64}, Decimal.Value.ofBits bits = .finite number →
      bits.toNat = (if number.negative then 2 ^ 63 else 0) + number.significand +
        (number.exponent + 1074).toNat * 2 ^ 52 := by
    intro bits h
    have hlt := bits.toNat_lt
    simp only [Decimal.Value.ofBits, Nat.pow_eq] at h
    split at h
    · split at h <;> cases h
    split at h
    · cases h
      simp only [decide_eq_true_eq]
      split <;> omega
    · cases h
      simp only [decide_eq_true_eq]
      split <;> omega
  exact UInt64.toNat_inj.1 ((hbits h).trans (hbits h').symm)

theorem eq_of_ofFloat {first second : Float} {number : Decimal.Binary}
    (h : Decimal.Value.ofFloat first = .finite number)
    (h' : Decimal.Value.ofFloat second = .finite number) : first = second := by
  have hbits : first.toModel.toBits = second.toModel.toBits := eq_of_ofBits h h'
  have hmodel : first.toModel = second.toModel := by
    cases hf : first.toModel
    cases hs : second.toModel
    rw [hf, hs] at hbits
    congr
  cases first
  cases second
  exact congrArg Float.ofModel hmodel

theorem isDouble_of_unpack {number : Float} {sign : Sign} {hpos : 0 < significand}
    (h : number.toModel.unpack = .finite sign significand exponent hpos) :
    (Decimal.Binary.mk (isNegative sign) significand exponent).IsDouble :=
  Decimal.Binary.isDouble_of_ofBits
    ((ofFloat_eq_toValue number).trans (congrArg toValue h)) hpos

end CodeAtlas.Binary64
