import CodeAtlas.Proofs.Text.ByteOrder

/-!
# Encodings that are decoded

Bytes that encode a text are decoded to this text. The bytes below 0x80 stand for themselves alone,
so a line feed among them is a line feed of the text.
-/

namespace CodeAtlas.Text.Utf8

/-! ## Sequences -/

section

variable {first second third fourth : UInt8} (rest : Bytes)

theorem isTail_iff {byte : UInt8} :
    isTail byte = true ↔ 0x80 ≤ byte.toNat ∧ byte.toNat ≤ 0xBF := by
  simp [isTail, UInt8.le_iff_toNat_le]

theorem isSecondOfThree_iff :
    isSecondOfThree first second = true ↔
      isTail second = true ∧ (first.toNat = 0xE0 → 0xA0 ≤ second.toNat) ∧
        (first.toNat = 0xED → second.toNat ≤ 0x9F) := by
  simp [isSecondOfThree, UInt8.le_iff_toNat_le, ← UInt8.toNat_inj, Decidable.imp_iff_not_or,
    and_assoc]

theorem isSecondOfFour_iff :
    isSecondOfFour first second = true ↔
      isTail second = true ∧ (first.toNat = 0xF0 → 0x90 ≤ second.toNat) ∧
        (first.toNat = 0xF4 → second.toNat ≤ 0x8F) := by
  simp [isSecondOfFour, UInt8.le_iff_toNat_le, ← UInt8.toNat_inj, Decidable.imp_iff_not_or,
    and_assoc]

theorem step_one (hf : first.toNat < 0x80) :
    step (first :: rest) = .ok (Char.ofNat first.toNat, 1) :=
  if_pos (UInt8.lt_iff_toNat_lt.2 hf)

theorem step_two (hl : 0xC2 ≤ first.toNat) (hu : first.toNat ≤ 0xDF)
    (hs : isTail second = true) :
    step (first :: second :: rest) =
      .ok (Char.ofNat ((first.toNat - 0xC0) * 64 + tailBits second), 2) := by
  simp [step, UInt8.lt_iff_toNat_lt, UInt8.le_iff_toNat_le, hl, hu, hs,
    show ¬first.toNat < 0x80 by omega]

theorem step_three (hl : 0xE0 ≤ first.toNat) (hu : first.toNat ≤ 0xEF)
    (hs : isSecondOfThree first second = true) (ht : isTail third = true) :
    step (first :: second :: third :: rest) =
      .ok (Char.ofNat (((first.toNat - 0xE0) * 64 + tailBits second) * 64 + tailBits third),
        3) := by
  simp [step, UInt8.lt_iff_toNat_lt, UInt8.le_iff_toNat_le, hl, hu, hs, ht,
    show ¬first.toNat < 0x80 by omega, show ¬first.toNat ≤ 0xDF by omega]

theorem step_four (hl : 0xF0 ≤ first.toNat) (hu : first.toNat ≤ 0xF4)
    (hs : isSecondOfFour first second = true) (ht : isTail third = true)
    (hf : isTail fourth = true) :
    step (first :: second :: third :: fourth :: rest) =
      .ok (Char.ofNat ((((first.toNat - 0xF0) * 64 + tailBits second) * 64 + tailBits third) * 64
        + tailBits fourth), 4) := by
  simp [step, UInt8.lt_iff_toNat_lt, UInt8.le_iff_toNat_le, hl, hu, hs, ht, hf,
    show ¬first.toNat < 0x80 by omega, show ¬first.toNat ≤ 0xDF by omega,
    show ¬first.toNat ≤ 0xEF by omega]

end

/-! ## Characters -/

theorem step_encodeChar (char : Char) (rest : Bytes) :
    step (String.utf8EncodeChar char ++ rest) =
      .ok (char, (String.utf8EncodeChar char).length) := by
  have hv := char.valid
  have hc : Char.ofNat char.val.toNat = char := Char.ofNat_toNat char
  simp only [UInt32.isValidChar, Nat.isValidChar] at hv
  unfold String.utf8EncodeChar
  generalize char.val.toNat = n at *
  dsimp only
  -- A tail holds the six bits of a digit, in the upper half of which the mark is the greatest.
  have htail (number : Nat) : (UInt8.ofNat (number % 0x40 + 0x80)).toNat = number % 0x40 + 0x80 :=
    toNat_ofNat_mod_add number 0x40 0x80 (by decide) (by decide)
  have hmark (number : Nat) : isTail (UInt8.ofNat (number % 0x40 + 0x80)) = true := by
    rw [isTail_iff, htail]
    omega
  have hbits (number : Nat) : tailBits (UInt8.ofNat (number % 0x40 + 0x80)) = number % 0x40 := by
    rw [tailBits, htail]
    omega
  -- The cases are the lengths; in each the digits make up the code point again.
  split
  · have hone : (UInt8.ofNat n).toNat = n := Nat.mod_eq_of_lt (by omega)
    rw [List.singleton_append, step_one rest (by omega), hone, hc]
    rfl
  split
  · have hfirst := toNat_ofNat_mod_add (n / 64) 0x20 0xC0 (by decide) (by decide)
    have hsum : (n / 64 % 0x20 + 0xC0 - 0xC0) * 64 + n % 0x40 = n := by omega
    rw [List.cons_append, List.singleton_append,
      step_two rest (by omega) (by omega) (hmark n), hfirst, hbits, hsum, hc]
    rfl
  split
  · have hfirst := toNat_ofNat_mod_add (n / 4096) 0x10 0xE0 (by decide) (by decide)
    have hsecond := htail (n / 64)
    have hpair : isSecondOfThree (UInt8.ofNat (n / 4096 % 0x10 + 0xE0))
        (UInt8.ofNat (n / 64 % 0x40 + 0x80)) = true :=
      isSecondOfThree_iff.2 ⟨hmark (n / 64), fun h => by omega, fun h => by omega⟩
    have hsum : ((n / 4096 % 0x10 + 0xE0 - 0xE0) * 64 + n / 64 % 0x40) * 64 + n % 0x40 = n := by
      omega
    rw [List.cons_append, List.cons_append, List.singleton_append,
      step_three rest (by omega) (by omega) hpair (hmark n), hfirst, hbits, hbits, hsum, hc]
    rfl
  · have hfirst := toNat_ofNat_mod_add (n / 262144) 0x08 0xF0 (by decide) (by decide)
    have hsecond := htail (n / 4096)
    have hpair : isSecondOfFour (UInt8.ofNat (n / 262144 % 0x08 + 0xF0))
        (UInt8.ofNat (n / 4096 % 0x40 + 0x80)) = true :=
      isSecondOfFour_iff.2 ⟨hmark (n / 4096), fun h => by omega, fun h => by omega⟩
    have hsum : (((n / 262144 % 0x08 + 0xF0 - 0xF0) * 64 + n / 4096 % 0x40) * 64
        + n / 64 % 0x40) * 64 + n % 0x40 = n := by
      omega
    rw [List.cons_append, List.cons_append, List.cons_append, List.singleton_append,
      step_four rest (by omega) (by omega) hpair (hmark _) (hmark n), hfirst, hbits, hbits, hbits,
      hsum, hc]
    rfl

theorem eq_of_mem_encodeChar {char : Char} {byte : UInt8}
    (hb : byte ∈ String.utf8EncodeChar char) (hl : byte.toNat < 0x80) :
    char.toNat = byte.toNat := by
  show char.val.toNat = byte.toNat
  unfold String.utf8EncodeChar at hb
  generalize char.val.toNat = n at *
  -- Every byte of a longer encoding has its first bit set.
  have hmark (number : Nat) {modulus mark : Nat} (hm : 0 < modulus) (hs : modulus + mark ≤ 256)
      (hh : 0x80 ≤ mark) : byte ≠ UInt8.ofNat (number % modulus + mark) := by
    rintro rfl
    rw [toNat_ofNat_mod_add number modulus mark hm hs] at hl
    omega
  dsimp only at hb
  split at hb
  · obtain rfl := List.mem_singleton.1 hb
    exact (Nat.mod_eq_of_lt (by omega)).symm
  simp only [apply_ite (byte ∈ ·), List.mem_cons, List.not_mem_nil, or_false] at hb
  split at hb
  · rcases hb with hb | hb <;> exact absurd hb (hmark _ (by decide) (by decide) (by decide))
  split at hb
  · rcases hb with hb | hb | hb <;> exact absurd hb (hmark _ (by decide) (by decide) (by decide))
  · rcases hb with hb | hb | hb | hb <;>
      exact absurd hb (hmark _ (by decide) (by decide) (by decide))

/-! ## Texts -/

theorem decodeFrom_append_of_pending (offset : Nat) (read : List Char) (bytes rest : Bytes) :
    decodeFrom offset bytes.length read (bytes ++ rest) =
      decodeFrom (offset + bytes.length) 0 read rest := by
  induction bytes generalizing offset with
  | nil => rfl
  | cons byte bytes ih =>
      show decodeFrom (offset + 1) bytes.length read (bytes ++ rest) = _
      rw [ih, List.length_cons, Nat.add_assoc, Nat.add_comm 1]

theorem decodeFrom_encodeChar_append (offset : Nat) (read : List Char) (char : Char)
    (rest : Bytes) :
    decodeFrom offset 0 read (String.utf8EncodeChar char ++ rest) =
      decodeFrom (offset + (String.utf8EncodeChar char).length) 0 (char :: read) rest := by
  have hstep := step_encodeChar char rest
  cases hbytes : String.utf8EncodeChar char with
  | nil => exact absurd hbytes String.utf8EncodeChar_ne_nil
  | cons byte bytes =>
      rw [hbytes] at hstep
      rw [List.cons_append] at hstep ⊢
      rw [decodeFrom, hstep]
      show decodeFrom (offset + 1) bytes.length (char :: read) (bytes ++ rest) = _
      rw [decodeFrom_append_of_pending, List.length_cons, Nat.add_assoc, Nat.add_comm 1]

theorem decodeFrom_flatMap_encodeChar (offset : Nat) (read chars : List Char) :
    decodeFrom offset 0 read (chars.flatMap String.utf8EncodeChar) =
      .ok (read.reverse ++ chars) := by
  induction chars generalizing offset read with
  | nil => rw [List.flatMap_nil, decodeFrom, List.append_nil]
  | cons char chars ih =>
      rw [List.flatMap_cons, decodeFrom_encodeChar_append, ih, List.reverse_cons,
        List.append_assoc, List.singleton_append]

theorem decode_encode (text : String) : decode (encode text) = .ok text := by
  rw [decode, encode_eq_flatMap, decodeFrom_flatMap_encodeChar]
  show Except.ok (String.ofList text.toList) = _
  rw [String.ofList_toList]

theorem encode_ofList_append (left right : List Char) :
    encode (String.ofList (left ++ right)) =
      encode (String.ofList left) ++ encode (String.ofList right) := by
  simp only [encode_eq_flatMap, String.toList_ofList, List.flatMap_append]

theorem exists_mem_of_mem_encode {text : String} {byte : UInt8} (hb : byte ∈ encode text)
    (hl : byte.toNat < 0x80) : ∃ char ∈ text.toList, char.toNat = byte.toNat := by
  rw [encode_eq_flatMap, List.mem_flatMap] at hb
  obtain ⟨char, hc, hb⟩ := hb
  exact ⟨char, hc, eq_of_mem_encodeChar hb hl⟩

end CodeAtlas.Text.Utf8
