import CodeAtlas.Json.Print
import CodeAtlas.Json.Reader

/-!
# Strings that are written and read back

Every character of a string is written in a form that is read as this one character, so that a
string comes back whole, and the reader stops behind its closing quote.
-/

namespace CodeAtlas.Json.Reader

/-! ## Hexadecimal digits -/

theorem hexValue_hexDigit {value : Nat} (h : value < 16) :
    hexValue (some (Print.hexDigit value)) = some value := by
  revert h
  revert value
  decide

theorem hexEscape_of_lt {value : Nat} (h : value < 0x20) (rest : Input) :
    hexEscape (some '0' :: some '0' :: some (Print.hexDigit (value / 16)) ::
      some (Print.hexDigit (value % 16)) :: rest) = .ok (value, rest) := by
  have hzero : hexValue (some '0') = some 0 := by decide
  have hhigh := hexValue_hexDigit (show value / 16 < 16 by omega)
  have hlow := hexValue_hexDigit (show value % 16 < 16 by omega)
  simp only [hexEscape, List.take_succ_cons, List.take_zero, List.drop_succ_cons, List.drop_zero,
    hzero, hhigh, hlow]
  congr 2
  omega

/-! ## Characters -/

/-- A string so far in which nothing is wrong. -/
structure StringState.IsClean (state : StringState) : Prop where
  badEscape : state.badEscape = none
  badByte : state.badByte = false

theorem StringState.IsClean.push {state : StringState} (h : state.IsClean) (char : Char) :
    (state.push char).IsClean := ⟨h.badEscape, h.badByte⟩

theorem stringFuel_simpleEscape {mark char : Char} (h : simpleEscape mark = some char)
    (fuel : Nat) (state : StringState) (rest : Input) :
    stringFuel (fuel + 1) state (some '\\' :: some mark :: rest) =
      stringFuel fuel (state.push char) rest := by
  have hmark : mark ≠ 'u' := by
    rintro rfl
    cases h
  have he : escape state (some mark :: rest) = .ok (state.push char, rest) := by
    rw [escape]
    · rw [h]
    · simpa using hmark
  simp only [stringFuel, he]

theorem stringFuel_plain {char : Char} (hq : char ≠ '"') (hb : char ≠ '\\')
    (hc : ¬ char.toNat < 0x20) (fuel : Nat) (state : StringState) (rest : Input) :
    stringFuel (fuel + 1) state (some char :: rest) = stringFuel fuel (state.push char) rest := by
  rw [stringFuel]
  · exact if_neg hc
  · simpa using hq
  · simpa using hb

theorem stringFuel_control {char : Char} (hc : char.toNat < 0x20) (fuel : Nat)
    (state : StringState) (rest : Input) :
    stringFuel (fuel + 1) state (some '\\' :: some 'u' :: some '0' :: some '0' ::
      some (Print.hexDigit (char.toNat / 16)) :: some (Print.hexDigit (char.toNat % 16)) :: rest) =
        stringFuel fuel (state.push char) rest := by
  have ht : isTrailing char.toNat = false := by
    simp only [isTrailing, Bool.and_eq_false_iff, decide_eq_false_iff_not]
    omega
  have hl : isLeading char.toNat = false := by
    simp only [isLeading, Bool.and_eq_false_iff, decide_eq_false_iff_not]
    omega
  simp [stringFuel, escape, unitEscape, hexEscape_of_lt hc, ht, hl, Char.ofNat_toNat]

theorem stringFuel_escape (fuel : Nat) (state : StringState) (char : Char) (rest : Input) :
    stringFuel (fuel + 1) state ((Print.escape char).map some ++ rest) =
      stringFuel fuel (state.push char) rest := by
  unfold Print.escape
  split
  · rename_i hmark
    have hs : simpleEscape char = some char := by
      rcases (by simpa using hmark : char = '"' ∨ char = '\\') with rfl | rfl <;> rfl
    exact stringFuel_simpleEscape hs fuel state rest
  · rename_i hmark
    obtain ⟨hq, hb⟩ : char ≠ '"' ∧ char ≠ '\\' := by simpa using hmark
    split
    · subst_vars
      exact stringFuel_simpleEscape rfl fuel state rest
    split
    · subst_vars
      exact stringFuel_simpleEscape rfl fuel state rest
    split
    · subst_vars
      exact stringFuel_simpleEscape rfl fuel state rest
    split
    · subst_vars
      exact stringFuel_simpleEscape rfl fuel state rest
    split
    · subst_vars
      exact stringFuel_simpleEscape rfl fuel state rest
    split
    · rename_i hc
      exact stringFuel_control hc fuel state rest
    · rename_i hc
      exact stringFuel_plain hq hb hc fuel state rest

/-! ## Strings -/

theorem stringFuel_flatMap_escape {fuel : Nat} {state : StringState} (h : state.IsClean)
    (chars : List Char) (hf : chars.length < fuel) (rest : Input) :
    stringFuel fuel state ((chars.flatMap Print.escape).map some ++ some '"' :: rest) =
      .ok (.ok (String.ofList (state.read.reverse ++ chars)), rest) := by
  induction chars generalizing fuel state with
  | nil =>
      obtain ⟨fuel, rfl⟩ := Nat.exists_eq_add_one_of_ne_zero (Nat.ne_of_gt hf)
      simp [stringFuel, StringState.finish, h.badEscape, h.badByte]
  | cons char rest' ih =>
      obtain ⟨fuel, rfl⟩ := Nat.exists_eq_add_one_of_ne_zero (Nat.ne_of_gt (Nat.zero_lt_of_lt hf))
      rw [List.flatMap_cons, List.map_append, List.append_assoc, stringFuel_escape,
        ih (h.push char) (Nat.lt_of_succ_lt_succ hf)]
      simp [StringState.push]

theorem length_le_length_flatMap_escape (chars : List Char) :
    chars.length ≤ (chars.flatMap Print.escape).length := by
  induction chars with
  | nil => exact Nat.le_refl _
  | cons char rest ih =>
      have hc : 0 < (Print.escape char).length := by
        unfold Print.escape
        repeat' split
        all_goals exact Nat.zero_lt_succ _
      rw [List.flatMap_cons, List.length_append, List.length_cons]
      omega

theorem string_of_print {fuel : Nat} (text : String) (hf : (Print.string text).length ≤ fuel + 1)
    (rest : Input) :
    string fuel ((text.toList.flatMap Print.escape).map some ++ some '"' :: rest) =
      .ok (.ok text, rest) := by
  have hl := length_le_length_flatMap_escape text.toList
  have hp : (Print.string text).length = (text.toList.flatMap Print.escape).length + 2 := by
    simp [Print.string]
  rw [string, stringFuel_flatMap_escape ⟨rfl, rfl⟩ _ (by omega)]
  simp

end CodeAtlas.Json.Reader
