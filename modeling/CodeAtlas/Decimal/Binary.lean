/-!
# Binary fractions

A finite floating-point number is a whole number times a power of two. Its decimal texts are
computed from these two numbers with whole-number arithmetic.
-/

namespace CodeAtlas.Decimal

/-- The number `significand * 2 ^ exponent` with a sign. -/
structure Binary where
  negative : Bool
  significand : Nat
  exponent : Int
deriving DecidableEq, Repr

inductive Value where
  | undefined
  | infinite (negative : Bool)
  | finite (number : Binary)
deriving DecidableEq, Repr

namespace Value

/-- Decodes the bits of a double-precision number. -/
def ofBits (bits : UInt64) : Value :=
  let negative := Nat.pow 2 63 ≤ bits.toNat
  let fraction := bits.toNat % Nat.pow 2 52
  let biased : Nat := bits.toNat / Nat.pow 2 52 % Nat.pow 2 11
  if biased = 0x7FF then if fraction = 0 then .infinite negative else .undefined
  else if biased = 0 then .finite ⟨negative, fraction, -1074⟩
  else .finite ⟨negative, Nat.pow 2 52 + fraction, (biased : Int) - 1075⟩

def ofFloat (number : Float) : Value := ofBits number.toBits

end Value

namespace Binary

/-- Numerator and denominator of the absolute value. -/
def fraction (number : Binary) : Nat × Nat :=
  (number.significand * Nat.pow 2 number.exponent.toNat, Nat.pow 2 (-number.exponent).toNat)

end Binary

def digits (number : Nat) : List Char := (toString number).toList

end CodeAtlas.Decimal
