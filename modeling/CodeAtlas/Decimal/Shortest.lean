import CodeAtlas.Decimal.Rounded

/-!
# Shortest decimals

The shortest decimal that reads back as a given binary fraction, and of those of that length the
nearest. A decimal reads back if it lies in the interval of numbers that round to the fraction; the
ends belong to the interval when the significand is even.
-/

namespace CodeAtlas.Decimal

/-- The number `digits * 10 ^ exponent`. -/
structure Short where
  digits : Nat
  exponent : Int
deriving DecidableEq, Repr

namespace Binary

/-- Four times the significand, with the lower and upper end of its interval on the same scale. The
neighbour below a power of two is half as far. -/
def interval (number : Binary) : Nat × Nat × Nat :=
  let middle := 4 * number.significand
  let below := if number.significand = Nat.pow 2 52 && number.exponent ≠ -1074 then 1 else 2
  (middle, middle - below, middle + 2)

end Binary

namespace Shortest

/-- A fraction lies in the interval around a number. -/
def reads (number : Binary) (candidate : Nat × Nat) : Bool :=
  let (_, low, high) := number.interval
  let unit := { number with significand := 1, exponent := number.exponent - 2 : Binary }.fraction
  let left := candidate.1 * unit.2
  let right := unit.1 * candidate.2
  if number.significand % 2 = 0 then low * right ≤ left && left ≤ high * right
  else low * right < left && left < high * right

/-- The best decimal with a given last place, where one reads back. -/
def atPlace (number : Binary) (exponent : Int) : Option Short :=
  let scaled := scale number.fraction (-exponent)
  let floor := scaled.1 / scaled.2
  let good (digits : Nat) : Bool := reads number (scale (digits, 1) exponent)
  let nearest := roundDiv scaled.1 scaled.2
  let other := if nearest = floor then floor + 1 else floor
  if good nearest then some ⟨nearest, exponent⟩
  else if good other then some ⟨other, exponent⟩
  else none

/-- Moves zeros at the end of the digits into the exponent. -/
def trimZeros : (rounds : Nat) → Short → Short
  | 0, short => short
  | rounds + 1, short =>
      if short.digits % 10 = 0 then trimZeros rounds ⟨short.digits / 10, short.exponent + 1⟩
      else short

/-- Tries lengths one after the other; seventeen digits always read back. -/
def fromLength (number : Binary) (leading : Int) : (rounds : Nat) → Nat → Short
  | 0, _ => ⟨number.significand, 0⟩
  | rounds + 1, length =>
      match atPlace number (leading - length + 1) with
      | some short => short
      | none => fromLength number leading rounds (length + 1)

end Shortest

def shortest (number : Binary) : Short :=
  Shortest.trimZeros 18 (Shortest.fromLength number (leadingExponent number.fraction) 18 1)

end CodeAtlas.Decimal
