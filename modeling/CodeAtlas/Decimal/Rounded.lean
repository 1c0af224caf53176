import CodeAtlas.Decimal.Binary

/-!
# Rounded decimals

A fraction to the nearest whole number, and a number with a fixed number of places behind the point.
A half goes to the even neighbour.
-/

namespace CodeAtlas.Decimal

/-- The quotient to the nearest whole number, a half to the even one. -/
def roundDiv (numerator denominator : Nat) : Nat :=
  let quotient := numerator / denominator
  let twice := 2 * (numerator % denominator)
  if twice < denominator then quotient
  else if twice = denominator then quotient + quotient % 2
  else quotient + 1

def scale (fraction : Nat × Nat) (power : Int) : Nat × Nat :=
  (fraction.1 * Nat.pow 10 power.toNat, fraction.2 * Nat.pow 10 (-power).toNat)

/-- The greatest power of ten that is at most a fraction below one, searched downwards. -/
def powerBelowOne (fraction : Nat × Nat) : (rounds : Nat) → Nat → Int
  | 0, power => -power
  | rounds + 1, power =>
      if fraction.2 ≤ fraction.1 * Nat.pow 10 power then -power
      else powerBelowOne fraction rounds (power + 1)

/-- Exponent of the leading decimal digit of a positive fraction. -/
def leadingExponent (fraction : Nat × Nat) : Int :=
  if fraction.2 ≤ fraction.1 then ((digits (fraction.1 / fraction.2)).length : Int) - 1
  else powerBelowOne fraction 400 1

def padLeft (width : Nat) (text : List Char) : List Char :=
  List.replicate (width - text.length) '0' ++ text

def signText (negative : Bool) : String := if negative then "-" else ""

/-- A number with a fixed number of places behind the point. -/
def fixedText (places : Nat) (number : Binary) : String :=
  let scaled := scale number.fraction places
  let text := padLeft (places + 1) (digits (roundDiv scaled.1 scaled.2))
  let whole := text.length - places
  signText number.negative ++ String.ofList (text.take whole) ++
    (if places = 0 then "" else "." ++ String.ofList (text.drop whole))

def fixed (places : Nat) (number : Float) : String :=
  match Value.ofFloat number with
  | .undefined => "NaN"
  | .infinite negative => signText negative ++ "inf"
  | .finite number => fixedText places number

end CodeAtlas.Decimal
