/-!
# Numerals

Whole numbers written with decimal digits and an optional sign, within given limits. A plus sign may
always stand in front; a minus sign only where negative numbers are allowed. The first character
that is no digit, or that takes the number past a limit, decides the error.
-/

namespace CodeAtlas.Text

/-- What is wrong with a numeral. -/
inductive NumeralError where
  | empty
  | invalidDigit
  | tooLarge
  | tooSmall
deriving DecidableEq, Repr

namespace NumeralError

def message : NumeralError → String
  | empty => "cannot parse integer from empty string"
  | invalidDigit => "invalid digit found in string"
  | tooLarge => "number too large to fit in target type"
  | tooSmall => "number too small to fit in target type"

end NumeralError

namespace Numeral

/-- Reads digits behind a number that has been read, up to a limit. -/
def digitsUpTo (limit : Nat) (past : NumeralError) (number : Nat) :
    List Char → Except NumeralError Nat
  | [] => .ok number
  | char :: rest =>
      if !char.isDigit then .error .invalidDigit
      else
        let next := number * 10 + (char.toNat - '0'.toNat)
        if limit < next then .error past else digitsUpTo limit past next rest

/-- Reads digits of which there has to be one. -/
def digits (limit : Nat) (past : NumeralError) (text : List Char) : Except NumeralError Nat :=
  if text.isEmpty then .error .invalidDigit else digitsUpTo limit past 0 text

def natural (limit : Nat) (text : String) : Except NumeralError Nat :=
  match text.toList with
  | [] => .error .empty
  | '+' :: rest => digits limit .tooLarge rest
  | chars => digits limit .tooLarge chars

/-- A number of 64 bits, the first of them for the sign. -/
def signed64 (text : String) : Except NumeralError Int :=
  match text.toList with
  | [] => .error .empty
  | '-' :: rest => (digits (Nat.pow 2 63) .tooSmall rest).map fun number => -(number : Int)
  | '+' :: rest => (digits (Nat.pow 2 63 - 1) .tooLarge rest).map Int.ofNat
  | chars => (digits (Nat.pow 2 63 - 1) .tooLarge chars).map Int.ofNat

end Numeral

end CodeAtlas.Text
