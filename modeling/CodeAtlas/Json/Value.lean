import CodeAtlas.Decimal.Shortest

/-!
# JSON values

Values as they are written. An object keeps its entries in the order given. A number is whole or
real; its text shows which: a real number always has a point or an exponent.
-/

namespace CodeAtlas.Json

inductive Number where
  | whole (value : Int)
  | real (value : Float)

inductive Value where
  | null
  | bool (value : Bool)
  | number (value : Number)
  | string (value : String)
  | array (items : List Value)
  | object (entries : List (String × Value))

namespace Value

def natural (value : Nat) : Value := .number (.whole value)

def real (value : Float) : Value := .number (.real value)

end Value

namespace Number

/-- Places of the point, counted from the first digit, that are written without an exponent. -/
def isPositional (point : Int) : Bool := -5 < point && point ≤ 16

/-- Digits with a point at a given place. -/
def positional (digits : List Char) (point : Int) : List Char :=
  let count := digits.length
  if point ≤ 0 then ['0', '.'] ++ List.replicate (-point).toNat '0' ++ digits
  else if count ≤ point.toNat then digits ++ List.replicate (point.toNat - count) '0' ++ ['.', '0']
  else digits.take point.toNat ++ ['.'] ++ digits.drop point.toNat

/-- Digits with an exponent, which carries its sign. -/
def exponential (digits : List Char) (point : Int) : List Char :=
  let exponent := point - 1
  let sign := if exponent < 0 then '-' else '+'
  let fraction := if digits.length = 1 then [] else '.' :: digits.drop 1
  digits.take 1 ++ fraction ++ ['e', sign] ++ Decimal.digits exponent.natAbs

/-- The shortest text that reads back as a number. -/
def finiteText (number : Decimal.Binary) : String :=
  let body :=
    if number.significand = 0 then ['0', '.', '0']
    else
      let short := Decimal.shortest number
      let digits := Decimal.digits short.digits
      let point := (digits.length : Int) + short.exponent
      if isPositional point then positional digits point else exponential digits point
  Decimal.signText number.negative ++ String.ofList body

/-- The text of a real number; one that is not finite has none. -/
def realText? (value : Float) : Option String :=
  match Decimal.Value.ofFloat value with
  | .finite number => some (finiteText number)
  | _ => none

def text : Number → String
  | .whole value => toString value
  | .real value => (realText? value).getD "null"

end Number

end CodeAtlas.Json
