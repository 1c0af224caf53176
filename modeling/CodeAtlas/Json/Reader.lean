import CodeAtlas.Json.Draft
import CodeAtlas.Text.Utf8

/-!
# Reading JSON

Reads a text as a draft. The text is a list of characters in which bytes that belong to no character
keep their places: inside a string they spoil the string, elsewhere they are no value. A real number
is read by scaling its first digits, so far as they fit a machine word, by a power of ten.
-/

namespace CodeAtlas.Json

/-- A text, with nothing for a byte that belongs to no character. -/
abbrev Input := List (Option Char)

namespace Input

def ofText (text : String) : Input := text.toList.map some

/-- Reads bytes with `pending` of them left of the last character. -/
def ofBytesFrom (pending : Nat) : Bytes → Input
  | [] => []
  | byte :: rest =>
      match pending with
      | pending + 1 => ofBytesFrom pending rest
      | 0 =>
          match Text.Utf8.step (byte :: rest) with
          | .error _ => none :: ofBytesFrom 0 rest
          | .ok (char, length) => some char :: ofBytesFrom (length - 1) rest

def ofBytes (bytes : Bytes) : Input := ofBytesFrom 0 bytes

def isBlank : Option Char → Bool
  | some char => char = ' ' || char = '\n' || char = '\t' || char = '\r'
  | none => false

def skipBlanks (input : Input) : Input := input.dropWhile isBlank

def width : Option Char → Nat
  | some char => char.utf8Size
  | none => 1

end Input

namespace Reader

/-! ## Strings -/

def hexValue : Option Char → Option Nat
  | some char =>
      if char.isDigit then some (char.toNat - '0'.toNat)
      else if 'a' ≤ char && char ≤ 'f' then some (char.toNat - 'a'.toNat + 10)
      else if 'A' ≤ char && char ≤ 'F' then some (char.toNat - 'A'.toNat + 10)
      else none
  | none => none

/-- The four hexadecimal digits of an escape. -/
def hexEscape (input : Input) : Except SyntaxError (Nat × Input) :=
  match input.take 4 with
  | [first, second, third, fourth] =>
      match hexValue first, hexValue second, hexValue third, hexValue fourth with
      | some first, some second, some third, some fourth =>
          .ok (((first * 16 + second) * 16 + third) * 16 + fourth, input.drop 4)
      | _, _, _, _ => .error .invalidEscape
  | short =>
      let width := short.foldl (fun width place => width + Input.width place) 0
      if 4 ≤ width then .error .invalidEscape else .error .endInString

def simpleEscape : Char → Option Char
  | '"' => some '"'
  | '\\' => some '\\'
  | '/' => some '/'
  | 'b' => some '\x08'
  | 'f' => some '\x0c'
  | 'n' => some '\n'
  | 'r' => some '\r'
  | 't' => some '\t'
  | _ => none

def isLeading (unit : Nat) : Bool := 0xD800 ≤ unit && unit ≤ 0xDBFF

def isTrailing (unit : Nat) : Bool := 0xDC00 ≤ unit && unit ≤ 0xDFFF

/-- What a string has shown so far. -/
structure StringState where
  /-- Characters read, in reverse. -/
  read : List Char := []
  /-- The first escape that stands for no character. -/
  badEscape : Option SyntaxError := none
  badByte : Bool := false

namespace StringState

def push (state : StringState) (char : Char) : StringState :=
  { state with read := char :: state.read }

def spoil (state : StringState) (error : SyntaxError) : StringState :=
  { state with badEscape := state.badEscape <|> some error }

def finish (state : StringState) : DraftString :=
  match state.badEscape with
  | some error => .error error
  | none =>
      if state.badByte then .error .invalidCodePoint
      else .ok (String.ofList state.read.reverse)

def fault (state : StringState) (error : SyntaxError) : Fault := ⟨state.badEscape.getD error, error⟩

end StringState

/-- Reads an escape of a code unit behind its `u`, with a second one where they make a pair. -/
def unitEscape (state : StringState) (input : Input) : Except Fault (StringState × Input) :=
  match hexEscape input with
  | .error error => .error (state.fault error)
  | .ok (unit, rest) =>
      if isTrailing unit then .ok (state.spoil .loneSurrogate, rest)
      else if isLeading unit then
        match rest with
        | some '\\' :: some 'u' :: behind =>
            match hexEscape behind with
            | .error error => .error (state.fault error)
            | .ok (second, rest) =>
                if isTrailing second then
                  .ok (state.push (Char.ofNat
                    ((unit - 0xD800) * 0x400 + (second - 0xDC00) + 0x10000)), rest)
                else .ok (state.spoil .loneSurrogate, rest)
        | [] => .ok (state, rest)
        | [some '\\'] => .ok (state, rest)
        | _ => .ok (state.spoil .endOfSurrogates, rest)
      else .ok (state.push (Char.ofNat unit), rest)

/-- Reads an escape behind its backslash. -/
def escape (state : StringState) : Input → Except Fault (StringState × Input)
  | [] => .error (state.fault .endInString)
  | some 'u' :: rest => unitEscape state rest
  | some char :: rest =>
      match simpleEscape char with
      | some char => .ok (state.push char, rest)
      | none => .error (state.fault .invalidEscape)
  | none :: _ => .error (state.fault .invalidEscape)

/-- Reads a string behind its opening quote. -/
def stringFuel : Nat → StringState → Input → Except Fault (DraftString × Input)
  | 0, state, _ => .error (state.fault .endInString)
  | _, state, [] => .error (state.fault .endInString)
  | _, state, some '"' :: rest => .ok (state.finish, rest)
  | fuel + 1, state, some '\\' :: rest =>
      match escape state rest with
      | .error fault => .error fault
      | .ok (state, rest) => stringFuel fuel state rest
  | fuel + 1, state, none :: rest => stringFuel fuel { state with badByte := true } rest
  | fuel + 1, state, some char :: rest =>
      if char.toNat < 0x20 then .error (state.fault .controlCharacter)
      else stringFuel fuel (state.push char) rest

def string (fuel : Nat) (input : Input) : Except Fault (DraftString × Input) :=
  stringFuel fuel {} input

/-! ## Numbers -/

def digitsOf (input : Input) : List Nat :=
  (input.takeWhile fun place => place.any Char.isDigit).filterMap fun place =>
    place.map fun char => char.toNat - '0'.toNat

/-- The parts of a number as written. -/
structure Numeral where
  negative : Bool
  whole : List Nat
  fraction : Option (List Nat)
  /-- The sign of the exponent, with its digits. -/
  exponent : Option (Bool × List Nat)

namespace Numeral

def wordLimit : Nat := Nat.pow 2 64 - 1

/-- Appends digits to a number while it fits a machine word, and counts those left out. -/
def accumulate (number : Nat) : List Nat → Nat × Nat
  | [] => (number, 0)
  | digit :: rest =>
      if wordLimit < number * 10 + digit then (number, rest.length + 1)
      else accumulate (number * 10 + digit) rest

def powerOfTen (power : Nat) : Float := Float.ofScientific 1 false power

/-- Scales by a power of ten, in more than one step where the power is out of range. -/
def scaled (number : Float) : (rounds : Nat) → Int → Except SyntaxError Float
  | 0, _ => .ok number
  | rounds + 1, exponent =>
      if exponent.natAbs ≤ 308 then
        if 0 ≤ exponent then
          let result := number * powerOfTen exponent.natAbs
          if result.isInf then .error .numberOutOfRange else .ok result
        else .ok (number / powerOfTen exponent.natAbs)
      else if number == 0.0 then .ok number
      else if 0 ≤ exponent then .error .numberOutOfRange
      else scaled (number / powerOfTen 308) rounds (exponent + 308)

def signed (negative : Bool) (number : Float) : Float := if negative then -number else number

/-- The greatest exponent that is kept as written. -/
def exponentLimit : Nat := Nat.pow 2 31 - 1

/-- An exponent as a number, where it is kept. -/
def exponentOf (digits : List Nat) : Option Nat :=
  digits.foldl (fun number digit =>
    match number with
    | none => none
    | some number =>
        if exponentLimit < number * 10 + digit then none else some (number * 10 + digit)) (some 0)

def clamp (exponent : Int) : Int :=
  max (-exponentLimit - 1) (min exponentLimit exponent)

/-- Appends the digits behind the point to those in front of it. The power of ten that is left over
is given. -/
def start (numeral : Numeral) (significand : Nat) (left : Nat) : Nat × Int :=
  match numeral.fraction with
  | none => (significand, left)
  | some digits =>
      let (number, unused) := accumulate significand digits
      (number, (left : Int) - (digits.length - unused : Nat))

def finish (numeral : Numeral) (significand : Nat) (exponent : Int) : Except SyntaxError Number := do
  let number ← scaled (UInt64.ofNat significand).toFloat 8 exponent
  return .real (signed numeral.negative number)

/-- The value of a number with a fraction, an exponent or too many digits. -/
def realValue (numeral : Numeral) (significand : Nat) (left : Nat) : Except SyntaxError Number :=
  let (significand, start) := start numeral significand left
  match numeral.exponent with
  | none => finish numeral significand start
  | some (isNegative, digits) =>
      match exponentOf digits with
      | some exponent =>
          finish numeral significand
            (clamp (if isNegative then start - exponent else start + exponent))
      | none =>
          if significand ≠ 0 && !isNegative then .error .numberOutOfRange
          else .ok (.real (signed numeral.negative 0.0))

def value (numeral : Numeral) : Except SyntaxError Number :=
  let (significand, left) := accumulate 0 numeral.whole
  if numeral.fraction.isNone && numeral.exponent.isNone && left = 0 then
    if !numeral.negative then .ok (.whole significand)
    else if significand = 0 || Nat.pow 2 63 < significand then
      .ok (.real (-(UInt64.ofNat significand).toFloat))
    else .ok (.whole (-significand))
  else realValue numeral significand left

end Numeral

def digitFault : Input → Fault
  | [] => ⟨.endInValue, .invalidNumber⟩
  | _ => Fault.same .invalidNumber

/-- Reads the exponent of a number, where there is one. -/
def exponent : Input → Except Fault (Option (Bool × List Nat) × Input)
  | some mark :: rest =>
      if mark = 'e' || mark = 'E' then
        let (isNegative, rest) :=
          match rest with
          | some '+' :: rest => (false, rest)
          | some '-' :: rest => (true, rest)
          | _ => (false, rest)
        let digits := digitsOf rest
        if digits.isEmpty then .error (digitFault rest)
        else .ok (some (isNegative, digits), rest.drop digits.length)
      else .ok (none, some mark :: rest)
  | input => .ok (none, input)

/-- Reads the fraction and the exponent of a number. -/
def fraction (negative : Bool) (whole : List Nat) (input : Input) :
    Except Fault (Numeral × Input) := do
  match input with
  | some '.' :: rest =>
      let digits := digitsOf rest
      if digits.isEmpty then .error (digitFault rest)
      else
        let (exponent, rest) ← exponent (rest.drop digits.length)
        return ({ negative, whole, fraction := some digits, exponent }, rest)
  | _ =>
      let (exponent, rest) ← exponent input
      return ({ negative, whole, fraction := none, exponent }, rest)

def unsigned (negative : Bool) (input : Input) : Except Fault (Numeral × Input) :=
  match digitsOf input with
  | [] => .error (digitFault input)
  | [0] => fraction negative [0] (input.drop 1)
  | 0 :: _ => .error (Fault.same .invalidNumber)
  | digits => fraction negative digits (input.drop digits.length)

/-! ## Values -/

/-- A draft, and the text behind it where the draft is unbroken. -/
abbrev Result := Draft × Option Input

def brokenBy (fault : Fault) : Result := (.broken fault, none)

def wordRest (draft : Draft) : List Char → Input → Result
  | [], input => (draft, some input)
  | _ :: _, [] => brokenBy (Fault.same .endInValue)
  | char :: rest, place :: input =>
      if place = some char then wordRest draft rest input
      else brokenBy (Fault.same .expectedWord)

def number (negative : Bool) (input : Input) : Result :=
  match unsigned negative input with
  | .error fault => brokenBy fault
  | .ok (numeral, rest) => (.number numeral.value, some rest)

mutual

def valueFuel : Nat → Input → Result
  | 0, _ => brokenBy (Fault.same .endInValue)
  | fuel + 1, input =>
      match Input.skipBlanks input with
      | [] => brokenBy (Fault.same .endInValue)
      | some 'n' :: rest => wordRest .null ['u', 'l', 'l'] rest
      | some 't' :: rest => wordRest (.bool true) ['r', 'u', 'e'] rest
      | some 'f' :: rest => wordRest (.bool false) ['a', 'l', 's', 'e'] rest
      | some '"' :: rest =>
          match string fuel rest with
          | .error fault => brokenBy fault
          | .ok (text, rest) => (.string text, some rest)
      | some '[' :: rest =>
          match Input.skipBlanks rest with
          | [] => (.array [] (some (Fault.same .endInList)), none)
          | some ']' :: rest => (.array [] none, some rest)
          | rest => itemsFuel fuel [] rest
      | some '\x7b' :: rest =>
          match Input.skipBlanks rest with
          | [] => (.object [] (some (Fault.same .endInObject)), none)
          | some '\x7d' :: rest => (.object [] none, some rest)
          | some '"' :: rest => entriesFuel fuel [] rest
          | _ => (.object [] (some (Fault.same .keyNotString)), none)
      | some '-' :: rest => number true rest
      | some char :: rest =>
          if char.isDigit then number false (some char :: rest)
          else brokenBy (Fault.same .expectedValue)
      | none :: _ => brokenBy (Fault.same .expectedValue)

/-- Reads an item and those behind it; the items before are given in reverse. -/
def itemsFuel : Nat → List Draft → Input → Result
  | 0, read, _ => (.array read.reverse (some (Fault.same .endInList)), none)
  | fuel + 1, read, input =>
      let stop (read : List Draft) (fault : Fault) : Result :=
        (.array read.reverse (some fault), none)
      match valueFuel fuel input with
      | (item, none) => (.array (item :: read).reverse none, none)
      | (item, some rest) =>
          match Input.skipBlanks rest with
          | [] => stop (item :: read) (Fault.same .endInList)
          | some ']' :: rest => (.array (item :: read).reverse none, some rest)
          | some ',' :: rest =>
              match Input.skipBlanks rest with
              | [] => stop (item :: read) (Fault.same .endInValue)
              | some ']' :: _ => stop (item :: read) ⟨.trailingComma, .expectedValue⟩
              | rest => itemsFuel fuel (item :: read) rest
          | _ => stop (item :: read) (Fault.same .expectedListEnd)

/-- Reads an entry, behind the quote that opens its key, and those behind it. -/
def entriesFuel : Nat → List (DraftString × Draft) → Input → Result
  | 0, read, _ => (.object read.reverse (some (Fault.same .endInObject)), none)
  | fuel + 1, read, input =>
      let stop (read : List (DraftString × Draft)) (fault : Fault) : Result :=
        (.object read.reverse (some fault), none)
      match string fuel input with
      | .error fault => stop read fault
      | .ok (key, rest) =>
          let keyed (error : SyntaxError) : Fault :=
            ⟨(Draft.stringError key).getD error, error⟩
          match Input.skipBlanks rest with
          | [] => stop read (keyed .endInObject)
          | some ':' :: rest =>
              match valueFuel fuel rest with
              | (item, none) => (.object ((key, item) :: read).reverse none, none)
              | (item, some rest) =>
                  let read := (key, item) :: read
                  match Input.skipBlanks rest with
                  | [] => stop read (Fault.same .endInObject)
                  | some '\x7d' :: rest => (.object read.reverse none, some rest)
                  | some ',' :: rest =>
                      match Input.skipBlanks rest with
                      | [] => stop read ⟨.endInValue, .endInObject⟩
                      | some '"' :: rest => entriesFuel fuel read rest
                      | some '\x7d' :: _ => stop read ⟨.trailingComma, .keyNotString⟩
                      | _ => stop read (Fault.same .keyNotString)
                  | _ => stop read (Fault.same .expectedObjectEnd)
          | _ => stop read (keyed .expectedColon)

end

end Reader

/-- A whole text: its value, and whether anything but blanks stands behind it. -/
structure Document where
  root : Draft
  trailing : Bool

namespace Document

/-- Each character is read at two levels at most, so twice the length is enough fuel. -/
def read (input : Input) : Document :=
  match Reader.valueFuel (2 * input.length + 3) input with
  | (root, none) => ⟨root, false⟩
  | (root, some rest) => ⟨root, !(Input.skipBlanks rest).isEmpty⟩

/-- The deepest nesting that is read, and one more. -/
def depthLimit : Nat := 128

/-- The value of a text all of which is read. -/
def whole (document : Document) : Except SyntaxError Draft :=
  match document.root.readFault depthLimit with
  | some error => .error error
  | none => if document.trailing then .error .trailingCharacters else .ok document.root

end Document

end CodeAtlas.Json
