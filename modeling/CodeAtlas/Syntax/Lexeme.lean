import CodeAtlas.Syntax.Layout
import CodeAtlas.Text.Identifier

/-!
# Lexemes

The smallest units of a source: layout tokens, opening quotes, words, numbers and symbols. Comments,
blanks and joined lines stand between them. Each kind is read by a function that gives the number of
characters taken; a symbol is the longest that fits.
-/

namespace CodeAtlas.Syntax

/-- How a string literal was opened. -/
structure Delimiter where
  quote : Char
  triple : Bool := false
  format : Bool := false
  raw : Bool := false
  bytes : Bool := false
deriving DecidableEq, Repr

inductive Lexeme where
  | layout (token : Layout.Token)
  | quote (delimiter : Delimiter)
  | word (text : String)
  | number
  | symbol (text : String)
  | finish
  | unknown
deriving DecidableEq, Repr

namespace Lexeme

/-- Blanks between lexemes, where layout does not matter. -/
def isSpace (char : Char) : Bool :=
  let code := char.toNat
  (9 ≤ code && code ≤ 13) || code == 32 || code == 0xFEFF || code == 0x2060 || code == 0x200B

/-- Reads the opening quote of a string with the letters before it. -/
def quoteFrom (delimiter : Delimiter) (count : Nat) : List Char → Option (Delimiter × Nat)
  | [] => none
  | char :: rest =>
      if char ∈ ['f', 'F', 't', 'T'] then
        quoteFrom { delimiter with format := true } (count + 1) rest
      else if char ∈ ['r', 'R'] then quoteFrom { delimiter with raw := true } (count + 1) rest
      else if char ∈ ['b', 'B'] then quoteFrom { delimiter with bytes := true } (count + 1) rest
      else if char ∈ ['u', 'U'] then quoteFrom delimiter (count + 1) rest
      else if char = '`' then some ({ delimiter with quote := char }, count + 1)
      else if char = '"' || char = '\'' then
        if rest.take 2 = [char, char] then
          some ({ delimiter with quote := char, triple := true }, count + 3)
        else some ({ delimiter with quote := char }, count + 1)
      else none

def quoteAt (chars : List Char) : Option (Delimiter × Nat) := quoteFrom { quote := '"' } 0 chars

/-- Length of a run of decimal digits in which one underscore may follow a digit. -/
def digitRun (afterDigit : Bool) : List Char → Nat
  | [] => 0
  | char :: rest =>
      if char.isDigit then digitRun true rest + 1
      else if char = '_' && afterDigit then digitRun false rest + 1
      else 0

/-- Length of a run of digits of another base in which one underscore may precede a digit. -/
def baseRun (isDigit : Char → Bool) : List Char → Nat
  | '_' :: char :: rest => if isDigit char then baseRun isDigit rest + 2 else 0
  | char :: rest => if isDigit char then baseRun isDigit rest + 1 else 0
  | [] => 0

def isHexDigit (char : Char) : Bool :=
  char.isDigit || ('a' ≤ char && char ≤ 'f') || ('A' ≤ char && char ≤ 'F')

/-- Length of an exponent, zero where none stands. -/
def exponentLength : List Char → Nat
  | char :: rest =>
      if char = 'e' || char = 'E' then
        match rest with
        | sign :: digits =>
            if sign = '+' || sign = '-' then
              let count := digitRun false digits
              if count = 0 then 0 else count + 2
            else
              let count := digitRun false rest
              if count = 0 then 0 else count + 1
        | [] => 0
      else 0
  | [] => 0

/-- One more when the next character is among the given ones. -/
def withSuffix (letters : List Char) (chars : List Char) (length : Nat) : Nat :=
  match chars.drop length with
  | char :: _ => if char ∈ letters then length + 1 else length
  | [] => length

/-- Length of a number with a fraction or an exponent, zero where none stands. -/
def fractionLength (chars : List Char) : Nat :=
  let whole := digitRun false chars
  match chars.drop whole with
  | '.' :: rest =>
      let digits := digitRun false rest
      if whole = 0 && digits = 0 then 0
      else withSuffix ['j', 'J'] chars (whole + 1 + digits + exponentLength (rest.drop digits))
  | rest =>
      let exponent := exponentLength rest
      if whole = 0 || exponent = 0 then 0 else withSuffix ['j', 'J'] chars (whole + exponent)

/-- Length of a whole number in any base, zero where none stands. -/
def wholeLength (chars : List Char) : Nat :=
  let based (isDigit : Char → Bool) (digits : List Char) : Nat :=
    let count := baseRun isDigit digits
    if count = 0 then withSuffix ['l', 'L', 'j', 'J'] chars 1
    else withSuffix ['l', 'L'] chars (count + 2)
  match chars with
  | '0' :: 'x' :: digits => based isHexDigit digits
  | '0' :: 'X' :: digits => based isHexDigit digits
  | '0' :: 'o' :: digits => based (fun char => '0' ≤ char && char ≤ '7') digits
  | '0' :: 'O' :: digits => based (fun char => '0' ≤ char && char ≤ '7') digits
  | '0' :: 'b' :: digits => based (fun char => char = '0' || char = '1') digits
  | '0' :: 'B' :: digits => based (fun char => char = '0' || char = '1') digits
  | _ =>
      let count := digitRun false chars
      if count = 0 then 0 else withSuffix ['l', 'L', 'j', 'J'] chars count

def numberLength (chars : List Char) : Nat := max (fractionLength chars) (wholeLength chars)

def symbols : List String :=
  ["**=", "//=", ">>=", "<<=", "...",
   "**", "//", ">>", "<<", "<=", ">=", "==", "!=", "<>", "->", ":=", "+=", "-=", "*=", "/=", "%=",
   "@=", "&=", "^=", "|=",
   "+", "-", "*", "/", "%", "@", "&", "^", "|", "~", "<", ">", "=", "!", ".", ",", ":", ";", "(",
   ")", "[", "]", "\x7b", "\x7d"]

def symbolTable : List (List Char × String) := symbols.map fun symbol => (symbol.toList, symbol)

def symbolAt (chars : List Char) : Option (List Char × String) :=
  symbolTable.find? fun entry => entry.1.isPrefixOf chars

/-- The word, number or symbol at a point that is not blank, and its length. -/
def textAt : List Char → Lexeme × Nat
  | [] => (.finish, 0)
  | char :: rest =>
      if Text.Identifier.isStart char then
        let name := char :: rest.takeWhile Text.Identifier.isContinue
        (.word (String.ofList name), name.length)
      else
        let number := numberLength (char :: rest)
        if number ≠ 0 then (.number, number)
        else
          match symbolAt (char :: rest) with
          | some (chars, sign) => (.symbol sign, chars.length)
          | none => (.unknown, 0)

/-- Length of what a reader skips before it looks for layout again: a comment or a joined line
end. -/
def gapLength : List Char → Nat
  | '#' :: rest => (rest.takeWhile (· ≠ '\n')).length + 1
  | '\\' :: '\n' :: _ => 2
  | '\\' :: '\r' :: '\n' :: _ => 3
  | ['\\'] => 1
  | _ => 0

end Lexeme

/-- A lexeme with the points where it starts and stops; what lies before the start is skipped. -/
structure Ahead where
  lexeme : Lexeme
  start : Cursor
  stop : Cursor

namespace Cursor

/-- Looks past at most `rounds` comments and joined lines for the next lexeme. -/
def aheadFuel (expected : Expectation) : Nat → Cursor → Ahead
  | 0, cursor => ⟨.unknown, cursor, cursor⟩
  | rounds + 1, cursor =>
      let survey? := Layout.survey expected cursor
      match survey?.bind (·.token? expected cursor) with
      | some token => ⟨.layout token, cursor, token.apply cursor⟩
      | none =>
          let quote? := survey?.bind fun survey =>
            if expected.quote && survey.comment.isNone then
              (Lexeme.quoteAt survey.rest).map fun (delimiter, length) =>
                (survey.passed, delimiter, length)
            else none
          match quote? with
          | some (passed, delimiter, length) =>
              let start := cursor.skip passed
              ⟨.quote delimiter, start, { start.skip length with inFormat := delimiter.format }⟩
          | none =>
              let start := cursor.skip (cursor.rest.takeWhile Lexeme.isSpace).length
              let gap := Lexeme.gapLength start.rest
              if gap = 0 then
                let (lexeme, length) := Lexeme.textAt start.rest
                ⟨lexeme, start, start.skip length⟩
              else aheadFuel expected rounds (start.skip gap)

/-- The next lexeme, given what the grammar can use here. -/
def ahead (expected : Expectation) (cursor : Cursor) : Ahead :=
  aheadFuel expected cursor.fuel cursor

theorem reaches_apply (token : Layout.Token) (cursor : Cursor) :
    cursor.Reaches (token.apply cursor) := by
  cases token <;> exact Reaches.refl _

theorem reaches_aheadFuel (expected : Expectation) (rounds : Nat) (cursor : Cursor) :
    cursor.Reaches (aheadFuel expected rounds cursor).start ∧
      (aheadFuel expected rounds cursor).start.Reaches
        (aheadFuel expected rounds cursor).stop := by
  induction rounds generalizing cursor with
  | zero => exact ⟨Reaches.refl _, Reaches.refl _⟩
  | succ rounds ih =>
      unfold aheadFuel
      dsimp only
      split
      · exact ⟨Reaches.refl _, reaches_apply _ _⟩
      · split
        · exact ⟨reaches_skip _ _, reaches_skip _ _⟩
        · split
          · exact ⟨reaches_skip _ _, reaches_skip _ _⟩
          · exact ⟨(reaches_skip _ _).trans ((reaches_skip _ _).trans (ih _).1), (ih _).2⟩

theorem reaches_start (expected : Expectation) (cursor : Cursor) :
    cursor.Reaches (cursor.ahead expected).start :=
  (reaches_aheadFuel expected cursor.fuel cursor).1

theorem start_reaches_stop (expected : Expectation) (cursor : Cursor) :
    (cursor.ahead expected).start.Reaches (cursor.ahead expected).stop :=
  (reaches_aheadFuel expected cursor.fuel cursor).2

end Cursor

end CodeAtlas.Syntax
