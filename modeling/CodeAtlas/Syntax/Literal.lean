import CodeAtlas.Syntax.Level

/-!
# String literals

The inside of a string is read piece by piece: runs of plain text, escapes, the parts of a formatted
string between braces, and the closing quote. A line end closes no string, but plain text cannot run
over one in a string with single quotes unless it starts there.
-/

namespace CodeAtlas.Syntax

namespace Literal

inductive Piece where
  | text
  | close
  | replacement
deriving DecidableEq, Repr

/-- Length of a line end, zero where none stands. -/
def lineEnd : List Char → Nat
  | '\r' :: '\n' :: _ => 2
  | '\r' :: _ => 1
  | '\n' :: _ => 1
  | _ => 0

/-- In a raw string, the number of characters a backslash takes with it. -/
def rawEscape (quote : Char) : List Char → Nat
  | char :: rest =>
      if char = quote || char = '\\' then lineEnd rest + 1 else lineEnd (char :: rest)
  | [] => 0

/-- Reads plain text or the closing quote. `count` characters are behind, the next `pending` ones
are taken whatever they are, and `found` says that the text has begun. -/
def scan (delimiter : Delimiter) (count pending : Nat) (found : Bool) :
    List Char → Option (Piece × Nat)
  | [] => none
  | char :: rest =>
      let text := if found then some (.text, count) else none
      if pending ≠ 0 then scan delimiter (count + 1) (pending - 1) found rest
      else if delimiter.format && (char = '\x7b' || char = '\x7d') then text
      else if char = '\\' then
        if delimiter.raw then scan delimiter (count + 1) (rawEscape delimiter.quote rest) found rest
        else if delimiter.bytes then
          match rest with
          | [] => none
          | next :: _ =>
              if next ∈ ['N', 'u', 'U'] then scan delimiter (count + 1) 2 true rest else text
        else text
      else if char = delimiter.quote then
        if delimiter.triple then
          let run := (rest.take 2).takeWhile (· = char)
          if run.length < 2 then some (.text, count + 1 + run.length)
          else text <|> some (.close, count + 3)
        else text <|> some (.close, count + 1)
      else if char = '\n' && found && !delimiter.triple then none
      else scan delimiter (count + 1) 0 true rest

/-- A number of hexadecimal digits stands at a point. -/
def startsHex (count : Nat) (chars : List Char) : Bool :=
  ((chars.take count).takeWhile Lexeme.isHexDigit).length = count

/-- Length of the escape at a backslash, which is the backslash alone where no escape is known. -/
def escapeLength : List Char → Nat
  | 'u' :: rest => if startsHex 4 rest then 6 else 1
  | 'U' :: rest => if startsHex 8 rest then 10 else 1
  | 'x' :: rest => if startsHex 2 rest then 4 else 1
  | 'N' :: '\x7b' :: rest =>
      let named := (rest.takeWhile (· ≠ '\x7d')).length
      if named = 0 || named = rest.length then 1 else named + 4
  | '\r' :: '\n' :: _ => 3
  | char :: rest =>
      if char.isDigit then
        if ((rest.take 2).takeWhile Char.isDigit).length = 2 then 4 else 1
      else if char ∈ ['\n', '\'', '"', 'a', 'b', 'f', 'r', 'n', 't', 'v', '\\'] then 2
      else 1
  | [] => 1

/-- What is left to read where no plain text can be: escapes, and behind blanks the brace of a
replacement, a comment or a joined line. -/
def beyondText (chars : List Char) : Option (Piece × Nat) :=
  match chars with
  | '\\' :: rest => some (.text, escapeLength rest)
  | _ =>
      let blanks := (chars.takeWhile Lexeme.isSpace).length
      match chars.drop blanks with
      | '\x7b' :: _ => some (.replacement, blanks + 1)
      | rest =>
          let gap := Lexeme.gapLength rest
          if gap = 0 then none else some (.text, blanks + gap)

/-- The next piece of a string and its length. -/
def pieceAt (delimiter : Delimiter) (chars : List Char) : Option (Piece × Nat) :=
  match delimiter.format, chars with
  | true, '\x7b' :: '\x7b' :: _ => some (.text, 2)
  | true, '\x7d' :: '\x7d' :: _ => some (.text, 2)
  | _, _ => scan delimiter 0 0 false chars <|> beyondText chars

/-- The text of a format up to the next brace, with the brace if it opens. -/
def braceAt (chars : List Char) : Option (Bool × Nat) :=
  let text := (chars.takeWhile fun char => char ≠ '\x7b' && char ≠ '\x7d').length
  match chars.drop text with
  | '\x7b' :: _ => some (true, text + 1)
  | '\x7d' :: _ => some (false, text)
  | _ => none

def conversionAt : List Char → Option (Unit × Nat)
  | char :: _ => if 'a' ≤ char && char ≤ 'z' then some ((), 1) else none
  | [] => none

end Literal

namespace Level

open CodeAtlas.Syntax.Parser

/-- The rest of a string behind its opening quote. -/
def stringRest (lower : Thunk Level) (delimiter : Delimiter) : Parser (List Call) :=
  loop [] fun calls => do
    match ← raw (Literal.pieceAt delimiter) with
    | .text => again calls
    | .replacement => again (calls ++ (← lower.get.replacement))
    | .close => leaveFormat; done calls

/-- A string and those that follow it directly, behind the first opening quote. -/
def strings (lower : Thunk Level) (delimiter : Delimiter) (behind : Expectation) :
    Parser (List Call) := do
  let first ← stringRest lower delimiter
  loop first fun calls =>
    onNext { behind with quote := true } fun
      | .quote delimiter => .take do again (calls ++ (← stringRest lower delimiter))
      | _ => .leave (done calls)

/-- The format of a replacement, up to its closing brace. -/
def format (lower : Thunk Level) : Parser (List Call) :=
  loop [] fun calls => do
    let isOpen ← raw Literal.braceAt
    if isOpen then again (calls ++ (← lower.get.replacement)) else done calls

def conversion : Parser Unit := raw Literal.conversionAt

/-- What may stand behind what a replacement shows. -/
def behindShown : Expectation := { closer := true }

/-- What a replacement shows. -/
def shown (lower : Thunk Level) : Parser (List Call) :=
  onNext { quote := true } fun
    | .word "yield" => .take (lower.get.yielded .bracketed)
    | _ => .leave do
        let operands ← lower.get.expressions .bracketed
        pure (operands.flatMap Operand.calls)

def conversion? : Parser Unit :=
  onNext behindShown fun
    | .symbol "!" => .take conversion
    | _ => .leave (pure ())

def format? (lower : Thunk Level) : Parser (List Call) :=
  onNext behindShown fun
    | .symbol ":" => .take (format lower)
    | .symbol ":=" => .take (format lower)
    | _ => .leave (pure [])

/-- A replacement behind its opening brace: what is shown, then how. -/
def replacementRest (lower : Thunk Level) : Parser (List Call) := do
  let shown ← shown lower
  let _ ← optionally behindShown (.symbol "=")
  conversion?
  let format ← format? lower
  symbol "\x7d" behindShown
  pure (shown ++ format)

end Level

end CodeAtlas.Syntax
