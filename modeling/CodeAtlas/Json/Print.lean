import CodeAtlas.Json.Value
import CodeAtlas.Text.Quoted

/-!
# Writing JSON

Two layouts of a value: compact, and pretty with one entry a line and two blanks of indentation.
Only quotes, backslashes and control characters are escaped.
-/

namespace CodeAtlas.Json

namespace Print

def hexDigit (value : Nat) : Char := Nat.digitChar value

def escape (char : Char) : List Char :=
  if char = '"' || char = '\\' then ['\\', char]
  else if char = '\x08' then ['\\', 'b']
  else if char = '\x0c' then ['\\', 'f']
  else if char = '\n' then ['\\', 'n']
  else if char = '\r' then ['\\', 'r']
  else if char = '\t' then ['\\', 't']
  else if char.toNat < 0x20 then
    ['\\', 'u', '0', '0', hexDigit (char.toNat / 16), hexDigit (char.toNat % 16)]
  else [char]

def string (text : String) : List Char := '"' :: text.toList.flatMap escape ++ ['"']

/-- A number that is not finite is written as nothing. -/
def number (value : Number) : List Char := value.text.toList

/-- How the parts of a collection are set apart. -/
inductive Layout where
  | compact
  /-- Each entry on a line of its own, with the indentation of the collection in steps. -/
  | pretty (depth : Nat)

namespace Layout

def deeper : Layout → Layout
  | .compact => .compact
  | .pretty depth => .pretty (depth + 1)

/-- The break before an entry or before the closing bracket, at the indentation of the layout. -/
def lineBreak : Layout → List Char
  | .compact => []
  | .pretty depth => '\n' :: List.replicate (2 * depth) ' '

def colon : Layout → List Char
  | .compact => [':']
  | .pretty _ => [':', ' ']

end Layout

mutual

def value (layout : Layout) : Value → List Char
  | .null => ['n', 'u', 'l', 'l']
  | .bool true => ['t', 'r', 'u', 'e']
  | .bool false => ['f', 'a', 'l', 's', 'e']
  | .number number => Print.number number
  | .string text => string text
  | .array [] => ['[', ']']
  | .array (first :: rest) =>
      '[' :: layout.deeper.lineBreak ++ value layout.deeper first ++ items layout.deeper rest ++
        layout.lineBreak ++ [']']
  | .object [] => ['\x7b', '\x7d']
  | .object ((key, first) :: rest) =>
      '\x7b' :: layout.deeper.lineBreak ++ string key ++ layout.colon ++
        value layout.deeper first ++
        entries layout.deeper rest ++ layout.lineBreak ++ ['\x7d']

/-- The items behind the first, each after a comma. -/
def items (layout : Layout) : List Value → List Char
  | [] => []
  | item :: rest => ',' :: layout.lineBreak ++ value layout item ++ items layout rest

/-- The entries behind the first, each after a comma. -/
def entries (layout : Layout) : List (String × Value) → List Char
  | [] => []
  | (key, item) :: rest =>
      ',' :: layout.lineBreak ++ string key ++ layout.colon ++ value layout item ++
        entries layout rest

end

end Print

namespace Value

def compact (value : Value) : String := String.ofList (Print.value .compact value)

def pretty (value : Value) : String := String.ofList (Print.value (.pretty 0) value)

end Value

end CodeAtlas.Json
