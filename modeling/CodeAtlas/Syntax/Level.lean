import CodeAtlas.Syntax.Outline
import CodeAtlas.Syntax.Parser

/-!
# Levels of nesting

A construct that stands inside another is read by the parsers of the level below, so that reading is
recursive on the depth of nesting. A level bundles the parsers for all that can stand inside.
-/

namespace CodeAtlas.Syntax

/-- What an expression can be on the left of an assignment. -/
inductive Shape where
  | value
  | place
  /-- A sequence of targets, a target in parentheses or a starred place. -/
  | pattern
deriving DecidableEq, Repr

/-- What is kept of an expression. -/
structure Operand where
  referent : Referent := .other
  calls : List Call := []
  shape : Shape := .value
deriving Inhabited

namespace Operand

def isTarget (operand : Operand) : Bool := operand.shape ≠ .value

def ofName (text : String) : Operand := { referent := .name text, shape := .place }

/-- The name that the operand is, where it is a name and nothing else. -/
def name? (operand : Operand) : Option String :=
  match operand.referent with
  | .name text => some text
  | _ => none

def isName (operand : Operand) : Bool := operand.name?.isSome

def ofCalls (calls : List Call) : Operand := { calls }

/-- A value computed from other expressions. -/
def combine (operands : List Operand) : Operand := ofCalls (operands.flatMap calls)

def inner (operand : Operand) : Operand := ofCalls operand.calls

end Operand

/-- What surrounds an expression. -/
structure Setting where
  /-- What may stand where the expression starts. -/
  opening : Expectation := { quote := true }
  /-- The line may end behind the expression. -/
  newline : Bool := false
  /-- A closing bracket may stand behind the expression. -/
  closer : Bool := false

namespace Setting

/-- What may stand behind the expression. -/
def behind (setting : Setting) : Expectation :=
  { newline := setting.newline, closer := setting.closer }

/-- What may stand where the expression can be left out. -/
def orEnd (setting : Setting) : Expectation := { setting.behind with quote := true }

/-- What may stand behind a part of an operand. Stars in front that need an attribute or a subscript
are not at the end of a line. -/
def behindStars (setting : Setting) (stars : Nat) : Expectation :=
  if stars = 0 then setting.behind else {}

/-- The setting of a later part of the same expression. -/
def later (setting : Setting) : Setting := { setting with opening := { quote := true } }

def openedBy (setting : Setting) (opening : Expectation) : Setting := { setting with opening }

def inside : Setting := {}

def lineEnd : Setting := { newline := true }

def bracketed : Setting := { closer := true }

end Setting

/-- How tightly the operators between expressions bind. -/
abbrev Strength := Nat

namespace Strength

def weakest : Strength := 0
def conditional : Strength := 1
def naming : Strength := 2
def disjunction : Strength := 3
def conjunction : Strength := 4
def negation : Strength := 5

end Strength

structure Level where
  /-- An expression whose operators bind at least as tightly as given; in a loop's head the body of
  a leading anonymous function is held to the same strength. -/
  expression : (strength : Strength) → (inHead : Bool) → Setting → Parser Operand
  /-- What can stand on the left of an assignment, without operators. -/
  target : Setting → Parser Operand
  /-- The part of a formatted string between braces, without the opening brace. -/
  replacement : Parser (List Call)
  /-- A type; a constrained one has a colon in it. -/
  annotation : (constrained : Bool) → Setting → Parser (List Call)
  /-- A case pattern; without naming, only alternatives. -/
  casePattern : (naming : Bool) → Setting → Parser (List Call)
  block : Parser Forest

namespace Level

open CodeAtlas.Syntax.Parser

/-- The level below which nothing is left to read. -/
def bottom : Level where
  expression _ _ _ := fail
  target _ := fail
  replacement := fail
  annotation _ _ := fail
  casePattern _ _ := fail
  block := fail

def whole (level : Level) (setting : Setting) : Parser Operand :=
  level.expression .weakest false setting

def callsIn (level : Level) (setting : Setting) : Parser (List Call) := do
  let operand ← level.whole setting
  pure operand.calls

end Level

namespace Parser

def startsPrimary : Lexeme → Bool
  | .quote _ => true
  | .number => true
  | .word text => isName text || ["True", "False", "None"].contains text
  | .symbol text => ["(", "[", "\x7b", "-", "+", "~", "*", "**", "..."].contains text
  | _ => false

def startsExpression : Lexeme → Bool
  | .word "lambda" => true
  | .word "not" => true
  | lexeme => startsPrimary lexeme

/-- One or more elements between commas. With a test for what starts an element, a comma may end the
list. -/
def separated {α : Type} (setting : Setting) (starts : Option (Lexeme → Bool))
    (element : Setting → Parser α) : Parser (List α) := do
  let first ← element setting
  loop [first] fun read =>
    onNext setting.behind fun
      | .symbol "," =>
          match starts with
          | none => .take do again ((← element setting.later) :: read)
          | some starts =>
              .take <| onNext setting.orEnd fun lexeme =>
                if starts lexeme then
                  .leave do again ((← element (setting.openedBy setting.orEnd)) :: read)
                else .leave (done read.reverse)
      | _ => .leave (done read.reverse)

end Parser

namespace Level

open CodeAtlas.Syntax.Parser

def expressions (level : Level) (setting : Setting) : Parser (List Operand) :=
  separated setting (some startsExpression) level.whole

def expression? (level : Level) (setting : Setting) : Parser (List Call) :=
  onNext setting.opening fun lexeme =>
    if startsExpression lexeme then .leave (level.callsIn setting) else .leave (pure [])

def yielded (level : Level) (setting : Setting) : Parser (List Call) :=
  onNext setting.orEnd fun lexeme =>
    if lexeme = .word "from" then .take (level.callsIn setting.later)
    else if startsExpression lexeme then
      .leave do
        let operands ← level.expressions (setting.openedBy setting.orEnd)
        pure (operands.flatMap Operand.calls)
    else .leave (pure [])

end Level

end CodeAtlas.Syntax
