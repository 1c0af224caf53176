import CodeAtlas.Syntax.Literal

/-!
# Case patterns

The patterns of a `case` clause. A class pattern looks like a call and is none; only formatted
strings hold calls.
-/

namespace CodeAtlas.Syntax

namespace Level

open CodeAtlas.Syntax.Parser

def startsPattern : Lexeme → Bool
  | .quote _ => true
  | .number => true
  | .word text => isName text || ["True", "False", "None"].contains text
  | .symbol text => ["(", "[", "\x7b", "-", "*", "**"].contains text
  | _ => false

/-- Patterns in brackets, behind the opening one. -/
def patternSequence (lower : Thunk Level) (closer : String) : Parser (List Call) :=
  let setting := Setting.bracketed
  onNext setting.orEnd fun lexeme =>
    if lexeme = .symbol closer then .take (pure [])
    else
      .leave do
        let calls ← separated (setting.openedBy setting.orEnd) (some startsPattern)
          (lower.get.casePattern true)
        symbol closer setting.behind
        pure calls.flatten

/-- A number, which a second one may follow to make a complex number. -/
def numberPattern (setting : Setting) : Parser (List Call) := do
  exactly {} .number
  onNext setting.behind fun
    | .symbol text =>
        if text = "+" || text = "-" then
          .take do
            exactly {} .number
            pure []
        else .leave (pure [])
    | _ => .leave (pure [])

/-- A dotted name with the patterns in parentheses behind it, where there are any. -/
def namePattern (lower : Thunk Level) (setting : Setting) : Parser (List Call) := do
  let _ ← name setting.opening
  loop () fun _ =>
    onNext setting.behind fun
      | .symbol "." => .take do
          let _ ← name
          again ()
      | .symbol "(" => .take do done (← patternSequence lower ")")
      | _ => .leave (done [])

/-- A pattern of one alternative, given how to read a mapping behind its brace. -/
def singlePattern (lower : Thunk Level) (mapping : Parser (List Call)) (setting : Setting) :
    Parser (List Call) :=
  let splat : Parser (List Call) := do
    let _ ← name
    pure []
  onNext setting.opening fun
    | .symbol "*" => .take splat
    | .symbol "**" => .take splat
    | .symbol "(" => .take (patternSequence lower ")")
    | .symbol "[" => .take (patternSequence lower "]")
    | .symbol "\x7b" => .take mapping
    | .symbol "-" => .take (numberPattern setting)
    | .number => .leave (numberPattern setting)
    | .quote delimiter => .take (strings lower delimiter setting.behind)
    | .word "_" => .take (pure [])
    | .word text =>
        if isName text then .leave (namePattern lower setting)
        else if ["True", "False", "None"].contains text then .take (pure [])
        else .leave fail
    | _ => .leave fail

def alternatives (single : Setting → Parser (List Call)) (setting : Setting) :
    Parser (List Call) := do
  let first ← single setting
  loop first fun calls =>
    onNext setting.behind fun
      | .symbol "|" => .take do again (calls ++ (← single setting.later))
      | _ => .leave (done calls)

/-- A mapping pattern behind its opening brace. A key is an alternative without a name. -/
def mappingPattern (lower : Thunk Level) : Parser (List Call) :=
  let setting := Setting.bracketed
  let isStar (lexeme : Lexeme) : Bool := lexeme = .symbol "*" || lexeme = .symbol "**"
  let entry (inner : Setting) : Parser (List Call) :=
    onNext inner.opening fun lexeme =>
      if isStar lexeme then
        .take do
          let _ ← name
          pure []
      else
        .leave do
          let key ← lower.get.casePattern false (Setting.inside.openedBy inner.opening)
          symbol ":"
          let value ← lower.get.casePattern true setting
          pure (key ++ value)
  onNext setting.orEnd fun
    | .symbol "\x7d" => .take (pure [])
    | _ =>
        .leave do
          let calls ← separated (setting.openedBy setting.orEnd) (some startsPattern) entry
          symbol "\x7d" setting.behind
          pure calls.flatten

/-- The name a pattern begins with where it is a keyword. -/
def patternKeyword (setting : Setting) : Parser Unit := do
  let text ← name setting.opening
  require (text ≠ "_")
  symbol "=" setting.behind

/-- The names that a whole pattern is bound to. -/
def boundNames (setting : Setting) (calls : List Call) : Parser (List Call) :=
  loop () fun _ =>
    onNext setting.behind fun
      | .word "as" => .take do
          let _ ← name
          again ()
      | _ => .leave (done calls)

/-- A pattern: alternatives, given to a keyword or not, with names bound to the whole. -/
def casePatternRest (lower : Thunk Level) (naming : Bool) (setting : Setting) :
    Parser (List Call) :=
  let single := singlePattern lower (mappingPattern lower)
  if !naming then alternatives single setting
  else do
    let isKeyword ← succeeds (patternKeyword setting)
    let calls ← if isKeyword then do
        patternKeyword setting
        alternatives single setting.later
      else alternatives single setting
    boundNames setting calls

end Level

end CodeAtlas.Syntax
