import CodeAtlas.Syntax.Annotation
import CodeAtlas.Syntax.CasePattern
import CodeAtlas.Syntax.Expression
import CodeAtlas.Syntax.Import

/-!
# Statements

Simple statements share lines between semicolons; compound statements hold suites, which are either
the rest of their line or an indented block, and may be empty. The soft keywords begin their own
statements only where what follows fits, and are names otherwise.
-/

namespace CodeAtlas.Syntax

namespace Level

open CodeAtlas.Syntax.Parser

/-! ## Simple statements -/

/-- What may stand where a statement starts. -/
def statementStart : Expectation := { dedent := true, quote := true }

def assignmentOperators : List String :=
  ["+=", "-=", "*=", "/=", "@=", "//=", "%=", "**=", ">>=", "<<=", "&=", "^=", "|="]

/-- One side of an assignment: its calls, and whether it can be assigned to. -/
def assignmentSide (lower : Thunk Level) (opening : Expectation) : Parser (List Call × Bool) :=
  let setting := Setting.lineEnd.openedBy opening
  onNext opening fun
    | .word "yield" => .take do pure (← lower.get.yielded .lineEnd, false)
    | _ =>
        .leave do
          let operands ← lower.get.expressions setting
          pure (operands.flatMap Operand.calls, operands.all Operand.isTarget)

def isAssignment (lexeme : Lexeme) : Bool :=
  (":" :: "=" :: assignmentOperators).any fun text => lexeme = .symbol text

/-- Two or more targets up to what assigns to them. Behind the first comma, lines may end anywhere.
-/
def targetList (lower : Thunk Level) (opening : Expectation) : Parser (List Call × Bool) := do
  let first ← lower.get.target (Setting.lineEnd.openedBy opening)
  symbol "," Setting.lineEnd.behind
  let rest ← onNext { quote := true } fun lexeme =>
    if startsPrimary lexeme then .leave (separated .inside (some startsPrimary) lower.get.target)
    else .leave (pure [])
  onNext {} fun lexeme => .leave (require (isAssignment lexeme))
  skipGap {}
  pure ((first :: rest).flatMap Operand.calls, true)

/-- Expressions, assigned to one another or not. -/
def expressionStatement (lower : Thunk Level) (opening : Expectation) : Parser (List Call) := do
  let first ← targetList lower opening <|> assignmentSide lower opening
  let assigned (calls : List Call) : Parser ((List Call × Bool) ⊕ List Call) := do
    let (right, isTarget) ← assignmentSide lower { quote := true }
    again (calls ++ right, isTarget)
  loop first fun (calls, isTarget) =>
    onNext Setting.lineEnd.behind fun
      | .symbol text =>
          if !isTarget then .leave (done calls)
          else if text = "=" || assignmentOperators.contains text then .take (assigned calls)
          else if text = ":" then
            .take do
              let type ← lower.get.annotation true .lineEnd
              onNext Setting.lineEnd.behind fun
                | .symbol "=" => .take (assigned (calls ++ type))
                | _ => .leave (done (calls ++ type))
          else .leave (done calls)
      | _ => .leave (done calls)

/-- Succeeds where a simple statement may end. -/
def statementEnd : Parser Unit :=
  onNext Setting.lineEnd.behind fun
    | .layout .newline => .leave (pure ())
    | .symbol ";" => .leave (pure ())
    | _ => .leave fail

def complete {α : Type} (statement : Parser α) : Parser α := do
  let value ← statement
  statementEnd
  pure value

def callsOfAll (operands : List Operand) : List Call := operands.flatMap Operand.calls

/-- Expressions on a line that may be left out. -/
def expressions? (lower : Thunk Level) : Parser (List Call) :=
  onNext Setting.lineEnd.orEnd fun lexeme =>
    if startsExpression lexeme then
      .leave do pure (callsOfAll (← lower.get.expressions
        (Setting.lineEnd.openedBy Setting.lineEnd.orEnd)))
    else .leave (pure [])

/-- The printing statement, behind its word or its word and arrow. -/
def printed (lower : Thunk Level) (setting : Setting) : Parser (List Call) := do
  pure (callsOfAll (← separated setting (some startsExpression) lower.get.whole))

/-- The statement `print`, with or without an arrow to a file. -/
def printStatement (lower : Thunk Level) (opening : Expectation) : Parser (List Call) := do
  let arrow : Parser Unit := do
    word "print" opening
    symbol ">>" Setting.lineEnd.behind
  if ← succeeds arrow then
    arrow
    printed lower .lineEnd
  else
    complete (expressionStatement lower opening) <|> do
      word "print" opening
      printed lower (Setting.lineEnd.openedBy Setting.lineEnd.orEnd)

/-- The statement `exec` where it is one, behind its word. -/
def executed (lower : Thunk Level) : Parser (List Call) := do
  let code ← onNext Setting.lineEnd.orEnd fun
    | .quote delimiter => .take (stringRest lower delimiter)
    | .word text => if isName text then .take (pure []) else .leave fail
    | _ => .leave fail
  onNext Setting.lineEnd.behind fun
    | .word "in" => .take do
        let scopes ← separated .lineEnd none lower.get.whole
        pure (code ++ callsOfAll scopes)
    | _ => .leave (pure code)

def execStatement (lower : Thunk Level) (opening : Expectation) : Parser (List Call) := do
  let isStatement ← succeeds do
    word "exec" opening
    onNext Setting.lineEnd.orEnd fun
      | .quote _ => .leave (pure ())
      | .word text => .leave (require (isName text))
      | _ => .leave fail
  if isStatement then
    word "exec" opening
    executed lower
  else expressionStatement lower opening

def typeAlias (lower : Thunk Level) (opening : Expectation) : Parser (List Call) := do
  word "type" opening
  let declared ← lower.get.annotation true (Setting.inside.openedBy Setting.lineEnd.orEnd)
  symbol "="
  let value ← lower.get.annotation true .lineEnd
  pure (declared ++ value)

def raised (lower : Thunk Level) : Parser (List Call) := do
  let raised ← expressions? lower
  onNext Setting.lineEnd.behind fun
    | .word "from" => .take do pure (raised ++ (← lower.get.callsIn .lineEnd))
    | _ => .leave (pure raised)

def simpleStatement (lower : Thunk Level) (opening : Expectation) : Parser Forest :=
  let calls (parser : Parser (List Call)) : Parser Forest := do
    pure (Forest.ofCalls (← parser))
  let names : Parser Forest := do
    let _ ← separated .lineEnd none fun setting => name setting.opening
    pure []
  onNext opening fun
    | .word "import" => .take Import.modulesStatement
    | .word "from" => .take Import.membersStatement
    | .word "assert" => .take (calls do
        pure (callsOfAll (← separated .lineEnd none lower.get.whole)))
    | .word "return" => .take (calls (expressions? lower))
    | .word "del" => .take (calls do pure (callsOfAll (← lower.get.expressions .lineEnd)))
    | .word "raise" => .take (calls (raised lower))
    | .word "pass" => .take (pure [])
    | .word "break" => .take (pure [])
    | .word "continue" => .take (pure [])
    | .word "global" => .take names
    | .word "nonlocal" => .take names
    | .word "print" => .leave (calls (printStatement lower opening))
    | .word "exec" => .leave (calls (execStatement lower opening))
    | .word "type" => .leave (calls
        (complete (typeAlias lower opening) <|> expressionStatement lower opening))
    | _ => .leave (calls (expressionStatement lower opening))

/-- The simple statements of a line, with its end. -/
def simpleStatements (lower : Thunk Level) (opening : Expectation) : Parser Forest :=
  let behind := Setting.lineEnd.orEnd
  loop (([] : Forest), opening) fun (read, opening) => do
    let statement ← simpleStatement lower opening
    let read := read ++ statement
    onNext Setting.lineEnd.behind fun
      | .layout .newline => .take (done read)
      | .symbol ";" =>
          .take <| onNext behind fun
            | .layout .newline => .take (done read)
            | _ => .leave (again (read, behind))
      | _ => .leave fail

/-! ## Compound statements -/

def suite (lower : Thunk Level) : Parser Forest :=
  let opening : Expectation := { newline := true, indent := true, quote := true }
  onNext opening fun
    | .layout (.indent _) => .take lower.get.block
    | .layout .newline => .take (pure [])
    | _ => .leave (simpleStatements lower opening)

def body (lower : Thunk Level) : Parser Forest := do
  symbol ":"
  suite lower

def conditioned (lower : Thunk Level) : Parser Forest := do
  let condition ← lower.get.callsIn .inside
  let body ← body lower
  pure (Forest.ofCalls condition ++ body)

/-- The clause of a given word where it stands next. -/
def clause? (text : String) (rest : Parser Forest) : Parser Forest :=
  onNext statementStart fun lexeme =>
    if lexeme = .word text then .take rest else .leave (pure [])

def clauses (text : String) (rest : Parser Forest) : Parser Forest :=
  loop ([] : Forest) fun read =>
    onNext statementStart fun lexeme =>
      if lexeme = .word text then .take do again (read ++ (← rest)) else .leave (done read)

def ifRest (lower : Thunk Level) : Parser Forest := do
  let first ← conditioned lower
  let others ← clauses "elif" (conditioned lower)
  let last ← clause? "else" (body lower)
  pure (first ++ others ++ last)

def whileRest (lower : Thunk Level) : Parser Forest := do
  let first ← conditioned lower
  let last ← clause? "else" (body lower)
  pure (first ++ last)

def forRest (lower : Thunk Level) : Parser Forest := do
  let targets ← separated .inside (some startsPrimary) lower.get.target
  word "in"
  let sources ← lower.get.expressions .inside
  let first ← body lower
  let last ← clause? "else" (body lower)
  pure (Forest.ofCalls (callsOfAll (targets ++ sources)) ++ first ++ last)

/-- What a handler is for, where it is given: an exception, and a name for it. -/
def caught (lower : Thunk Level) : Parser (List Call) :=
  onNext { quote := true } fun lexeme =>
    if startsExpression lexeme then
      .leave do
        let caught ← lower.get.callsIn .inside
        onNext {} fun
          | .symbol "," => .take do pure (caught ++ (← lower.get.callsIn .inside))
          | _ => .leave (pure caught)
    else .leave (pure [])

/-- A handler behind its word, which a star may follow. -/
def handler (lower : Thunk Level) : Parser Forest := do
  let _ ← star { quote := true }
  let caught ← caught lower
  let body ← body lower
  pure (Forest.ofCalls caught ++ body)

def tryRest (lower : Thunk Level) : Parser Forest := do
  let first ← body lower
  let handlers ← clauses "except" (handler lower)
  let otherwise ← clause? "else" (body lower)
  let last ← clause? "finally" (body lower)
  pure (first ++ handlers ++ otherwise ++ last)

def withRest (lower : Thunk Level) : Parser Forest := do
  let items ← lower.get.expressions .inside
  let body ← body lower
  pure (Forest.ofCalls (callsOfAll items) ++ body)

/-- The condition of a case, where there is one. -/
def guard? (lower : Thunk Level) : Parser (List Call) :=
  onNext {} fun
    | .word "if" => .take (lower.get.callsIn .inside)
    | _ => .leave (pure [])

def case (lower : Thunk Level) : Parser Forest := do
  let patterns ← separated .inside (some startsPattern) (lower.get.casePattern true)
  let condition ← guard? lower
  let body ← body lower
  pure (Forest.ofCalls (patterns.flatten ++ condition) ++ body)

def cases (lower : Thunk Level) : Parser Forest :=
  loop ([] : Forest) fun read =>
    onNext { dedent := true } fun
      | .layout .dedent => .take (done read)
      | .word "case" => .take do again (read ++ (← case lower))
      | _ => .leave fail

def matchStatement (lower : Thunk Level) (opening : Expectation) : Parser Forest := do
  word "match" opening
  let subjects ← separated (Setting.inside.openedBy Setting.lineEnd.orEnd) (some startsExpression)
    lower.get.whole
  symbol ":"
  let cases ← onNext { newline := true, indent := true } fun
    | .layout (.indent _) => .take (cases lower)
    | .layout .newline => .take (pure [])
    | _ => .leave fail
  pure (Forest.ofCalls (callsOfAll subjects) ++ cases)

/-! ## Definitions -/

/-- A definition from a start to the present place, with what it holds. -/
def defined (kind : Definition.Kind) (name : String) (heading : Option Heading) (start : Cursor)
    (held : Forest) : Parser Forest := do
  let stop ← here
  pure [.definition ⟨kind, name, start.toPosition, stop.toPosition⟩ heading held]

def functionRest (lower : Thunk Level) (start : Cursor) : Parser Forest := do
  let functionName ← name
  let types ← typeParameters lower
  symbol "("
  let parameters ← parameters lower true .bracketed
  symbol ")" Setting.bracketed.behind
  let result (constrained : Bool) : Parser Forest := do
    let type ← lower.get.annotation constrained .inside
    let body ← body lower
    pure (Forest.ofCalls type ++ body)
  let rest ← onNext {} fun
    | .symbol "->" => .take (result false <|> result true)
    | _ => .leave (body lower)
  defined .function functionName none start (Forest.ofCalls (types ++ parameters) ++ rest)

/-- What a class is derived from, where anything is given. -/
def superclasses (lower : Thunk Level) : Parser (List Operand) :=
  behindOpening "(" (arguments lower false)

/-- The heading of a class behind its first word: the name, the calls in its type parameters and its
bases. -/
def headingRest (lower : Thunk Level) : Parser (String × List Call × List Operand) := do
  let className ← name
  let types ← typeParameters lower
  let bases ← superclasses lower
  pure (className, types, bases)

def classRest (lower : Thunk Level) (start : Cursor) : Parser Forest := do
  let (className, types, bases) ← headingRest lower
  let behind ← here
  let body ← body lower
  let heading : Heading := ⟨start.textTo behind.offset, bases.map Operand.referent⟩
  defined .type className (some heading) start
    (Forest.ofCalls (types ++ callsOfAll bases) ++ body)

def definition (lower : Thunk Level) (opening : Expectation) : Parser Forest := do
  let start ← mark opening
  onNext opening fun
    | .word "class" => .take (classRest lower start)
    | .word "def" => .take (functionRest lower start)
    | .word "async" => .take do
        word "def" { newline := true }
        functionRest lower start
    | _ => .leave fail

/-- Decorators and the definition under them. -/
def decorated (lower : Thunk Level) (opening : Expectation) : Parser Forest :=
  loop (([] : Forest), opening) fun (read, opening) =>
    onNext opening fun
      | .symbol "@" => .take do
          let calls ← lower.get.callsIn .lineEnd
          exactly Setting.lineEnd.behind (.layout .newline)
          again (read ++ Forest.ofCalls calls, {})
      | _ => .leave do done (read ++ (← definition lower opening))

/-- A statement that begins with `async`, which is a name before anything but a compound statement.
-/
def asyncStatement (lower : Thunk Level) (opening : Expectation) : Parser Forest := do
  let before (text : String) : Parser Unit := do
    word "async" opening
    word text { newline := true }
  if ← succeeds (before "def") then definition lower opening
  else if ← succeeds (before "for") then
    before "for"
    forRest lower
  else if ← succeeds (before "with") then
    before "with"
    withRest lower
  else simpleStatements lower opening

def statement (lower : Thunk Level) (opening : Expectation) : Parser Forest :=
  onNext opening fun
    | .word "if" => .take (ifRest lower)
    | .word "while" => .take (whileRest lower)
    | .word "for" => .take (forRest lower)
    | .word "try" => .take (tryRest lower)
    | .word "with" => .take (withRest lower)
    | .word "class" => .leave (definition lower opening)
    | .word "def" => .leave (definition lower opening)
    | .symbol "@" => .leave (decorated lower opening)
    | .word "async" => .leave (asyncStatement lower opening)
    | .word "match" =>
        .leave (matchStatement lower opening <|> simpleStatements lower opening)
    | _ => .leave (simpleStatements lower opening)

def statementsTo (lower : Thunk Level) (last : Lexeme) : Parser Forest :=
  loop ([] : Forest) fun read =>
    onNext statementStart fun lexeme =>
      if lexeme = last then .take (done read)
      else .leave do again (read ++ (← statement lower statementStart))

end Level

end CodeAtlas.Syntax
