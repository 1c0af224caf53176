import CodeAtlas.Syntax.Literal
import CodeAtlas.Syntax.Parameter

/-!
# Expressions

Expressions are read in three layers: operands with their attributes, subscripts and calls; the
arithmetic operators and comparisons between them; and the operators that join whole expressions, by
strength. Of each expression only what it can name, the calls in it and its use as a target are kept.
-/

namespace CodeAtlas.Syntax

namespace Level

open CodeAtlas.Syntax.Parser

/-! ## Brackets -/

/-- An element of a collection or an argument. -/
structure Element where
  operand : Operand
  /-- It may be the head of a comprehension. -/
  plain : Bool

def callsOf (elements : List Element) : List Call :=
  elements.flatMap fun element => element.operand.calls

/-- Asks whether a word or a colon follows that makes the element before it a part of something
else; succeeds on the answer that is wanted. -/
def headed (wanted : Bool) : Parser Unit :=
  onNext Setting.bracketed.behind fun lexeme =>
    if [.word "for", .word "async", .symbol ":"].contains lexeme = wanted then .leave (pure ())
    else .leave fail

/-- A starred element, behind its star: the star is over a whole expression. -/
def spread (lower : Thunk Level) : Parser Element := do
  let operand ← lower.get.whole .bracketed
  headed false
  let shape : Shape := if operand.shape = .place then .pattern else .value
  pure { operand := { calls := operand.calls, shape }, plain := false }

def plainElement (lower : Thunk Level) (setting : Setting) : Parser Element := do
  let operand ← lower.get.whole setting
  pure { operand, plain := true }

/-- An element with a star in front. The star is over a whole expression, but in the head of a
comprehension over the operand behind it; the expression ends at the same point then. -/
def starredElement (lower : Thunk Level) (setting : Setting) : Parser Element :=
  (do symbol "*" setting.opening; spread lower) <|>
    alongside
      (do
        symbol "*" setting.opening
        let _ ← lower.get.whole .bracketed
        headed true)
      (plainElement lower setting)

def element (lower : Thunk Level) (setting : Setting) : Parser Element :=
  onNext setting.opening fun
    | .symbol "*" => .leave (starredElement lower setting)
    | .symbol "**" =>
        .leave do
          firstStar setting.opening
          spread lower
    | .word "yield" =>
        .take do
          let calls ← lower.get.yielded .bracketed
          pure { operand := .ofCalls calls, plain := false }
    | _ => .leave (plainElement lower setting)

def startsElement (lexeme : Lexeme) : Bool := lexeme = .word "yield" || startsExpression lexeme

/-- The elements behind the first, each after a comma. -/
def moreElements (starts : Lexeme → Bool) (element : Setting → Parser Element) :
    Parser (List Element) :=
  onNext Setting.bracketed.behind fun
    | .symbol "," =>
        .take <| onNext Setting.bracketed.orEnd fun lexeme =>
          if starts lexeme then
            .leave (separated (Setting.bracketed.openedBy Setting.bracketed.orEnd) (some starts)
              element)
          else .leave (pure [])
    | _ => .leave (pure [])

/-! ## Operands -/

/-- An operand without trailers, and the stars in front of it. -/
structure Front where
  base : Operand
  stars : Nat
  /-- The text of both. -/
  text : String

def Front.ofName (text : String) : Front := { base := .ofName text, stars := 0, text }

/-- An operand under construction. -/
structure Chain where
  operand : Operand
  /-- Number of stars in front that still need an attribute or a subscript to stand on. -/
  stars : Nat
  /-- The text of the operand, with its stars. -/
  text : String

/-- What can follow an operand and make a greater one. -/
inductive Trailer where
  | attribute (member : String)
  | arguments (calls : List Call)
  | subscripts (calls : List Call)

/-- The operand with its stars; a name carries one. -/
def Front.chain (front : Front) : Chain :=
  let { base, stars, text } := front
  match stars with
  | 0 => { operand := base, stars := 0, text }
  | 1 => if base.isName then { operand := { shape := .pattern }, stars := 0, text }
    else { operand := base.inner, stars := 1, text }
  | stars + 2 =>
      { operand := base.inner, stars := if base.isName then stars + 1 else stars + 2, text }

namespace Chain

/-- The chain behind an attribute or a subscript. -/
def place (chain : Chain) (referent : Referent) (calls : List Call) (text : String) : Chain :=
  let calls := chain.operand.calls ++ calls
  match chain.stars with
  | 0 => { operand := { referent, calls, shape := .place }, stars := 0, text }
  | 1 => { operand := { calls, shape := .pattern }, stars := 0, text }
  | stars + 2 => { operand := { calls }, stars := stars + 1, text }

/-- The chain behind the arguments of a call. -/
def call (chain : Chain) (arguments : List Call) (text : String) : Chain :=
  let inner := chain.operand.calls ++ arguments
  { chain with operand := .ofCalls [.of text chain.operand.referent inner], text }

/-- The chain behind a trailer of a given text. -/
def extend (chain : Chain) (trailer : Trailer) (text : String) : Chain :=
  let whole := chain.text ++ text
  match trailer with
  | .attribute member => chain.place (.attribute chain.text member) [] whole
  | .arguments calls => chain.call calls whole
  | .subscripts calls => chain.place (.subscript chain.operand.referent) calls whole

end Chain

/-- An argument without stars. A name directly before an equals sign is a keyword. -/
def plainArgument (lower : Thunk Level) (setting : Setting) : Parser Element := do
  let operand ← lower.get.whole setting
  onNext setting.behind fun lexeme =>
    if lexeme = .symbol "=" && operand.isName then
      .take do
        let calls ← lower.get.callsIn .bracketed
        pure { operand := .ofCalls calls, plain := false }
    else .leave (pure { operand, plain := true })

def argument (lower : Thunk Level) (setting : Setting) : Parser Element :=
  onNext setting.opening fun
    | .symbol "*" => .leave (starredElement lower setting)
    | .symbol "**" =>
        .take do
          let calls ← lower.get.callsIn .bracketed
          pure { operand := .ofCalls calls, plain := false }
    | _ => .leave (plainArgument lower setting)

/-- The targets and the sources of a loop, behind its first word. -/
def iteration (lower : Thunk Level) : Parser (List Call) := do
  let targets ← separated .inside (some startsPrimary) lower.get.target
  word "in"
  let sources ← separated .bracketed (some startsExpression)
    (lower.get.expression .naming true)
  pure ((targets ++ sources).flatMap Operand.calls)

/-- The clauses of a comprehension; the first is a loop. -/
def comprehension (lower : Thunk Level) :
    Parser (List Call) := do
  let behind := Setting.bracketed.behind
  let _ ← optionally behind (.word "async")
  word "for" behind
  let first ← iteration lower
  loop first fun calls =>
    onNext behind fun
      | .word "for" => .take do again (calls ++ (← iteration lower))
      | .word "async" => .take do
          word "for"
          again (calls ++ (← iteration lower))
      | .word "if" => .take do
          let condition ← lower.get.expression .naming false .bracketed
          again (calls ++ condition.calls)
      | _ => .leave (done calls)

def startsArgument (lexeme : Lexeme) : Bool := startsExpression lexeme

/-- Arguments behind their opening parenthesis; a generator may stand alone where it is allowed. -/
def arguments (lower : Thunk Level) (generators : Bool) :
    Parser (List Operand) :=
  let close := symbol ")" Setting.bracketed.behind
  onNext Setting.bracketed.orEnd fun
    | .symbol ")" => .take (pure [])
    | .symbol "," => .take do close; pure []
    | _ =>
        .leave do
          let first ← argument lower (Setting.bracketed.openedBy Setting.bracketed.orEnd)
          let generator ← onNext Setting.bracketed.behind fun lexeme =>
            if [.word "for", .word "async"].contains lexeme && first.plain then
              .leave do
                require generators
                pure (some (← comprehension lower))
            else .leave (pure none)
          match generator with
          | some calls =>
              close
              pure [first.operand, .ofCalls calls]
          | none =>
              let rest ← moreElements startsArgument (argument lower)
              close
              pure ((first :: rest).map Element.operand)

/-- What follows the first colon of a slice. -/
def sliceRest (lower : Thunk Level) : Parser (List Call) := do
  let setting := Setting.bracketed.openedBy Setting.bracketed.orEnd
  let stop ← lower.get.expression? setting
  if ← optionally setting.behind (.symbol ":") then
    let step ← lower.get.expression? setting
    pure (stop ++ step)
  else pure stop

def subscript (lower : Thunk Level) (setting : Setting) : Parser (List Call) :=
  onNext setting.opening fun
    | .symbol ":" => .take (sliceRest lower)
    | _ =>
        .leave do
          let start ← lower.get.callsIn setting
          onNext setting.behind fun
            | .symbol ":" => .take do pure (start ++ (← sliceRest lower))
            | _ => .leave (pure start)

def startsSubscript (lexeme : Lexeme) : Bool := lexeme = .symbol ":" || startsExpression lexeme

/-- Subscripts behind their opening bracket. -/
def subscripts (lower : Thunk Level) : Parser (List Call) := do
  let calls ← separated .bracketed (some startsSubscript) (subscript lower)
  symbol "]" Setting.bracketed.behind
  pure calls.flatten

def trailer? (lower : Thunk Level) (expected : Expectation) : Parser (Option Trailer) :=
  onNext expected fun
    | .symbol "." => .take do pure (some (.attribute (← name)))
    | .symbol "(" =>
        .take do
          let operands ← arguments lower true
          pure (some (.arguments (operands.flatMap Operand.calls)))
    | .symbol "[" => .take do pure (some (.subscripts (← subscripts lower)))
    | _ => .leave (pure none)

/-- The attributes, subscripts and calls behind an operand. -/
def trailers (lower : Thunk Level) (setting : Setting) (chain : Chain) : Parser Chain :=
  loop chain fun chain => do
    let (trailer?, text) ← consumed (trailer? lower (setting.behindStars chain.stars))
    match trailer? with
    | some trailer => again (chain.extend trailer text)
    | none => done chain

/-- Reads the closing bracket of a sequence whose elements decide whether it is a target. -/
def sequence (closer : String) (elements : List Element) : Parser Operand := do
  symbol closer Setting.bracketed.behind
  let shape : Shape :=
    if elements.all fun element => element.operand.isTarget then .pattern else .value
  pure { calls := callsOf elements, shape }

/-- A sequence or a comprehension behind its opening bracket. -/
def collection (lower : Thunk Level) (closer : String) :
    Parser Operand :=
  onNext Setting.bracketed.orEnd fun lexeme =>
    if lexeme = .symbol closer then .take (pure { shape := .pattern })
    else
      .leave do
        let first ← element lower (Setting.bracketed.openedBy Setting.bracketed.orEnd)
        onNext Setting.bracketed.behind fun lexeme =>
          if [.word "for", .word "async"].contains lexeme && first.plain then
            .leave do
              let clauses ← comprehension lower
              symbol closer Setting.bracketed.behind
              pure (.ofCalls (first.operand.calls ++ clauses))
          else
            .leave do
              let rest ← moreElements startsElement (element lower)
              sequence closer (first :: rest)

/-- The entries of a dictionary behind the first, each after a comma. -/
def moreEntries (lower : Thunk Level) : Parser (List Call) :=
  let setting := Setting.bracketed
  loop [] fun calls =>
    onNext setting.behind fun
      | .symbol "," =>
          .take <| onNext setting.orEnd fun
            | .symbol "**" => .take do again (calls ++ (← lower.get.callsIn setting))
            | lexeme =>
                if startsExpression lexeme then
                  .leave do
                    let key ← lower.get.callsIn (Setting.inside.openedBy setting.orEnd)
                    symbol ":"
                    let value ← lower.get.callsIn setting
                    again (calls ++ key ++ value)
                else .leave (done calls)
      | _ => .leave (done calls)

/-- A dictionary, a set or a comprehension of either behind the opening brace. -/
def braces (lower : Thunk Level) : Parser Operand :=
  let setting := Setting.bracketed
  let close := symbol "\x7d" setting.behind
  let entries (first : List Call) : Parser Operand := do
    let rest ← moreEntries lower
    close
    pure (.ofCalls (first ++ rest))
  let clauses (first : List Call) : Parser Operand := do
    let rest ← comprehension lower
    close
    pure (.ofCalls (first ++ rest))
  let startsClause (lexeme : Lexeme) : Bool := [.word "for", .word "async"].contains lexeme
  onNext setting.orEnd fun
    | .symbol "\x7d" => .take (pure {})
    | .symbol "," => .take do close; pure {}
    | .symbol "**" => .take do entries (← lower.get.callsIn setting)
    | _ =>
        .leave do
          let first ← element lower (setting.openedBy setting.orEnd)
          onNext setting.behind fun lexeme =>
            if lexeme = .symbol ":" && first.plain then
              .take do
                let value ← lower.get.callsIn setting
                let pair := first.operand.calls ++ value
                onNext setting.behind fun lexeme =>
                  if startsClause lexeme then .leave (clauses pair) else .leave (entries pair)
            else if startsClause lexeme && first.plain then .leave (clauses first.operand.calls)
            else
              .leave do
                let rest ← moreElements startsElement (element lower)
                close
                pure (.ofCalls (callsOf (first :: rest)))

/-- Before what can be awaited, the word `await` is no name. Two stars are an operator there. -/
def startsAwaited (lexeme : Lexeme) : Bool := startsPrimary lexeme && lexeme ≠ .symbol "**"

/-- How an operand goes on from its first lexeme, with so many stars in front. -/
def atomTurn (lower : Thunk Level) (setting : Setting) (stars : Nat) : Lexeme → Turn Operand
  | .number => .take (pure {})
  | .symbol "..." => .take (pure {})
  | .quote delimiter =>
      .take do pure (.ofCalls (← strings lower delimiter (setting.behindStars stars)))
  | .symbol "(" => .take (collection lower ")")
  | .symbol "[" => .take (collection lower "]")
  | .symbol "\x7b" => .take (braces lower)
  | .word "await" =>
      .take <| onNext { setting.behindStars (stars - 1) with quote := true } fun lexeme =>
        if startsAwaited lexeme then .leave fail else .leave (pure (.ofName "await"))
  | .word text =>
      if isName text then .take (pure (.ofName text))
      else if ["True", "False", "None"].contains text then .take (pure {})
      else .leave fail
  | _ => .leave fail

/-- An operand without its stars, of which so many stand in front, and without trailers. -/
def atom (lower : Thunk Level) (setting : Setting) (stars : Nat) : Parser Operand :=
  onNext setting.opening (atomTurn lower setting stars)

/-- More stars behind so many; gives the number of all. -/
def moreStars (count : Nat) : Parser Nat :=
  loop count fun count =>
    onNext { quote := true } fun
      | .symbol "*" => .take (again (count + 1))
      | .symbol "**" => .take (again (count + 2))
      | _ => .leave (done count)

/-- An operand without trailers, with the number of its stars, of which so many are read. -/
def starredAtom (lower : Thunk Level) (setting : Setting) (count : Nat) :
    Parser (Operand × Nat) := do
  let count ← moreStars count
  let base ← atom lower setting.later count
  pure (base, count)

/-- An operand without trailers, with the number of its stars. -/
def frontParts (lower : Thunk Level) (setting : Setting) : Parser (Operand × Nat) :=
  onNext setting.opening fun
    | .symbol "*" => .take (starredAtom lower setting 1)
    | .symbol "**" => .take (starredAtom lower setting 2)
    | _ => .leave do pure (← atom lower setting 0, 0)

/-- An operand without trailers. Stars in front cover the shortest place behind them. -/
def front (lower : Thunk Level) (setting : Setting) : Parser Front := do
  let ((base, stars), text) ← withText setting.opening (frontParts lower setting)
  pure { base, stars, text }

/-- The rest of an operand. -/
def operandBehind (lower : Thunk Level) (setting : Setting) (chain : Chain) : Parser Operand := do
  let chain ← trailers lower setting chain
  require (chain.stars = 0)
  pure chain.operand

def operand (lower : Thunk Level) (setting : Setting) : Parser Operand := do
  let front ← front lower setting
  operandBehind lower setting front.chain

def targetOperand (lower : Thunk Level) (setting : Setting) : Parser Operand := do
  let operand ← operand lower setting
  require operand.isTarget
  pure operand

/-! ## Operators -/

/-- The last operator in front of an operand, where there is one. -/
inductive Sign where
  | none
  | symbol
  | await
deriving DecidableEq

/-- What may stand behind it. -/
def Sign.opening (setting : Setting) : Sign → Expectation
  | .none => setting.opening
  | .symbol => { quote := true }
  | .await => setting.orEnd

/-- The last operator in front of an operand, and whether the operand is the word `await` that has
been read: it is no operator where nothing follows that can be awaited. -/
def signs (setting : Setting) : Parser (Sign × Bool) :=
  loop Sign.none fun sign =>
    onNext (sign.opening setting) fun
      | .symbol text =>
          if ["-", "+", "~"].contains text then .take (again .symbol)
          else .leave (done (sign, false))
      | .word "await" =>
          .take <| onNext setting.orEnd fun lexeme =>
            if startsAwaited lexeme then .leave (again .await) else .leave (done (sign, true))
      | _ => .leave (done (sign, false))

def signed (lower : Thunk Level) (setting : Setting) : Parser Operand := do
  let (sign, isAwait) ← signs setting
  let operand ←
    if isAwait then operandBehind lower setting (Front.ofName "await").chain
    else operand lower (setting.openedBy (sign.opening setting))
  pure (if sign = .none then operand else operand.inner)

def arithmeticOperators : List String :=
  ["+", "-", "*", "/", "//", "%", "@", "**", "|", "&", "^", "<<", ">>"]

/-- What follows an operand up to the last arithmetic operator, whose strength does not matter here.
-/
def arithmeticBehind (lower : Thunk Level) (setting : Setting) (first : Operand) :
    Parser Operand :=
  loop first fun left =>
    onNext setting.behind fun
      | .symbol text =>
          if arithmeticOperators.contains text then
            .take do again (.combine [left, ← signed lower setting.later])
          else .leave (done left)
      | _ => .leave (done left)

def arithmetic (lower : Thunk Level) (setting : Setting) : Parser Operand := do
  let first ← signed lower setting
  arithmeticBehind lower setting first

def comparisonOperators : List String := ["<", "<=", "==", "!=", ">=", ">", "<>"]

def comparisonBehind (lower : Thunk Level) (setting : Setting) (first : Operand) :
    Parser Operand :=
  let next (left : Operand) : Parser (Operand ⊕ Operand) := do
    again (.combine [left, ← arithmetic lower setting.later])
  loop first fun left =>
    onNext setting.behind fun
      | .symbol text =>
          if comparisonOperators.contains text then .take (next left) else .leave (done left)
      | .word "in" => .take (next left)
      | .word "not" => .take do
          word "in"
          next left
      | .word "is" => .take do
          let _ ← optionally { quote := true } (.word "not")
          next left
      | _ => .leave (done left)

/-- What follows an operand up to an operator that joins whole expressions. A name directly before
the sign that gives it a value is no operand. -/
def leadingBehind (lower : Thunk Level) (setting : Setting) (first : Operand) :
    Parser Operand := do
  let left ← comparisonBehind lower setting (← arithmeticBehind lower setting first)
  onNext setting.behind fun lexeme =>
    if lexeme = .symbol ":=" && left.isName then
      .take do
        let value ← lower.get.expression .naming false setting.later
        pure value.inner
    else .leave (pure left)

/-- An anonymous function, behind its first word. -/
def anonymous (lower : Thunk Level) (inHead : Bool) (setting : Setting) : Parser Operand := do
  let defaults ← parameters lower false .inside
  symbol ":"
  let strength := if inHead then Strength.naming else Strength.conditional
  let body ← lower.get.expression strength inHead setting.later
  pure (.ofCalls (defaults ++ body.calls))

/-- An expression up to the first operator that joins whole expressions. -/
def leading (lower : Thunk Level) (inHead : Bool) (setting : Setting) : Parser Operand :=
  onNext setting.opening fun
    | .word "not" =>
        .take do
          let operand ← lower.get.expression .negation false setting.later
          pure operand.inner
    | .word "lambda" => .take (anonymous lower inHead setting)
    | _ => .leave do leadingBehind lower setting (← signed lower setting)

/-- The operators that join whole expressions, with what stands between them. -/
def joinedBehind (lower : Thunk Level) (strength : Strength) (setting : Setting)
    (first : Operand) : Parser Operand :=
  let join (left : Operand) (strength : Strength) : Parser (Operand ⊕ Operand) := do
    again (.combine [left, ← lower.get.expression strength false setting.later])
  loop first fun left =>
    onNext setting.behind fun
      | .word "and" =>
          if strength ≤ .conjunction then .take (join left .negation) else .leave (done left)
      | .word "or" =>
          if strength ≤ .disjunction then .take (join left .conjunction) else .leave (done left)
      | .word "as" =>
          if strength ≤ .naming then .take (join left .disjunction) else .leave (done left)
      | .word "if" =>
          if strength ≤ .conditional then
            .take do
              let condition ← lower.get.whole .inside
              word "else"
              join (.combine [left, condition]) .conditional
          else .leave (done left)
      | _ => .leave (done left)

/-- An expression whose operators bind at least as tightly as given. -/
def expressionAt (lower : Thunk Level) (strength : Strength) (inHead : Bool) (setting : Setting) :
    Parser Operand := do
  let first ← leading lower inHead setting
  joinedBehind lower strength setting first

/-- The rest of an expression behind its first operand, of which the front is read. -/
def expressionBehind (lower : Thunk Level) (setting : Setting) (chain : Chain) :
    Parser Operand := do
  let first ← operandBehind lower setting chain
  joinedBehind lower .weakest setting (← leadingBehind lower setting first)

end Level

end CodeAtlas.Syntax
