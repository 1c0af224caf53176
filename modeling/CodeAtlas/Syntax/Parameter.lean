import CodeAtlas.Syntax.Level

/-!
# Parameters

Parameter lists of functions and of anonymous functions, which differ in what closes them and in
whether types may be given. Parameters come in any order.
-/

namespace CodeAtlas.Syntax

namespace Level

open CodeAtlas.Syntax.Parser

def startsParameter : Lexeme → Bool
  | .word text => isName text
  | .symbol text => ["*", "**", "/", "("].contains text
  | _ => false

/-- The default of a parameter, where there is one. -/
def default? (lower : Thunk Level) (setting : Setting) : Parser (List Call) :=
  onNext setting.behind fun
    | .symbol "=" => .take (lower.get.callsIn setting.later)
    | _ => .leave (pure [])

/-- The type of a parameter, where there is one. -/
def type? (lower : Thunk Level) (typed : Bool) (setting : Setting) : Parser (List Call) :=
  onNext setting.behind fun lexeme =>
    if typed && lexeme = .symbol ":" then .take (lower.get.annotation true setting.later)
    else .leave (pure [])

def starred (lower : Thunk Level) (setting : Setting) : Parser (List Call) := do
  let operand ← lower.get.whole setting
  require (operand.shape = .place)
  pure operand.calls

def parameter (lower : Thunk Level) (typed : Bool) (setting : Setting) : Parser (List Call) :=
  onNext setting.opening fun
    | .symbol "/" => .take (pure [])
    | .symbol "*" =>
        .take <| onNext setting.orEnd fun lexeme =>
          if startsPrimary lexeme then
            .leave do
              let target ← starred lower (setting.openedBy setting.orEnd)
              let type ← type? lower typed setting
              pure (target ++ type)
          else .leave (pure [])
    | .symbol "**" =>
        .take do
          let target ← starred lower setting.later
          let type ← type? lower typed setting
          pure (target ++ type)
    | .symbol "(" =>
        .leave do
          let operand ← lower.get.whole setting
          require (operand.shape = .pattern)
          let value ← default? lower setting
          pure (operand.calls ++ value)
    | _ =>
        .leave do
          let _ ← name setting.opening
          let type ← type? lower typed setting
          let value ← default? lower setting
          pure (type ++ value)

/-- Parameters up to their closing symbol, which is left. -/
def parameters (lower : Thunk Level) (typed : Bool) (setting : Setting) : Parser (List Call) :=
  onNext setting.behind fun lexeme =>
    if startsParameter lexeme then
      .leave do
        let calls ← separated (setting.openedBy setting.behind) (some startsParameter)
          (parameter lower typed)
        pure calls.flatten
    else .leave (pure [])

end Level

end CodeAtlas.Syntax
