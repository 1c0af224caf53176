import CodeAtlas.Syntax.Expression

/-!
# Types

A type is an expression, or a name with types in brackets, or several types joined. A name with
types in brackets takes no further brackets.
-/

namespace CodeAtlas.Syntax

namespace Level

open CodeAtlas.Syntax.Parser

/-- Names that stand for themselves even before an opening bracket. -/
def plainNames : List String := ["print", "exec", "async", "await", "match"]

/-- Types in brackets, behind the opening one. -/
def typeArguments (lower : Thunk Level) : Parser (List Call) := do
  let types ← separated .bracketed (some startsExpression) (lower.get.annotation true)
  symbol "]" Setting.bracketed.behind
  pure types.flatten

/-- The type parameters of a definition, where there are any. -/
def typeParameters (lower : Thunk Level) : Parser (List Call) :=
  behindOpening "[" (typeArguments lower)

/-- What joins a starred name to other types. -/
def joinsTypes : Lexeme → Bool
  | .symbol text => ["|", ".", ":"].contains text
  | _ => false

/-- A name under one star that other types may be joined to. -/
def isStarredName (front : Front) : Bool :=
  front.stars = 1 && front.base.name?.any fun text => text ≠ "type" && !plainNames.contains text

/-- The rest of a type whose front is read. A name with types in brackets is no expression, nor is a
starred one where what joins types follows. -/
def typeBehind (lower : Thunk Level) (setting : Setting) (front : Front) : Parser (List Call) :=
  onNext setting.behind fun lexeme =>
    if lexeme = .symbol "[" && front.stars = 0 then .take (typeArguments lower)
    else if joinsTypes lexeme && isStarredName front then .leave (pure [])
    else
      .leave do
        let operand ← expressionBehind lower setting front.chain
        pure operand.calls

/-- A type that begins with a name or a star. -/
def namedType (lower : Thunk Level) (setting : Setting) : Parser (List Call) := do
  let front ← front lower setting
  typeBehind lower setting front

/-- An expression that begins with a double star, behind it. -/
def doubleStarredExpression (lower : Thunk Level) (setting : Setting) : Parser (List Call) := do
  let ((base, stars), text) ← consumed (starredAtom lower setting 2)
  let operand ← expressionBehind lower setting (Front.chain ⟨base, stars, "**" ++ text⟩)
  pure operand.calls

/-- A type behind a double star, mostly a name. -/
def doubleStarred (lower : Thunk Level) (setting : Setting) : Parser (List Call) :=
  onNext setting.later.opening fun
    | .word text =>
        if isName text then .take (pure []) else .leave (doubleStarredExpression lower setting)
    | _ => .leave (doubleStarredExpression lower setting)

/-- A type without operators between types. -/
def simpleType (lower : Thunk Level) (setting : Setting) : Parser (List Call) :=
  onNext setting.opening fun
    | .symbol "*" => .leave (namedType lower setting)
    | .symbol "**" => .take (doubleStarred lower setting)
    | .word text =>
        if isName text && !plainNames.contains text then .leave (namedType lower setting)
        else .leave (lower.get.callsIn setting)
    | _ => .leave (lower.get.callsIn setting)

def annotationRest (lower : Thunk Level) (constrained : Bool) (setting : Setting) :
    Parser (List Call) := do
  let first ← simpleType lower setting
  loop first fun calls =>
    onNext setting.behind fun
      | .symbol "|" => .take do again (calls ++ (← simpleType lower setting.later))
      | .symbol "." => .take do
          let _ ← name
          again calls
      | .symbol ":" =>
          if constrained then .take do again (calls ++ (← simpleType lower setting.later))
          else .leave (done calls)
      | _ => .leave (done calls)

end Level

end CodeAtlas.Syntax
