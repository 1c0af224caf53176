import CodeAtlas.Syntax.Cursor

/-!
# Layout

Line ends and indentation are tokens only where the grammar can use them. The reader states what it
can use as an `Expectation`; the blanks ahead are surveyed, and the survey decides whether a line
end, the start of a block or the end of a block comes next. Such tokens have no width.

An indentation is a number without a bound, so a line may be indented as far as it likes.
-/

namespace CodeAtlas.Syntax

/-- The layout-sensitive tokens that may stand at a point. -/
structure Expectation where
  newline : Bool := false
  indent : Bool := false
  dedent : Bool := false
  quote : Bool := false
  closer : Bool := false
deriving Inhabited

namespace Layout

/-- What the blanks ahead of a token hold. -/
structure Survey where
  rest : List Char
  passed : Nat
  /-- A line end, or the end of the text, was passed. -/
  lineEnd : Bool
  /-- Columns before the next token on its line; a tab counts eight. -/
  width : Nat
  /-- Columns before the first comment that stood on a line of its own. -/
  comment : Option Nat

/-- Passes over blanks. Where layout matters, comments on lines of their own are passed over too and
a comment behind other text ends the survey without a result, as does a stray backslash. -/
def surveyFrom (layout : Bool) (passed : Nat) (inComment lineEnd : Bool) (width : Nat)
    (comment : Option Nat) : List Char → Option Survey
  | [] => some ⟨[], passed, true, 0, comment⟩
  | char :: rest =>
      if inComment then
        if char = '\n' then surveyFrom layout (passed + 1) false lineEnd 0 comment rest
        else surveyFrom layout (passed + 1) true lineEnd width comment rest
      else if char = '\n' then surveyFrom layout (passed + 1) false true 0 comment rest
      else if char = ' ' then surveyFrom layout (passed + 1) false lineEnd (width + 1) comment rest
      else if char = '\t' then surveyFrom layout (passed + 1) false lineEnd (width + 8) comment rest
      else if char = '\r' || char = '\x0c' then
        surveyFrom layout (passed + 1) false lineEnd 0 comment rest
      else if char = '#' && layout then
        if lineEnd then
          surveyFrom layout (passed + 1) true lineEnd width (comment <|> some width) rest
        else none
      else if char = '\\' then
        match rest with
        | [] => some ⟨[], passed + 1, true, 0, comment⟩
        | ['\r'] => some ⟨[], passed + 2, true, 0, comment⟩
        | '\n' :: rest => surveyFrom layout (passed + 2) false lineEnd width comment rest
        | '\r' :: '\n' :: rest => surveyFrom layout (passed + 3) false lineEnd width comment rest
        | _ => none
      else some ⟨char :: rest, passed, lineEnd, width, comment⟩

def survey (expected : Expectation) (cursor : Cursor) : Option Survey :=
  surveyFrom (expected.newline || expected.indent || expected.dedent) 0 false false 0 none
    cursor.rest

def startsQuote : List Char → Bool
  | char :: _ => char = '"' || char = '\'' || char = '`'
  | [] => false

/-- A token made of layout alone. -/
inductive Token where
  | newline
  | indent (width : Nat)
  | dedent
deriving DecidableEq, Repr

/-- The layout token a survey gives. A block ends where the next token stands further left, even at
a point that cannot use the end of a block, unless a line end, a string or a closing bracket is
expected there. -/
def Survey.token? (expected : Expectation) (cursor : Cursor) (survey : Survey) : Option Token :=
  if survey.lineEnd then
    let current := cursor.indents.headD 0
    let endsBlock := expected.dedent ||
      (!expected.newline && !(expected.quote && startsQuote survey.rest) && !expected.closer)
    let commentInside := survey.comment.any fun width => current ≤ width
    if expected.indent && decide (current < survey.width) then some (.indent survey.width)
    else if endsBlock && decide (survey.width < current) && !cursor.inFormat && !commentInside then
      some .dedent
    else if expected.newline then some .newline
    else none
  else none

/-- The block structure behind a layout token. -/
def Token.apply (token : Token) (cursor : Cursor) : Cursor :=
  match token with
  | .newline => cursor
  | .indent width => { cursor with indents := width :: cursor.indents }
  | .dedent => { cursor with indents := cursor.indents.tail }

end Layout

end CodeAtlas.Syntax
