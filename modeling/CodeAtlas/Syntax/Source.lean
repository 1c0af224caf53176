import CodeAtlas.Syntax.Statement

/-!
# Sources

A source is read as statements to its end. The depth of nesting is bounded by the length of the
text, so a level for each character suffices.
-/

namespace CodeAtlas.Syntax

namespace Level

/-- The parsers of a level, given those below. -/
def above (lower : Thunk Level) : Level where
  expression := expressionAt lower
  target := targetOperand lower
  replacement := replacementRest lower
  annotation := annotationRest lower
  casePattern := casePatternRest lower
  block := statementsTo lower (.layout .dedent)

def ofDepth : Nat → Level
  | 0 => bottom
  | depth + 1 => above ⟨fun _ => ofDepth depth⟩

end Level

/-- The syntax trees of a source, or nothing where the text is no source. -/
def Forest.ofText? (text : String) : Option Forest :=
  let cursor := Cursor.ofText text
  if cursor.rest.contains '\x00' then none
  else
    let level : Thunk Level := ⟨fun _ => Level.ofDepth (cursor.extent + 8)⟩
    ((Level.statementsTo level .finish).run cursor).map Prod.fst

/-- The outline of a source, or nothing where the text is no source. -/
def Outline.ofText? (text : String) : Option Outline := (Forest.ofText? text).map Forest.preorder

end CodeAtlas.Syntax
