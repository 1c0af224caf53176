import CodeAtlas.Syntax.Level

/-!
# Import statements

Dotted names keep the text they are written in, blanks included. The level of a relative import is
the number of points in the text before its module.
-/

namespace CodeAtlas.Syntax

namespace Import

open CodeAtlas.Syntax.Parser

def dottedName (setting : Setting) : Parser String :=
  written setting.opening do
    let _ ← name setting.opening
    loop () fun _ =>
      onNext setting.behind fun
        | .symbol "." => .take do
            let _ ← name
            again ()
        | _ => .leave (done ())

def importedName (setting : Setting) : Parser ImportedName := do
  let text ← dottedName setting
  onNext setting.behind fun
    | .word "as" => .take do pure ⟨text, some (← name)⟩
    | _ => .leave (pure ⟨text, none⟩)

def startsName : Lexeme → Bool
  | .word text => isName text
  | _ => false

def importedNames (setting : Setting) : Parser (List ImportedName) :=
  separated (setting.openedBy {}) (some startsName) importedName

def nameList : Parser (List ImportedName) :=
  onNext {} fun
    | .symbol "(" => .take do
        let names ← importedNames .bracketed
        symbol ")" Setting.bracketed.behind
        pure names
    | _ => .leave (importedNames .lineEnd)

/-- What is imported from a module: all names or those listed. -/
def membersOf (level : Nat) (module : Option String) : Parser Forest :=
  onNext {} fun
    | .symbol "*" => .take (pure [.imports (.members level module [])])
    | _ => .leave do pure [.imports (.members level module (← nameList))]

/-- The points of a relative import as they are written. -/
def points : Parser String :=
  written {} do
    loop () fun _ =>
      onNext {} fun
        | .symbol "." => .take (again ())
        | .symbol "..." => .take (again ())
        | _ => .leave (done ())

/-- A statement behind the word `import`. -/
def modulesStatement : Parser Forest := do
  let names ← importedNames .lineEnd
  pure [.imports (.modules names)]

/-- A statement behind the word `from`. One from `__future__` is an instruction to the language and
names no module. -/
def membersStatement : Parser Forest :=
  onNext {} fun
    | .word "__future__" =>
        .take do
          word "import"
          let _ ← nameList
          pure []
    | .word _ =>
        .leave do
          let module ← dottedName (Setting.inside.openedBy {})
          word "import"
          membersOf 0 (some module)
    | _ =>
        .leave do
          let points ← points
          let level := points.toList.count '.'
          require (level ≠ 0)
          let module ← onNext {} fun lexeme =>
            if startsName lexeme then
              .leave do pure (some (← dottedName (Setting.inside.openedBy {})))
            else .leave (pure none)
          word "import"
          membersOf level module

end Import

end CodeAtlas.Syntax
