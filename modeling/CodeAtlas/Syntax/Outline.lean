import CodeAtlas.Syntax.Cursor

/-!
# Syntax trees

Of the tree of a source those nodes are kept that somebody looks at: imports, calls, and definitions
with what they hold. A call keeps its text and what its callee is, a class the text of its heading
and what its bases are. The outline of a source is its nodes in document order: a definition comes
before what it holds, and a call before the calls in its callee and arguments.
-/

namespace CodeAtlas.Syntax

structure ImportedName where
  text : String
  alternative : Option String
deriving DecidableEq, Repr

/-- The name an import introduces. -/
def ImportedName.bound (imported : ImportedName) : String :=
  imported.alternative.getD imported.text

inductive Import where
  /-- Whole modules. -/
  | modules (names : List ImportedName)
  /-- Names out of a module, which is relative to the file's package at a level above zero. No names
  stand for all names. -/
  | members (level : Nat) (module : Option String) (names : List ImportedName)
deriving DecidableEq, Repr

/-- What an expression is, as far as it can name something. -/
inductive Referent where
  | name (text : String)
  | attribute (object member : String)
  | subscript (value : Referent)
  | other
deriving DecidableEq, Repr, Inhabited

namespace Definition

inductive Kind where
  | function
  | type
deriving DecidableEq, Repr

end Definition

structure Definition where
  kind : Definition.Kind
  name : String
  start : Position
  stop : Position
deriving DecidableEq, Repr

/-- The heading of a definition, up to what closes the bases of a class. Functions keep none. -/
structure Heading where
  text : String
  bases : List Referent
deriving DecidableEq, Repr

inductive Node where
  | imports (value : Import)
  | call (text : String) (callee : Referent)
  | definition (value : Definition) (heading : Option Heading)
deriving DecidableEq, Repr

/-! ## Trees -/

/-- A call with the calls in its callee and its arguments. -/
inductive Call where
  | of (text : String) (callee : Referent) (inner : List Call)

inductive Tree where
  | imports (value : Import)
  | call (value : Call)
  | definition (value : Definition) (heading : Option Heading) (held : List Tree)

abbrev Forest := List Tree

namespace Forest

/-- The forest of code that only calls. -/
def ofCalls (calls : List Call) : Forest := calls.map .call

end Forest

/-! Trees are nested in lists, so their equality is decided together with that of lists. -/

mutual

def Call.decideEq : (first second : Call) → Decidable (first = second)
  | .of text callee inner, .of text' callee' inner' =>
      have := decideEqCalls inner inner'
      decidable_of_iff (text = text' ∧ callee = callee' ∧ inner = inner') (by simp)

def decideEqCalls : (first second : List Call) → Decidable (first = second)
  | [], [] => isTrue rfl
  | [], _ :: _ => isFalse (by simp)
  | _ :: _, [] => isFalse (by simp)
  | first :: rest, second :: others =>
      have := first.decideEq second
      have := decideEqCalls rest others
      decidable_of_iff (first = second ∧ rest = others) (by simp)

end

instance : DecidableEq Call := Call.decideEq

mutual

def Tree.decideEq : (first second : Tree) → Decidable (first = second)
  | .imports value, .imports value' => decidable_of_iff (value = value') (by simp)
  | .call value, .call value' => decidable_of_iff (value = value') (by simp)
  | .definition value heading held, .definition value' heading' held' =>
      have := decideEqTrees held held'
      decidable_of_iff (value = value' ∧ heading = heading' ∧ held = held') (by simp)
  | .imports _, .call _ => isFalse (by simp)
  | .imports _, .definition .. => isFalse (by simp)
  | .call _, .imports _ => isFalse (by simp)
  | .call _, .definition .. => isFalse (by simp)
  | .definition .., .imports _ => isFalse (by simp)
  | .definition .., .call _ => isFalse (by simp)

def decideEqTrees : (first second : List Tree) → Decidable (first = second)
  | [], [] => isTrue rfl
  | [], _ :: _ => isFalse (by simp)
  | _ :: _, [] => isFalse (by simp)
  | first :: rest, second :: others =>
      have := first.decideEq second
      have := decideEqTrees rest others
      decidable_of_iff (first = second ∧ rest = others) (by simp)

end

instance : DecidableEq Tree := Tree.decideEq

/-! ## Document order -/

abbrev Outline := List Node

mutual

/-- A call before those inside. -/
def Call.preorder : Call → Outline
  | .of text callee inner => .call text callee :: callsPreorder inner

def callsPreorder : List Call → Outline
  | [] => []
  | call :: rest => call.preorder ++ callsPreorder rest

end

mutual

def Tree.preorder : Tree → Outline
  | .imports value => [.imports value]
  | .call value => value.preorder
  | .definition value heading held => .definition value heading :: Forest.preorder held

/-- All nodes of some trees, each before those below it. -/
def Forest.preorder : Forest → Outline
  | [] => []
  | tree :: rest => tree.preorder ++ Forest.preorder rest

end

namespace Outline

def imports (outline : Outline) : List Import :=
  outline.filterMap fun
    | .imports value => some value
    | _ => none

def definitions (outline : Outline) : List Definition :=
  outline.filterMap fun
    | .definition value _ => some value
    | _ => none

end Outline

end CodeAtlas.Syntax
