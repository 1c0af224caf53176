import CodeAtlas.Syntax.Outline

/-!
# References

What the classes and calls of a file refer to. Of a class it is what each base names, of a call what
its callee names; a base or callee that is no name, no attribute and no subscript of one refers to
nothing.
-/

namespace CodeAtlas

namespace Extraction

/-- A name that code refers to, with the text in front of its last point. -/
structure Symbol where
  name : String
  qualifier : Option String
deriving DecidableEq, Repr

/-- The symbol an expression refers to. Subscripts are left off. -/
def Symbol.ofReferent? : Syntax.Referent → Option Symbol
  | .name text => some ⟨text, none⟩
  | .attribute object member => some ⟨member, some object⟩
  | .subscript value => ofReferent? value
  | .other => none

inductive Reference where
  | base (className : String) (symbol : Symbol)
  | call (symbol : Symbol)
deriving DecidableEq, Repr

/-- What a node refers to. -/
def referencesOf : Syntax.Node → List Reference
  | .definition value (some heading) =>
      (heading.bases.filterMap Symbol.ofReferent?).map (.base value.name)
  | .call _ callee => ((Symbol.ofReferent? callee).map .call).toList
  | _ => []

end Extraction

/-- What the nodes of an outline refer to, in order. -/
def Syntax.Outline.references (outline : Outline) : List Extraction.Reference :=
  outline.flatMap Extraction.referencesOf

end CodeAtlas
