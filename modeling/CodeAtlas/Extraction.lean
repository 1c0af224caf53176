import CodeAtlas.Extraction.Bindings
import CodeAtlas.Graph.EdgeList
import CodeAtlas.Syntax.Source
import CodeAtlas.Text.Uppercase

/-!
# Extraction

The edges that leave a file: one for each file it imports, one for each bound symbol that a class is
derived from, and one for each bound symbol whose call makes an object. All imports are followed
before any symbol is looked up, so the place of an import does not matter.
-/

namespace CodeAtlas

/-- Tells from the name of a callee whether the call makes an object. -/
abbrev Convention := String → Bool

/-- A callee with a capital letter in front makes an object. -/
def Convention.capitalized : Convention := fun name => name.toList.head?.any Text.isUppercase

namespace Extraction

open CodeAtlas.Graph

/-- The edge of a class base or a call, where its symbol is bound. -/
def referenceEdge? (convention : Convention) (file : String) (bindings : Bindings) :
    Reference → Option Edge
  | .base className symbol =>
      (bindings.lookup symbol).map fun target =>
        ⟨file, target, .inherits, some s!"{className} inherits {symbol.name}"⟩
  | .call symbol =>
      if convention symbol.name then
        (bindings.lookup symbol).map fun target =>
          ⟨file, target, .instantiates, some s!"calls {symbol.name}()"⟩
      else none

/-- All edges of an outline, with repetitions. -/
def edgesOf (tree : SourceTree) (convention : Convention) (file : String)
    (outline : Syntax.Outline) : List Edge :=
  let links := links tree file outline
  (links.map fun link => ⟨file, link.target, .imports, none⟩) ++
    outline.references.filterMap (referenceEdge? convention file (bindingsOf links))

def textOf (file : String) (content : Content) : Result String :=
  match content.decode with
  | .ok text => .ok text
  | .error fault => .error (.parse file s!"not UTF-8: {fault.message}")

/-- The edges of a file with a given content, none of them twice. -/
def ofContent (tree : SourceTree) (convention : Convention) (file : String) (content : Content) :
    Result (List Edge) := do
  match Syntax.Outline.ofText? (← textOf file content) with
  | some outline => return Edge.dedup (edgesOf tree convention file outline)
  | none => throw (.parse file "syntax error")

end Extraction

namespace SourceTree

def read (tree : SourceTree) (file : String) : Result Content :=
  (tree.files.read (Path.join tree.root file)).mapError .system

def extract (tree : SourceTree) (convention : Convention) (file : String) :
    Result (List Graph.Edge) := do
  Extraction.ofContent tree convention file (← tree.read file)

end SourceTree

end CodeAtlas
