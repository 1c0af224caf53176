import CodeAtlas.Resolution
import CodeAtlas.Extraction.References

/-!
# Import bindings

The imports of a file, followed to the files they lead to. An import of another file of the tree is
a dependency, and binds the names it introduces to that file; the first binding of a name counts.
-/

namespace CodeAtlas.Extraction

/-- Names with the files they are bound to, in the order of binding. -/
abbrev Bindings := List (String × String)

namespace Bindings

def target? (bindings : Bindings) (name : String) : Option String := bindings.lookup name

/-- The file a symbol comes from: its name is bound, or else its qualifier is, as it stands. -/
def lookup (bindings : Bindings) (symbol : Symbol) : Option String :=
  bindings.target? symbol.name <|> symbol.qualifier.bind bindings.target?

end Bindings

/-- An import that was followed: the other file of the tree it leads to, with the names bound to it.
-/
structure Link where
  target : String
  names : List String
deriving DecidableEq, Repr

/-- A link to a file that is not the importing one. -/
def linkTo (file : String) (names : List String) (target : Option String) : Option Link :=
  (target.filter (· ≠ file)).map fun target => ⟨target, names⟩

/-- The links of one import. A name imported from a bare package is a module of that package if
there is one, and else comes from the package itself. -/
def linksOf (tree : SourceTree) (file : String) : Syntax.Import → List Link
  | .modules names =>
      names.filterMap fun name => linkTo file [name.bound] (tree.resolve? name.text)
  | .members level (some module) names =>
      let target :=
        if level = 0 then tree.resolve? module
        else tree.resolveRelative? file level (some module)
      (linkTo file (names.map Syntax.ImportedName.bound) target).toList
  | .members level none names =>
      let package := tree.resolveRelative? file level none
      names.filterMap fun name =>
        linkTo file [name.bound] (tree.resolveRelative? file level (some name.text) <|> package)

def links (tree : SourceTree) (file : String) (outline : Syntax.Outline) : List Link :=
  outline.imports.flatMap (linksOf tree file)

def bindingsOf (links : List Link) : Bindings :=
  links.flatMap fun link => link.names.map fun name => (name, link.target)

end CodeAtlas.Extraction
