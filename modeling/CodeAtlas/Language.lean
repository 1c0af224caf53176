import CodeAtlas.Path

/-!
# Languages

The languages whose sources are read: their names, the extensions of their files, and the file that
makes a directory a package.
-/

namespace CodeAtlas

structure Language where
  name : String
  extensions : List String
  packageFile : String
deriving DecidableEq, Repr

namespace Language

def python : Language := ⟨"python", ["py"], "__init__.py"⟩

def all : List Language := [python]

def ofExtension? (extension : String) : Option Language :=
  all.find? fun language => language.extensions.contains extension

def ofName? (name : String) : Option Language := all.find? fun language => language.name = name

/-- The extension that a module's file has. -/
def moduleExtension (language : Language) : String := language.extensions.headD ""

/-- A path names a source of the language. -/
def isSource (language : Language) (path : String) : Bool :=
  (Path.extension? path).any language.extensions.contains

end Language

end CodeAtlas
