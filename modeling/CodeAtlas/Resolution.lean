import CodeAtlas.FileTree
import CodeAtlas.Language

/-!
# Module resolution

A module reference names a file of the source tree by its segments: the module's own file, or else
the package file of the directory with that name. A relative reference starts at the package of the
file it stands in, one package further up for each level above the first. A reference that leads to
no file of the tree is external.
-/

namespace CodeAtlas

/-- A source tree: its root in a tree of files, and its language. -/
structure SourceTree where
  files : FileTree
  root : String
  language : Language

namespace Resolution

/-- A segment names neither a directory step nor a path. -/
def isSegment (segment : String) : Bool :=
  segment ≠ "" && segment ≠ "." && segment ≠ ".." &&
    !segment.toList.contains '/' && !segment.toList.contains '\\'

def segmentsOf (module : String) : List String := Path.split '.' module

/-- Drops names at the end, one for each level; nothing where they run out. -/
def climb : Nat → List String → Option (List String)
  | 0, names => some names
  | level + 1, names => if names.isEmpty then none else climb level names.dropLast

/-- The package a reference of a given level starts from. -/
def package? (file : String) (level : Nat) : Option (List String) :=
  climb (level - 1) ((Path.split '/' file).filter (· ≠ "")).dropLast

end Resolution

namespace SourceTree

def hasFile (tree : SourceTree) (path : String) : Bool :=
  tree.files.isFile (Path.join tree.root path)

def fileOf? (tree : SourceTree) (segments : List String) : Option String :=
  if segments.isEmpty || !segments.all Resolution.isSegment then none
  else
    let joined := "/".intercalate segments
    let module := joined ++ "." ++ tree.language.moduleExtension
    let package := joined ++ "/" ++ tree.language.packageFile
    if tree.hasFile module then some module
    else if tree.hasFile package then some package
    else none

def resolve? (tree : SourceTree) (module : String) : Option String :=
  tree.fileOf? (Resolution.segmentsOf module)

/-- The file of a reference in a file, relative to its package. -/
def resolveRelative? (tree : SourceTree) (file : String) (level : Nat) (module : Option String) :
    Option String := do
  let package ← Resolution.package? file level
  tree.fileOf? (package ++ (module.map Resolution.segmentsOf).getD [])

end SourceTree

end CodeAtlas
