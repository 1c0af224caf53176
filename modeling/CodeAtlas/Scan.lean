import CodeAtlas.Ignore.Rules
import CodeAtlas.Language

/-!
# Scanning

The source files below a root, by their paths from there, in the order of their characters. Ignored
files and version-control data are left out. A root that is a file itself is listed under an empty
path.
-/

namespace CodeAtlas

namespace Scan

def controlDirectory : String := ".git"

/-- A path from the root, with slashes alone between its names. -/
def display (names : Trail) : String :=
  ("/".intercalate names).map fun char => if char = '\\' then '/' else char

def below (tree : FileTree) (language : Language) (root : Trail) : List String :=
  (tree.filesBelow root).filterMap fun (names, _) =>
    if language.isSource ("/".intercalate names) && !names.contains controlDirectory &&
        !Ignore.isLeftOut tree root (root ++ names) then
      some (display names)
    else none

end Scan

def FileTree.scan (tree : FileTree) (language : Language) (root : String) : List String :=
  if (Path.steps root).contains Scan.controlDirectory then []
  else
    match tree.locate root with
    | .error _ => []
    | .ok place =>
        match tree.get? place with
        | none => []
        | some (.file _) => if language.isSource root then [""] else []
        | some .directory =>
            (Scan.below tree language place).mergeSort fun left right => (compare left right).isLE

end CodeAtlas
