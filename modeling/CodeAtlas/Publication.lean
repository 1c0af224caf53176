import CodeAtlas.FileTree

/-!
# Publication

A file is published in steps, so that nobody finds it half written: the directories above it are
made, its text is written to a file beside it, and that file is renamed over it. Work stops at the
first step that fails, and the steps before it stay done.

The tree has no links. A link beside the path, under the name of the file that is to be renamed,
would be followed, and the text would be written where it leads.
-/

namespace CodeAtlas

/-- A change of a file tree. -/
inductive FileStep where
  | createDirectory (path : String)
  | write (path text : String)
  | rename (path target : String)
deriving DecidableEq, Repr

namespace FileStep

def apply (step : FileStep) (tree : FileTree) : Except SystemError FileTree :=
  match step with
  | createDirectory path => tree.createDirectory path
  | write path text => tree.write path (.text text)
  | rename path target => tree.rename path target

end FileStep

namespace FileTree

/-- Takes steps one after the other. The tree comes as the last step that worked leaves it. -/
def run (tree : FileTree) : List FileStep → Except SystemError Unit × FileTree
  | [] => (.ok (), tree)
  | step :: rest =>
      match step.apply tree with
      | .ok tree => run tree rest
      | .error error => (.error error, tree)

end FileTree

namespace Publication

/-- The file beside a path that holds its text until it is complete. -/
def sibling (path : String) : String := Path.withExtension "json.tmp" path

def steps (path text : String) : List FileStep :=
  (Path.ancestors path).map .createDirectory ++
    [.write (sibling path) text, .rename (sibling path) path]

end Publication

def FileTree.publish (tree : FileTree) (path text : String) : Except SystemError Unit × FileTree :=
  tree.run (Publication.steps path text)

end CodeAtlas
