import CodeAtlas.Error
import CodeAtlas.Path
import CodeAtlas.Text.Utf8

/-!
# File trees

A tree of directories and files, kept as entries under the names that lead to them from the top. A
path is walked from the top; every name but the last has to be a directory.

The tree is the part of a file system in which a program is started. It has no symbolic and no hard
links: what is written under one place is seen under no other one. Nothing lies above the top, so an
absolute path, and one that goes up too often, leads nowhere: it is not found.

A file is changed by writing it or by renaming another one over it. An operation that fails changes
nothing.
-/

namespace CodeAtlas

inductive Content where
  | text (value : String)
  | bytes (value : Bytes)
  /-- The graph database with this number. -/
  | graph (number : Nat)
deriving DecidableEq, Repr

namespace Content

/-- The first bytes of a database, which are all that others see of it. -/
def databaseMark : String := "SQLite format 3\x00"

/-- The bytes as a text, where they are one. -/
def decode : Content → Except Text.Utf8.Fault String
  | text value => .ok value
  | bytes value => Text.Utf8.decode value
  | graph _ => .ok databaseMark

def input : Content → Json.Input
  | text value => Json.Input.ofText value
  | bytes value => Json.Input.ofBytes value
  | graph _ => Json.Input.ofText databaseMark

def readText (content : Content) : Except SystemError String :=
  match content.decode with
  | .ok value => .ok value
  | .error _ => .error .notText

end Content

inductive Entry where
  | directory
  | file (content : Content)
deriving DecidableEq, Repr

abbrev Trail := List String

structure FileTree where
  entries : List (Trail × Entry) := []
deriving DecidableEq, Repr

namespace FileTree

def empty : FileTree := {}

def get? (tree : FileTree) (trail : Trail) : Option Entry :=
  if trail = [] then some .directory else tree.entries.lookup trail

def isDirectoryAt (tree : FileTree) (trail : Trail) : Bool := tree.get? trail = some .directory

/-! ## Walking a path -/

def nameLimit : Nat := 255

/-- What is wrong with a place that another name follows. -/
def checkDirectory (tree : FileTree) (trail : Trail) : Except SystemError Unit :=
  match tree.get? trail with
  | some .directory => .ok ()
  | some (.file _) => .error .notDirectory
  | none => .error .notFound

/-- Walks along names. The last one need not exist. -/
def walk (tree : FileTree) (here : Trail) : List String → Except SystemError Trail
  | [] => .ok here
  | name :: rest => do
      tree.checkDirectory here
      if name = "." then walk tree here rest
      else if name = ".." then
        if here = [] then throw .notFound else walk tree here.dropLast rest
      else if nameLimit < name.utf8ByteSize then throw .nameTooLong
      else walk tree (here ++ [name]) rest

/-- The names of a path; a slash at its end stands for the directory itself. -/
def namesOf (path : String) : List String :=
  let names := (Path.split '/' path).filter (· ≠ "")
  if path.toList.getLast? = some '/' then names ++ ["."] else names

def locate (tree : FileTree) (path : String) : Except SystemError Trail :=
  if path.toList.contains '\x00' then .error .nulInPath
  else if path = "" || Path.isAbsolute path then .error .notFound
  else tree.walk [] (namesOf path)

def find? (tree : FileTree) (path : String) : Option Entry :=
  match tree.locate path with
  | .ok trail => tree.get? trail
  | .error _ => none

def isFile (tree : FileTree) (path : String) : Bool :=
  match tree.find? path with
  | some (.file _) => true
  | _ => false

def isDirectory (tree : FileTree) (path : String) : Bool := tree.find? path = some .directory

def contains (tree : FileTree) (path : String) : Bool := (tree.find? path).isSome

/-! ## Reading -/

def read (tree : FileTree) (path : String) : Except SystemError Content := do
  match tree.get? (← tree.locate path) with
  | some (.file content) => return content
  | some .directory => throw .isDirectory
  | none => throw .notFound

/-- The files below a place, by the names that lead on from there. -/
def filesBelow (tree : FileTree) (trail : Trail) : List (Trail × Content) :=
  tree.entries.filterMap fun
    | (place, .file content) =>
        if trail.isPrefixOf place then some (place.drop trail.length, content) else none
    | (_, .directory) => none

/-! ## Changes -/

/-- Puts an entry in its place, over one that is there. -/
def put (tree : FileTree) (trail : Trail) (entry : Entry) : FileTree :=
  ⟨(tree.entries.filter fun present => present.1 ≠ trail) ++ [(trail, entry)]⟩

/-- Takes away what is at a place and below it. -/
def erase (tree : FileTree) (trail : Trail) : FileTree :=
  ⟨tree.entries.filter fun present => !trail.isPrefixOf present.1⟩

/-- Writes a file, which is made if it is missing. -/
def write (tree : FileTree) (path : String) (content : Content) : Except SystemError FileTree := do
  let trail ← tree.locate path
  if tree.isDirectoryAt trail then throw .isDirectory
  return tree.put trail (.file content)

/-- Moves a file over another one or to a free place. -/
def rename (tree : FileTree) (path target : String) : Except SystemError FileTree := do
  let source ← tree.locate path
  let content ← tree.read path
  if target.toList.getLast? = some '/' then throw .notDirectory
  let place ← tree.locate target
  if tree.isDirectoryAt place then throw .isDirectory
  if source = place then return tree
  return (tree.erase source).put place (.file content)

/-- Makes a directory where there is none. -/
def createDirectory (tree : FileTree) (path : String) : Except SystemError FileTree := do
  let trail ← tree.locate path
  match tree.get? trail with
  | some .directory => return tree
  | some (.file _) => throw .fileExists
  | none => return tree.put trail .directory

/-- Takes away a file, or a directory with all it holds. -/
def remove (tree : FileTree) (path : String) : Except SystemError FileTree := do
  let trail ← tree.locate path
  if (tree.get? trail).isNone then throw .notFound
  return tree.erase trail

end FileTree

end CodeAtlas
