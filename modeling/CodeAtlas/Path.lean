/-!
# Paths

Paths as texts with slashes. A component is what stands between slashes; empty components and single
points count for nothing, except for a point in front. The stem and the extension of a file name are
divided at its last point, unless that is its first character.
-/

namespace CodeAtlas.Path

/-- Divides at every place where a character stands, given the present piece in reverse. -/
def splitFrom (mark : Char) (piece : List Char) : List Char → List (List Char)
  | [] => [piece.reverse]
  | char :: rest =>
      if char = mark then piece.reverse :: splitFrom mark [] rest
      else splitFrom mark (char :: piece) rest

def split (mark : Char) (text : String) : List String :=
  (splitFrom mark [] text.toList).map String.ofList

def isAbsolute (path : String) : Bool := path.toList.head? = some '/'

/-- The components that name a step from one directory to the next. -/
def steps (path : String) : List String :=
  (split '/' path).filter fun piece => piece ≠ "" && piece ≠ "."

def join (base path : String) : String :=
  if isAbsolute path || base = "" then path
  else if base.toList.getLast? = some '/' then base ++ path
  else base ++ "/" ++ path

def fileName? (path : String) : Option String :=
  match (steps path).getLast? with
  | some name => if name = ".." then none else some name
  | none => none

/-- Divides a file name at its last point. -/
def divideName (name : String) : String × Option String :=
  let reversed := name.toList.reverse
  let extension := reversed.takeWhile (· ≠ '.')
  let stem := (reversed.drop (extension.length + 1)).reverse
  if extension.length = reversed.length || stem.isEmpty then (name, none)
  else (String.ofList stem, some (String.ofList extension.reverse))

def stem? (path : String) : Option String := (fileName? path).map fun name => (divideName name).1

def extension? (path : String) : Option String :=
  (fileName? path).bind fun name => (divideName name).2

/-- The characters up to the end of the last name, which all else follows. -/
def throughName (chars : List Char) : List Char :=
  let reversed := chars.reverse
  let rec trim : List Char → List Char
    | '/' :: rest => trim rest
    | '.' :: '/' :: rest => trim ('/' :: rest)
    | rest => rest
  (trim reversed).reverse

def withExtension (extension : String) (path : String) : String :=
  match fileName? path with
  | none => path
  | some name =>
      let whole := throughName path.toList
      let kept := whole.length - (name.length - (divideName name).1.length)
      String.ofList (whole.take kept) ++ "." ++ extension

/-- The paths that lead on from a path through names, one after the other. -/
def through (base : String) : List String → List String
  | [] => []
  | name :: rest => join base name :: through (join base name) rest

def ancestors (path : String) : List String :=
  let inner (base : String) := through base (steps path).dropLast
  if isAbsolute path then "/" :: inner "/" else inner ""

end CodeAtlas.Path
