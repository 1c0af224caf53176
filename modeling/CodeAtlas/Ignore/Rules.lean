import CodeAtlas.FileTree
import CodeAtlas.Ignore.Glob
import CodeAtlas.Text.Blank
import CodeAtlas.Text.Lines

/-!
# Ignore rules

A file of rules lists patterns for the paths below its directory, one a line. The last rule that
matches a path decides whether it is ignored or kept, and rules nearer to the path go before those
further up. Rules of a version-controlled tree count only inside one: from a path up to the root of
its tree.
-/

namespace CodeAtlas.Ignore

structure Rule where
  /-- What it matches is kept after all. -/
  keeps : Bool
  directoriesOnly : Bool
  glob : Glob

namespace Rule

def dropLast (text : List Char) : List Char := text.dropLast

def endsWith (text ending : List Char) : Bool := ending.isSuffixOf text

/-- A line without the blanks at its end; an escaped blank stays. -/
def trimLine (line : List Char) : List Char :=
  if endsWith line ['\\', ' '] then line else (line.reverse.dropWhile Text.isBlank).reverse

/-- The marks in front of a pattern: whether it keeps, and whether it starts at the directory. -/
def leading : List Char → Bool × Bool × List Char
  | '\\' :: '!' :: rest => (false, false, '!' :: rest)
  | '\\' :: '#' :: rest => (false, false, '#' :: rest)
  | '!' :: '/' :: rest => (true, true, rest)
  | '!' :: rest => (true, false, rest)
  | '/' :: rest => (false, true, rest)
  | rest => (false, false, rest)

/-- The slash at the end of a pattern, with an escape before it. -/
def trailing (text : List Char) : Bool × List Char :=
  if endsWith text ['/'] then
    let text := text.dropLast
    (true, if endsWith text ['\\'] then text.dropLast else text)
  else (false, text)

/-- The pattern for whole paths: without a slash inside it may stand at any depth. -/
def anchor (atDirectory : Bool) (text : List Char) : List Char :=
  let anyDepth := ['*', '*', '/']
  let text :=
    if atDirectory || text.contains '/' || text = ['*', '*'] then text else anyDepth ++ text
  if endsWith text ['/', '*', '*'] then text ++ ['/', '*'] else text

/-- The rule a line holds. Blank lines, comments and malformed patterns hold none. -/
def ofLine? (line : String) : Option Rule :=
  let text := line.toList
  if text.head? = some '#' then none
  else
    match trimLine text with
    | [] => none
    | text => do
        let (keeps, atDirectory, text) := leading text
        let (directoriesOnly, text) := trailing text
        return { keeps, directoriesOnly, glob := ← Glob.parse? (anchor atDirectory text) }

def applies (rule : Rule) (path : String) (isDirectory : Bool) : Bool :=
  (isDirectory || !rule.directoriesOnly) && rule.glob.isMatch path

end Rule

/-- A mark that some editors put in front of a text. -/
def byteOrderMark : Char := '\ufeff'

def byteLines (line : Bytes) : Bytes → List Bytes
  | [] => [line.reverse]
  | byte :: rest =>
      if byte = 0x0A then line.reverse :: byteLines [] rest else byteLines (byte :: line) rest

/-- The lines of a content up to the first one that is no text. -/
def readableLines (content : Content) : List String :=
  match content.decode with
  | .ok text => Text.lines text
  | .error _ =>
      match content with
      | .bytes bytes =>
          ((byteLines [] bytes).map Text.Utf8.decode).takeWhile (fun line => line.toOption.isSome)
            |>.filterMap Except.toOption
      | _ => []

def rulesOf (content : Content) : List Rule :=
  match readableLines content with
  | [] => []
  | first :: rest =>
      let first := String.ofList (first.toList.dropWhile (· = byteOrderMark))
      (first :: rest).filterMap Rule.ofLine?

/-- What rules say about a path. -/
inductive Verdict where
  | ignored
  | kept
deriving DecidableEq, Repr

/-- The verdict of the last rule that applies. -/
def verdict? (rules : List Rule) (path : String) (isDirectory : Bool) : Option Verdict :=
  (rules.reverse.find? fun rule => rule.applies path isDirectory).map fun rule =>
    if rule.keeps then .kept else .ignored

/-! ## Rules in a tree -/

/-- The directories above a place, from the nearest. -/
def directoriesAbove (trail : Trail) : List Trail :=
  (List.range trail.length).reverse.map fun length => trail.take length

/-- A directory is the root of a version-controlled tree. -/
def isTreeRoot (tree : FileTree) (directory : Trail) : Bool :=
  (tree.get? (directory ++ [".git"])).isSome || (tree.get? (directory ++ [".jj"])).isSome

/-- The directories from the nearest one to the first that is a root; none where no root is found.
-/
def withinTree (tree : FileTree) : List Trail → List Trail
  | directories =>
      match directories.findIdx? (isTreeRoot tree) with
      | some index => directories.take (index + 1)
      | none => []

/-- The verdict of the nearest directory that has one. -/
def nearestVerdict? (tree : FileTree) (names : Trail) (trail : Trail) (isDirectory : Bool)
    (directories : List Trail) : Option Verdict :=
  directories.findSome? fun directory =>
    match tree.get? (directory ++ names) with
    | some (.file content) =>
        verdict? (rulesOf content) ("/".intercalate (trail.drop directory.length)) isDirectory
    | _ => none

/-- The verdict about a place: of plain rules, then of shared rules of its version-controlled tree,
then of that tree's private rules. -/
def verdictAt? (tree : FileTree) (trail : Trail) (isDirectory : Bool) : Option Verdict :=
  let directories := directoriesAbove trail
  let within := withinTree tree directories
  nearestVerdict? tree [".ignore"] trail isDirectory directories <|>
    nearestVerdict? tree [".gitignore"] trail isDirectory within <|>
    nearestVerdict? tree [".git", "info", "exclude"] trail isDirectory within

/-- A file below a directory is left out: it or a directory on the way to it is ignored. -/
def isLeftOut (tree : FileTree) (root trail : Trail) : Bool :=
  ((directoriesAbove trail).any fun directory =>
    root.length < directory.length && verdictAt? tree directory true = some .ignored) ||
  verdictAt? tree trail false = some .ignored

end CodeAtlas.Ignore
