import CodeAtlas.CommandLine.Arguments
import CodeAtlas.Configuration.File

/-!
# Invocations

The commands of the program with what each of them takes. The configuration file can be named before
the command and behind it; the latter counts.
-/

namespace CodeAtlas.CommandLine

inductive Command where
  | extract (root : String) (output : Option String)
  | load (edges : Option String) (clear perRelation : Bool)
  | index (root : String) (output query : Option String)
  | migrate (list : String) (output : Option String)
  | neighbors (file : String) (direction : Graph.Direction) (json : Bool)
  | search (query : String) (limit : Option Nat) (json : Bool)
  | stats (json : Bool)
  | serve
  | init (force : Bool)
deriving DecidableEq, Repr

structure Invocation where
  configPath : String
  command : Command
deriving DecidableEq, Repr

namespace Invocation

def configOption : Parameter := { name := "config", short := some 'c', kind := some .text }

def outputOption : Parameter := { name := "output", short := some 'o', kind := some .path }

def jsonOption : Parameter := { name := "json" }

def word (name : String) (kind : ValueKind) : Parameter :=
  { name, isWord := true, kind := some kind }

/-- A command: its name, what it takes, and what it becomes. -/
structure Entry where
  name : String
  words : List Parameter := []
  options : List Parameter := []
  make : Given → Command

def entries : List Entry := [
  { name := "extract", words := [word "repo" .path], options := [outputOption]
    make := fun given => .extract ((given.text? "repo").getD "") (given.text? "output") },
  { name := "load"
    options := [{ name := "edges", short := some 'e', kind := some .path }, { name := "clear" },
      { name := "per-relation" }]
    make := fun given =>
      .load (given.text? "edges") (given.isGiven "clear") (given.isGiven "per-relation") },
  { name := "index", words := [word "repo" .path]
    options := [outputOption, { name := "query", short := some 'q', kind := some .text }]
    make := fun given =>
      .index ((given.text? "repo").getD "") (given.text? "output") (given.text? "query") },
  { name := "migrate-index", words := [word "legacy" .path], options := [outputOption]
    make := fun given => .migrate ((given.text? "legacy").getD "") (given.text? "output") },
  { name := "neighbors", words := [word "file" .text]
    options := [{ name := "direction", short := some 'd', kind := some .direction }, jsonOption]
    make := fun given =>
      .neighbors ((given.text? "file").getD "") ((given.direction? "direction").getD .both)
        (given.isGiven "json") },
  { name := "search", words := [word "query" .text]
    options := [{ name := "top", short := some 'n', kind := some .size }, jsonOption]
    make := fun given =>
      .search ((given.text? "query").getD "") (given.size? "top") (given.isGiven "json") },
  { name := "stats", options := [jsonOption], make := fun given => .stats (given.isGiven "json") },
  { name := "serve", make := fun _ => .serve },
  { name := "init", options := [{ name := "force" }]
    make := fun given => .init (given.isGiven "force") }]

/-- The word that asks for help about commands. -/
def helpWord : String := "help"

def named? (name : String) : Option Entry := entries.find? fun entry => entry.name = name

def outerLevel : Level where
  options := [configOption]
  commands := entries.map Entry.name ++ [helpWord]
  hasVersion := true

def Entry.level (entry : Entry) : Level where
  words := entry.words
  options := entry.options ++ [configOption]

/-- What is given at the level of a command, with all the words it needs. -/
def takeCommand (entry : Entry) (arguments : List String) : Parsed Given := do
  let (given, _) ← Given.takeAll entry.level {} arguments
  let given ← given.settle
  if given.wordCount < entry.words.length then Given.fail .missingArguments
  return given

/-- Help about a command that may be named. -/
def helpAbout : List String → Parsed Invocation
  | [] => .error (.help true)
  | name :: rest =>
      if outerLevel.commands.contains name then
        match rest with
        | [] => .error (.help true)
        | other :: _ => Given.fail (.unknownCommand other)
      else Given.fail (.unknownCommand name)

def parse (arguments : List String) : Parsed Invocation := do
  match ← Given.takeAll outerLevel {} arguments with
  | (given, none) =>
      let given ← given.settle
      if given.values.isEmpty then throw (.help false) else Given.fail .missingCommand
  | (given, some (name, rest)) =>
      match named? name with
      | none => helpAbout rest
      | some entry =>
          let inner ← takeCommand entry rest
          let outer ← given.settle
          let named := inner.text? configOption.name <|> outer.text? configOption.name
          return ⟨named.getD Configuration.defaultFile, entry.make inner⟩

end Invocation

end CodeAtlas.CommandLine
