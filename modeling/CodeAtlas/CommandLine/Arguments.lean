import CodeAtlas.Graph.Relation
import CodeAtlas.Text.Numeral

/-!
# Command line arguments

Arguments are read one after the other: words for the places of a command, and options by their long
or short names, with a value where they take one. A value may follow its option directly or as the
next argument; it is checked when the argument after it has been understood. Behind two dashes all
arguments are words.
-/

namespace CodeAtlas.CommandLine

/-- What a value has to be. -/
inductive ValueKind where
  | text
  | path
  | direction
  | size
deriving DecidableEq, Repr

inductive Value where
  | present
  | text (value : String)
  | direction (value : Graph.Direction)
  | size (value : Nat)
deriving DecidableEq, Repr

/-- Something that is given by arguments: a place for a word, or an option. -/
structure Parameter where
  name : String
  /-- A word at its place, not an option. -/
  isWord : Bool := false
  short : Option Char := none
  kind : Option ValueKind := none
deriving DecidableEq, Repr

namespace Parameter

def valueName (parameter : Parameter) : String :=
  "<" ++ (parameter.name.map fun char => if char = '-' then '_' else char.toUpper) ++ ">"

def display (parameter : Parameter) : String :=
  if parameter.isWord then parameter.valueName
  else
    "--" ++ parameter.name ++ (if parameter.kind.isSome then " " ++ parameter.valueName else "")

end Parameter

inductive UsageError where
  | unknownCommand (name : String)
  | unexpectedArgument (argument : String)
  | unexpectedValue (value : String) (parameter : Parameter)
  | missingValue (parameter : Parameter)
  | invalidValue (value : String) (parameter : Parameter) (reason : String)
  | repeated (parameter : Parameter)
  | missingArguments
  | missingCommand
deriving Repr

namespace UsageError

def message : UsageError → String
  | unknownCommand name => s!"unrecognized subcommand '{name}'"
  | unexpectedArgument argument => s!"unexpected argument '{argument}' found"
  | unexpectedValue value parameter =>
      s!"unexpected value '{value}' for '{parameter.display}' found; no more were expected"
  | missingValue parameter =>
      s!"a value is required for '{parameter.display}' but none was supplied"
  | invalidValue value parameter reason =>
      s!"invalid value '{value}' for '{parameter.display}': {reason}"
  | repeated parameter => s!"the argument '{parameter.display}' cannot be used multiple times"
  | missingArguments => "the following required arguments were not provided:"
  | missingCommand => "'codecompass' requires a subcommand but one was not provided"

end UsageError

/-- Why arguments are not carried out as a command. -/
inductive Stop where
  | usage (error : UsageError)
  /-- Help is shown, because it was asked for or because nothing was. -/
  | help (wanted : Bool)
  | version
deriving Repr

structure Level where
  words : List Parameter := []
  options : List Parameter := []
  commands : List String := []
  hasVersion : Bool := false

namespace Level

def helpOption : Parameter := { name := "help", short := some 'h' }

def versionOption : Parameter := { name := "version", short := some 'V' }

def allOptions (level : Level) : List Parameter :=
  level.options ++ [helpOption] ++ (if level.hasVersion then [versionOption] else [])

def long? (level : Level) (name : String) : Option Parameter :=
  level.allOptions.find? fun option => option.name = name

def short? (level : Level) (char : Char) : Option Parameter :=
  level.allOptions.find? fun option => option.short = some char

end Level

structure Given where
  values : List (Parameter × Value) := []
  /-- A parameter that is still to be checked, with its value once there is one. -/
  pending : Option (Parameter × Option String) := none
  /-- The next argument is a value. -/
  awaitsValue : Bool := false
  wordCount : Nat := 0
  /-- Two dashes have been seen. -/
  onlyWords : Bool := false

abbrev Parsed := Except Stop

namespace Given

def fail {α : Type} (error : UsageError) : Parsed α := .error (.usage error)

def check (parameter : Parameter) (value : String) : Parsed Value :=
  match parameter.kind with
  | some .direction =>
      match Graph.Direction.ofName value with
      | .ok direction => .ok (.direction direction)
      | .error error => fail (.invalidValue value parameter error.message)
  | some .size =>
      match Text.Numeral.natural (Nat.pow 2 64 - 1) value with
      | .ok size => .ok (.size size)
      | .error error => fail (.invalidValue value parameter error.message)
  | some .path => if value = "" then fail (.missingValue parameter) else .ok (.text value)
  | _ => .ok (.text value)

def record (given : Given) (parameter : Parameter) (value : Option String) : Parsed Given := do
  if parameter = Level.helpOption then throw (.help true)
  if parameter = Level.versionOption then throw .version
  if given.values.any fun present => present.1 = parameter then fail (.repeated parameter)
  let value ←
    match value with
    | some value => check parameter value
    | none => pure .present
  return { given with values := given.values ++ [(parameter, value)] }

def settle (given : Given) : Parsed Given := do
  match given.pending with
  | none => return { given with awaitsValue := false }
  | some (parameter, none) => fail (.missingValue parameter)
  | some (parameter, some value) =>
      record { given with pending := none, awaitsValue := false } parameter (some value)

/-- Takes an option, with a value if one is attached to it. -/
def takeOption (given : Given) (option : Parameter) (attached : Option String) : Parsed Given := do
  match option.kind, attached with
  | none, some value => fail (.unexpectedValue value option)
  | none, none => record (← given.settle) option none
  | some _, some value => record (← given.settle) option (some value)
  | some _, none =>
      return { ← given.settle with pending := some (option, none), awaitsValue := true }

/-- Divides a long option at its equals sign. -/
def divide (text : List Char) : String × Option String :=
  let name := text.takeWhile (· ≠ '=')
  (String.ofList name, ((text.drop name.length).tail?).map String.ofList)

def takeLong (level : Level) (given : Given) (text : List Char) : Parsed Given :=
  let (name, attached) := divide text
  match level.long? name with
  | some option => given.takeOption option attached
  | none => fail (.unexpectedArgument s!"--{name}")

/-- Takes short options that stand together; what follows one that takes a value is its value. -/
def takeShorts (level : Level) (given : Given) : List Char → Parsed Given
  | [] => .ok given
  | char :: rest =>
      match level.short? char with
      | none => fail (.unexpectedArgument s!"-{char}")
      | some option =>
          if option.kind.isNone then do takeShorts level (← given.takeOption option none) rest
          else
            match rest with
            | [] => given.takeOption option none
            | '=' :: value => given.takeOption option (some (String.ofList value))
            | value => given.takeOption option (some (String.ofList value))

def takeWord (level : Level) (given : Given) (word : String) : Parsed Given :=
  match level.words[given.wordCount]? with
  | some parameter => do
      return { ← given.settle with
        pending := some (parameter, some word), wordCount := given.wordCount + 1 }
  | none =>
      fail (if level.commands.isEmpty then .unexpectedArgument word else .unknownCommand word)

def take (level : Level) (given : Given) (argument : String) : Parsed Given :=
  if given.onlyWords then given.takeWord level argument
  else
    match argument.toList with
    | ['-', '-'] => .ok { given with onlyWords := true }
    | '-' :: '-' :: text => given.takeLong level text
    | '-' :: char :: text => given.takeShorts level (char :: text)
    | _ =>
        if given.awaitsValue then
          .ok { given with
            pending := given.pending.map fun pending => (pending.1, some argument)
            awaitsValue := false }
        else given.takeWord level argument

/-- Takes arguments up to the name of a command, if one follows, with the arguments behind it. -/
def takeAll (level : Level) (given : Given) :
    List String → Parsed (Given × Option (String × List String))
  | [] => .ok (given, none)
  | argument :: rest =>
      if !given.onlyWords && !given.awaitsValue && level.commands.contains argument then
        .ok (given, some (argument, rest))
      else do takeAll level (← given.take level argument) rest

def value? (given : Given) (name : String) : Option Value :=
  (given.values.find? fun present => present.1.name = name).map Prod.snd

def isGiven (given : Given) (name : String) : Bool := (given.value? name).isSome

def text? (given : Given) (name : String) : Option String :=
  match given.value? name with
  | some (.text value) => some value
  | _ => none

def size? (given : Given) (name : String) : Option Nat :=
  match given.value? name with
  | some (.size value) => some value
  | _ => none

def direction? (given : Given) (name : String) : Option Graph.Direction :=
  match given.value? name with
  | some (.direction value) => some value
  | _ => none

end Given

end CodeAtlas.CommandLine
