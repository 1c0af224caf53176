import CodeAtlas.Json.Value
import CodeAtlas.Text.Quoted

/-!
# JSON drafts

A draft is a text read as a tree as far as it goes: where the text breaks off, the tree ends in the
fault. A reader that looks for particular types walks the draft in the order of the text and meets a
wrong type or the fault, whichever comes first. A value that is passed over is held to weaker rules
than one that is read.
-/

namespace CodeAtlas.Json

/-- What is wrong with a text. -/
inductive SyntaxError where
  | endInList
  | endInObject
  | endInString
  | endInValue
  | expectedColon
  | expectedListEnd
  | expectedObjectEnd
  | expectedWord
  | expectedValue
  | invalidEscape
  | invalidNumber
  | numberOutOfRange
  | invalidCodePoint
  | controlCharacter
  | keyNotString
  | loneSurrogate
  | endOfSurrogates
  | trailingComma
  | trailingCharacters
  | tooDeep
deriving DecidableEq, Repr

namespace SyntaxError

def message : SyntaxError → String
  | endInList => "EOF while parsing a list"
  | endInObject => "EOF while parsing an object"
  | endInString => "EOF while parsing a string"
  | endInValue => "EOF while parsing a value"
  | expectedColon => "expected `:`"
  | expectedListEnd => "expected `,` or `]`"
  | expectedObjectEnd => "expected `,` or `\x7d`"
  | expectedWord => "expected ident"
  | expectedValue => "expected value"
  | invalidEscape => "invalid escape"
  | invalidNumber => "invalid number"
  | numberOutOfRange => "number out of range"
  | invalidCodePoint => "invalid unicode code point"
  | controlCharacter => "control character (\\u0000-\\u001F) found while parsing a string"
  | keyNotString => "key must be a string"
  | loneSurrogate => "lone leading surrogate in hex escape"
  | endOfSurrogates => "unexpected end of hex escape"
  | trailingComma => "trailing comma"
  | trailingCharacters => "trailing characters"
  | tooDeep => "recursion limit exceeded"

end SyntaxError

/-- Where a text breaks off: the error for one who reads the value, and for one who passes over it.
-/
structure Fault where
  reading : SyntaxError
  skipping : SyntaxError
deriving DecidableEq, Repr

def Fault.same (error : SyntaxError) : Fault := ⟨error, error⟩

/-- A string, or what keeps it from being read. -/
abbrev DraftString := Except SyntaxError String

inductive Draft where
  | null
  | bool (value : Bool)
  | number (value : Except SyntaxError Number)
  | string (value : DraftString)
  | array (items : List Draft) (fault : Option Fault)
  | object (entries : List (DraftString × Draft)) (fault : Option Fault)
  | broken (fault : Fault)

namespace Draft

def text? : Draft → Option String
  | .string (.ok text) => some text
  | _ => none

def natural? : Draft → Option Nat
  | .number (.ok (.whole value)) => if 0 ≤ value then some value.toNat else none
  | _ => none

def valueUnder? (key : String) : List (DraftString × Draft) → Option Draft
  | [] => none
  | (.ok present, item) :: rest => if present = key then some item else valueUnder? key rest
  | (.error _, _) :: rest => valueUnder? key rest

def field? (key : String) : Draft → Option Draft
  | .object entries _ => valueUnder? key entries
  | _ => none

mutual

/-- The fault met by one who passes over a draft. -/
def skipFault : Draft → Option SyntaxError
  | .array items fault => skipItems items <|> fault.map Fault.skipping
  | .object entries fault => skipEntries entries <|> fault.map Fault.skipping
  | .broken fault => some fault.skipping
  | _ => none

def skipItems : List Draft → Option SyntaxError
  | [] => none
  | item :: rest => skipFault item <|> skipItems rest

def skipEntries : List (DraftString × Draft) → Option SyntaxError
  | [] => none
  | (_, item) :: rest => skipFault item <|> skipEntries rest

end

def stringError : DraftString → Option SyntaxError
  | .ok _ => none
  | .error error => some error

mutual

/-- The fault met by one who reads all of a draft with so many levels of nesting allowed. -/
def readFault (depth : Nat) : Draft → Option SyntaxError
  | .number (.error error) => some error
  | .string text => stringError text
  | .array items fault =>
      if depth ≤ 1 then some .tooDeep
      else readItems (depth - 1) items <|> fault.map Fault.reading
  | .object entries fault =>
      if depth ≤ 1 then some .tooDeep
      else readEntries (depth - 1) entries <|> fault.map Fault.reading
  | .broken fault => some fault.reading
  | _ => none

def readItems (depth : Nat) : List Draft → Option SyntaxError
  | [] => none
  | item :: rest => readFault depth item <|> readItems depth rest

def readEntries (depth : Nat) : List (DraftString × Draft) → Option SyntaxError
  | [] => none
  | (key, item) :: rest => stringError key <|> readFault depth item <|> readEntries depth rest

end

/-- Puts an entry into sorted entries, in place of one with the same key. -/
def insertEntry (key : String) (item : Draft) :
    List (DraftString × Draft) → List (DraftString × Draft)
  | [] => [(.ok key, item)]
  | (.error error, other) :: rest => (.error error, other) :: insertEntry key item rest
  | (.ok present, other) :: rest =>
      if key < present then (.ok key, item) :: (.ok present, other) :: rest
      else if key = present then (.ok key, item) :: rest
      else (.ok present, other) :: insertEntry key item rest

/-- Sorted entries; of those with one key the last counts. -/
def sortEntries (entries : List (DraftString × Draft)) : List (DraftString × Draft) :=
  entries.foldl (fun sorted entry =>
    match entry.1 with
    | .ok key => insertEntry key entry.2 sorted
    | .error _ => sorted) []

mutual

def sorted : Draft → Draft
  | .array items fault => .array (sortedItems items) fault
  | .object entries fault => .object (sortEntries (sortedEntries entries)) fault
  | draft => draft

def sortedItems : List Draft → List Draft
  | [] => []
  | item :: rest => sorted item :: sortedItems rest

def sortedEntries : List (DraftString × Draft) → List (DraftString × Draft)
  | [] => []
  | (key, item) :: rest => (key, sorted item) :: sortedEntries rest

end

end Draft

end CodeAtlas.Json
