import CodeAtlas.Text.Utf8

/-!
# Glob patterns

Patterns for paths: a star stands for any characters of one name, two stars for any number of names,
a question mark for one byte, brackets for one byte of a class, and braces for alternatives. A
pattern is matched against the bytes of a path. A bracket that is never closed stands for itself.
-/

namespace CodeAtlas.Ignore

inductive Part where
  | literal (char : Char)
  | anyByte
  /-- Any bytes of one name. -/
  | anyName
  /-- Any directories in front, or none. -/
  | leadingPath
  /-- All that lies below. -/
  | trailingPath
  /-- Any directories between two slashes, or one slash. -/
  | innerPath
  | oneOf (negated : Bool) (ranges : List (Char × Char))
  | alternatives (branches : List (List Part))

abbrev Glob := List Part

namespace Glob

/-! ## Reading -/

/-- A class behind its opening bracket. -/
inductive ClassText where
  | closed (ranges : List (Char × Char)) (rest : List Char)
  | unclosed
  | invalid

/-- Reads the members of a class; the ranges so far are in reverse. -/
def classMembers (first inRange : Bool) (ranges : List (Char × Char)) : List Char → ClassText
  | [] => .unclosed
  | char :: rest =>
      if char = ']' && !first then
        .closed (if inRange then (('-', '-') :: ranges).reverse else ranges.reverse) rest
      else if char = '-' && !first && !inRange then classMembers false true ranges rest
      else if inRange then
        match ranges with
        | (low, _) :: others =>
            if char < low then .invalid else classMembers false false ((low, char) :: others) rest
        | [] => classMembers false false [(char, char)] rest
      else classMembers false false ((char, char) :: ranges) rest

/-- Alternatives that are open, with the parts in front of them. -/
structure Opened where
  /-- Parts before the brace, in reverse. -/
  before : List Part
  /-- Branches that are finished, in reverse. -/
  finished : List (List Part)

structure State where
  /-- Parts of the present branch, in reverse. -/
  parts : List Part := []
  opened : List Opened := []
  previous : Option Char := none
  /-- Brackets stand for themselves from here on. -/
  plainBrackets : Bool := false

namespace State

def push (state : State) (part : Part) (previous : Char) : State :=
  { state with parts := part :: state.parts, previous := some previous }

def pushTwoStars (state : State) : State :=
  (state.push .anyName '*').push .anyName '*'

/-- Puts a path part in place of the part in front of it, unless that takes in any path itself. -/
def replaceLast (state : State) (part : Part) (previous : Char) : State :=
  match state.parts with
  | .leadingPath :: _ => { state with previous := some previous }
  | .trailingPath :: _ => { state with previous := some previous }
  | _ :: others => { state with parts := part :: others, previous := some previous }
  | [] => state.push part previous

def twoStars (state : State) (rest : List Char) : State × List Char :=
  let follows := state.previous = some '/' ||
    (!state.opened.isEmpty && (state.previous = some ',' || state.previous = some '\x7b'))
  if state.parts.isEmpty then
    match rest with
    | [] => (state.push .leadingPath '*', [])
    | '/' :: rest => (state.push .leadingPath '/', rest)
    | rest => (state.pushTwoStars, rest)
  else if !follows then (state.pushTwoStars, rest)
  else
    match rest with
    | [] => (state.replaceLast .trailingPath '*', [])
    | '/' :: rest => (state.replaceLast .innerPath '/', rest)
    | char :: rest =>
        if !state.opened.isEmpty && (char = ',' || char = '\x7d') then
          (state.replaceLast .trailingPath '*', char :: rest)
        else (state.pushTwoStars, char :: rest)

def close (state : State) : Option State :=
  match state.opened with
  | [] => none
  | group :: outer =>
      let branches := (state.parts.reverse :: group.finished).reverse
      some { state with
        parts := .alternatives branches :: group.before, opened := outer, previous := some '\x7d' }

/-- Begins another branch; outside of alternatives a comma stands for itself. -/
def comma (state : State) : State :=
  match state.opened with
  | [] => state.push (.literal ',') ','
  | group :: outer =>
      { state with
        parts := []
        opened := { group with finished := state.parts.reverse :: group.finished } :: outer
        previous := some ',' }

def openBrace (state : State) : State :=
  { state with parts := [], opened := ⟨state.parts, []⟩ :: state.opened, previous := some '\x7b' }

/-- Reads a class, or a bracket that stands for itself. -/
def bracket (state : State) (rest : List Char) : Option (State × List Char) :=
  let (negated, inner) :=
    match rest with
    | '!' :: inner => (true, inner)
    | '^' :: inner => (true, inner)
    | _ => (false, rest)
  match classMembers true false [] inner with
  | .closed ranges behind => some (state.push (.oneOf negated ranges) ']', behind)
  | .unclosed => some ({ state.push (.literal '[') '[' with plainBrackets := true }, rest)
  | .invalid => none

/-- Reads one part of a pattern at its first character. -/
def step (state : State) (char : Char) (rest : List Char) : Option (State × List Char) :=
  if char = '?' then some (state.push .anyByte char, rest)
  else if char = '*' then
    match rest with
    | '*' :: rest => some (state.twoStars rest)
    | _ => some (state.push .anyName char, rest)
  else if char = '[' && !state.plainBrackets then state.bracket rest
  else if char = '\x7b' then some (state.openBrace, rest)
  else if char = '\x7d' then state.close.map fun state => (state, rest)
  else if char = ',' then some (state.comma, rest)
  else if char = '\\' then
    match rest with
    | [] => none
    | escaped :: rest => some (state.push (.literal escaped) escaped, rest)
  else some (state.push (.literal char) char, rest)

end State

/-- Reads a pattern; each step takes at least one character. -/
def parseFuel : Nat → State → List Char → Option Glob
  | 0, _, _ => none
  | _, state, [] => if state.opened.isEmpty then some state.parts.reverse else none
  | fuel + 1, state, char :: rest =>
      match state.step char rest with
      | some (state, rest) => parseFuel fuel state rest
      | none => none

def parse? (text : List Char) : Option Glob := parseFuel (text.length + 1) {} text

/-! ## Matching -/

def slash : UInt8 := 0x2F

def charBytes (char : Char) : Bytes := Text.Utf8.encode (String.singleton char)

def behind : Bytes → Bytes → Option Bytes
  | [], path => some path
  | _ :: _, [] => none
  | byte :: rest, first :: path => if byte = first then behind rest path else none

/-- What is left behind any number of bytes of a name. -/
def behindName : Bytes → List Bytes
  | [] => [[]]
  | byte :: rest => (byte :: rest) :: if byte = slash then [] else behindName rest

/-- What is left behind any bytes at all. -/
def behindAny : Bytes → List Bytes
  | [] => [[]]
  | byte :: rest => (byte :: rest) :: behindAny rest

def behindSlashes : Bytes → List Bytes
  | [] => []
  | byte :: rest => if byte = slash then rest :: behindSlashes rest else behindSlashes rest

/-- The byte ranges of a range of characters: written out byte by byte, with the range between the
last byte of one and the first byte of the other. -/
def byteRanges (low high : Char) : List (UInt8 × UInt8) :=
  let lows := charBytes low
  if low = high then lows.map fun byte => (byte, byte)
  else
    let highs := charBytes high
    (lows.dropLast.map fun byte => (byte, byte)) ++
      [(lows.getLastD 0, highs.headD 0)] ++ (highs.drop 1).map fun byte => (byte, byte)

def inRanges (ranges : List (Char × Char)) (byte : UInt8) : Bool :=
  (ranges.flatMap fun range => byteRanges range.1 range.2).any fun range =>
    range.1 ≤ byte && byte ≤ range.2

mutual

/-- A part that stands for no text at all. -/
def isVoid : Part → Bool
  | .alternatives branches => allVoid branches
  | _ => false

def branchVoid : List Part → Bool
  | [] => true
  | part :: rest => isVoid part && branchVoid rest

def allVoid : List (List Part) → Bool
  | [] => true
  | branch :: rest => branchVoid branch && allVoid rest

end

mutual

/-- What is left of a path behind a part, in each way the part can match. -/
def rests (path : Bytes) : Part → List Bytes
  | .literal char => (behind (charBytes char) path).toList
  | .anyByte =>
      match path with
      | byte :: rest => if byte = slash then [] else [rest]
      | [] => []
  | .anyName => behindName path
  | .leadingPath =>
      path :: (match path with
        | byte :: rest => if byte = slash then [rest] else []
        | [] => []) ++ behindSlashes path
  | .trailingPath =>
      match path with
      | byte :: rest => if byte = slash then behindAny rest else []
      | [] => []
  | .innerPath =>
      match path with
      | byte :: rest => if byte = slash then rest :: behindSlashes rest else []
      | [] => []
  | .oneOf negated ranges =>
      match path with
      | byte :: rest => if inRanges ranges byte ≠ negated then [rest] else []
      | [] => []
  | .alternatives branches => if allVoid branches then [path] else alternativeRests path branches

def branchRests (paths : List Bytes) : List Part → List Bytes
  | [] => paths
  | part :: rest => branchRests (paths.flatMap fun path => rests path part).eraseDups rest

/-- What is left behind any of the branches; those without text do not count. -/
def alternativeRests (path : Bytes) : List (List Part) → List Bytes
  | [] => []
  | branch :: rest =>
      (if branchVoid branch then [] else branchRests [path] branch) ++ alternativeRests path rest

end

/-- A pattern of nothing but two stars matches every path. -/
def isAll : Glob → Bool
  | [.leadingPath] => true
  | _ => false

def isMatch (glob : Glob) (path : String) : Bool :=
  isAll glob || (branchRests [Text.Utf8.encode path] glob).contains []

end Glob

end CodeAtlas.Ignore
