import CodeAtlas.Error
import CodeAtlas.Text.Blank
import CodeAtlas.Text.Lowercase

/-!
# Relations and directions

How one file depends on another, and from which end a dependency is looked at.
-/

namespace CodeAtlas.Graph

inductive Relation where
  | imports
  | inherits
  | instantiates
deriving DecidableEq, Repr

namespace Relation

def all : List Relation := [imports, inherits, instantiates]

def name : Relation → String
  | imports => "IMPORTS"
  | inherits => "INHERITS"
  | instantiates => "INSTANTIATES"

def names : List (String × Relation) := all.map fun relation => (relation.name, relation)

def ofName (text : String) : Result Relation :=
  match names.lookup text with
  | some relation => .ok relation
  | none => .error (.invalidArgument
      s!"unknown relation '{text}' (expected IMPORTS, INHERITS or INSTANTIATES)")

def decoder : Json.Decoder Relation := Json.Decoder.variant names

def toJson (relation : Relation) : Json.Value := .string relation.name

end Relation

inductive Direction where
  | incoming
  | outgoing
  | both
deriving DecidableEq, Repr

namespace Direction

def name : Direction → String
  | incoming => "in"
  | outgoing => "out"
  | both => "both"

/-- A look in one direction takes in another. -/
def includes (direction other : Direction) : Bool := direction = both || direction = other

/-- The direction a word stands for; case and blanks around it do not matter. -/
def ofName (text : String) : Result Direction :=
  let word := Text.lowercase (Text.trim text)
  if word = "in" || word = "incoming" then .ok incoming
  else if word = "out" || word = "outgoing" then .ok outgoing
  else if word = "both" || word = "" then .ok both
  else .error (.invalidArgument s!"unknown direction '{word}' (expected in, out or both)")

def names : List (String × Direction) := [("in", incoming), ("out", outgoing), ("both", both)]

def decoder : Json.Decoder Direction := Json.Decoder.variant names

def toJson (direction : Direction) : Json.Value := .string direction.name

end Direction

end CodeAtlas.Graph
