/-!
# Reading positions

A place is a point in a source text: what lies ahead and how much lies behind. A cursor adds the
block structure open at a place. Reading moves a cursor forward through the text and nowhere else,
which `Reaches` records; only indentation and string tokens change the block structure.
-/

namespace CodeAtlas.Syntax

/-- Characters and line ends behind a point of a text. -/
structure Position where
  offset : Nat
  row : Nat
deriving DecidableEq, Repr, Inhabited

/-- A point of a text together with the text ahead. -/
structure Place extends Position where
  rest : List Char
deriving DecidableEq, Repr, Inhabited

namespace Place

def ofChars (chars : List Char) : Place := { rest := chars, offset := 0, row := 0 }

/-- Passes over a number of characters, or over all that is left. -/
def skip : Nat → Place → Place
  | 0, place => place
  | count + 1, place =>
      match place.rest with
      | [] => place
      | char :: rest =>
          skip count {
            rest
            offset := place.offset + 1
            row := if char = '\n' then place.row + 1 else place.row }

theorem skip_nil (count : Nat) {place : Place} (empty : place.rest = []) :
    place.skip count = place := by
  cases count with
  | zero => rfl
  | succ count => simp [skip, empty]

theorem skip_skip (first second : Nat) (place : Place) :
    (place.skip first).skip second = place.skip (first + second) := by
  induction first generalizing place with
  | zero => simp [skip]
  | succ first ih =>
      cases ahead : place.rest with
      | nil => rw [skip_nil _ ahead, skip_nil _ ahead, skip_nil _ ahead]
      | cons char rest =>
          rw [Nat.add_right_comm]
          simp only [skip, ahead]
          exact ih _

end Place

structure Cursor extends Place where
  extent : Nat
  /-- Widths of the open blocks, innermost first; the outermost has width zero. -/
  indents : List Nat
  /-- Set by the opening quote of a formatted string, cleared by any closing quote. -/
  inFormat : Bool
deriving DecidableEq, Inhabited

namespace Cursor

def ofChars (chars : List Char) : Cursor :=
  { Place.ofChars chars with extent := chars.length, indents := [0], inFormat := false }

def ofText (text : String) : Cursor := ofChars text.toList

/-- Enough for a loop that reads at least one character a round. -/
def fuel (cursor : Cursor) : Nat := cursor.extent - cursor.offset + 2

/-- Passes over a number of characters, or over all that is left. -/
def skip (count : Nat) (cursor : Cursor) : Cursor :=
  { cursor with toPlace := cursor.toPlace.skip count }

/-- The text from here to a later offset, as it is written. -/
def textTo (cursor : Cursor) (stop : Nat) : String :=
  String.ofList (cursor.rest.take (stop - cursor.offset))

/-- The second cursor stands at or behind the first in the same text. -/
def Reaches (first second : Cursor) : Prop :=
  ∃ count, second.toPlace = first.toPlace.skip count

theorem Reaches.refl (cursor : Cursor) : cursor.Reaches cursor := ⟨0, rfl⟩

theorem Reaches.trans {first second third : Cursor} (left : first.Reaches second)
    (right : second.Reaches third) : first.Reaches third := by
  obtain ⟨before, left⟩ := left
  obtain ⟨behind, right⟩ := right
  exact ⟨before + behind, by rw [right, left, Place.skip_skip]⟩

theorem reaches_skip (count : Nat) (cursor : Cursor) : cursor.Reaches (cursor.skip count) :=
  ⟨count, rfl⟩

end Cursor

end CodeAtlas.Syntax
