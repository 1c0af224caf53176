/-!
# Lines

A line ends at a line feed, and a carriage return directly before the line feed belongs to the line
end. Text behind the last line feed is a line of its own unless it is empty.
-/

namespace CodeAtlas.Text

def withoutReturn (line : List Char) : List Char :=
  match line.reverse with
  | '\r' :: rest => rest.reverse
  | _ => line

/-- Splits into lines, with the present line read so far in reverse. -/
def linesFrom (line : List Char) : List Char → List (List Char)
  | [] => if line.isEmpty then [] else [line.reverse]
  | '\n' :: rest => withoutReturn line.reverse :: linesFrom [] rest
  | char :: rest => linesFrom (char :: line) rest

def lines (text : String) : List String := (linesFrom [] text.toList).map String.ofList

end CodeAtlas.Text
