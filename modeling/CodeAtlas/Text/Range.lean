/-!
# Code point ranges

A character class is kept as the list of its closed ranges beyond ASCII.
-/

namespace CodeAtlas.Text

/-- Some range of the table holds the code point. -/
def inRanges (table : List (Nat × Nat)) (code : Nat) : Bool :=
  table.any fun range => range.1 ≤ code && code ≤ range.2

end CodeAtlas.Text
