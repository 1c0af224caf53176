/-!
# Counts

How often words occur, as a list of words with their counts in the order of the words. A count is a
machine word and begins again at zero when it runs over.
-/

namespace CodeAtlas.Search

abbrev Counts := List (String × UInt32)

namespace Counts

def increment (word : String) : Counts → Counts
  | [] => [(word, 1)]
  | (present, count) :: rest =>
      if word < present then (word, 1) :: (present, count) :: rest
      else if word = present then (present, count + 1) :: rest
      else (present, count) :: increment word rest

def ofWords (words : List String) : Counts :=
  words.foldl (fun counts word => counts.increment word) []

def count (counts : Counts) (word : String) : UInt32 := (counts.lookup word).getD 0

def contains (counts : Counts) (word : String) : Bool := (counts.lookup word).isSome

def words (counts : Counts) : List String := counts.map Prod.fst

end Counts

end CodeAtlas.Search
