/-!
# Search tokens

The words by which texts are ranked: runs of ASCII letters, digits and underscores in lower case,
cut where a capital letter follows a small one. Words of one character do not count.
-/

namespace CodeAtlas.Search

namespace Tokens

def isWord (char : Char) : Bool := char.isAlphanum || char = '_'

/-- Puts a blank between a small letter and a capital one. -/
def separateCapitals : List Char → List Char
  | first :: second :: rest =>
      if first.isLower && second.isUpper then first :: ' ' :: second :: separateCapitals rest
      else first :: separateCapitals (second :: rest)
  | rest => rest

/-- Blanks in place of all that belongs to no word, and small letters. -/
def clean (chars : List Char) : List Char :=
  chars.map fun char => if isWord char then char.toLower else ' '

/-- Splits at blanks, given the present word in reverse. -/
def wordsFrom (word : List Char) : List Char → List (List Char)
  | [] => [word.reverse]
  | char :: rest =>
      if char = ' ' then word.reverse :: wordsFrom [] rest else wordsFrom (char :: word) rest

end Tokens

def tokens (text : String) : List String :=
  ((Tokens.wordsFrom [] (Tokens.clean (Tokens.separateCapitals text.toList))).filter fun word =>
    1 < word.length).map String.ofList

end CodeAtlas.Search
