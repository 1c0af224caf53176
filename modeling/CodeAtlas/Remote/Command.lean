import CodeAtlas.Text.Utf8

/-!
# Commands

A command to a graph server is a list of words. On the wire each word stands behind its length in
bytes, so that words can hold any characters.
-/

namespace CodeAtlas.Remote

abbrev Command := List String

namespace Command

def line (mark : Char) (number : Nat) : Bytes :=
  Text.Utf8.encode (String.ofList (mark :: (toString number).toList ++ ['\r', '\n']))

def wordFrame (word : String) : Bytes :=
  let bytes := Text.Utf8.encode word
  line '$' bytes.length ++ bytes ++ [0x0D, 0x0A]

def frame (command : Command) : Bytes := line '*' command.length ++ command.flatMap wordFrame

end Command

end CodeAtlas.Remote
