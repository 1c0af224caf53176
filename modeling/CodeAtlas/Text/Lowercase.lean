/-!
# Lower case

Words are compared without regard to the case of ASCII letters; other letters stay as they are.
-/

namespace CodeAtlas.Text

def lowercase (text : String) : String := String.ofList (text.toList.map Char.toLower)

end CodeAtlas.Text
