import CodeAtlas.Text.Printable

/-!
# Quoted text

A text between double quotes as it is shown in messages: characters that cannot be shown by
themselves are written as escapes.
-/

namespace CodeAtlas.Text

/-- The hexadecimal digits of a number, without leading zeros. -/
def hexDigits (number : Nat) : List Char := Nat.toDigits 16 number

namespace Quoted

def escape (char : Char) : List Char :=
  if char = '\x00' then ['\\', '0']
  else if char = '\t' then ['\\', 't']
  else if char = '\r' then ['\\', 'r']
  else if char = '\n' then ['\\', 'n']
  else if char = '"' || char = '\\' then ['\\', char]
  else if isPrintable char then [char]
  else ['\\', 'u', '\x7b'] ++ hexDigits char.toNat ++ ['\x7d']

end Quoted

def quoted (text : String) : String :=
  String.ofList ('"' :: text.toList.flatMap Quoted.escape ++ ['"'])

end CodeAtlas.Text
