import StructModel.Text.Visible

/-!
# Quoted names in messages

A name inside a message stands in double quotes. The quote, the backslash and the four controls with
a letter of their own are written with a backslash, an invisible character as its code point.
-/

namespace StructModel.Text

/-- Lower-case hexadecimal digits without padding. -/
def hexText (n : Nat) : List Char := Nat.toDigits 16 n

def quotedChar (c : Char) : List Char :=
  if c = '"' then ['\\', '"']
  else if c = '\\' then ['\\', '\\']
  else if c = '\n' then ['\\', 'n']
  else if c = '\r' then ['\\', 'r']
  else if c = '\t' then ['\\', 't']
  else if c = '\x00' then ['\\', '0']
  else if isVisible c then [c]
  else ['\\', 'u', '\x7b'] ++ hexText c.toNat ++ ['\x7d']

def quoted (s : String) : String :=
  String.ofList ('"' :: (s.toList.flatMap quotedChar ++ ['"']))

end StructModel.Text
