import StructModel.Json.Value

/-!
# Writing JSON

`compact` writes no blanks. `pretty` puts each item and member on a line of its own, two blanks
further in than the brackets around it; empty brackets stay together.
-/

namespace StructModel.Json

/-- Lower-case hexadecimal digits of a code below 256, two of them. -/
def hexPair (n : Nat) : List Char :=
  [Nat.digitChar (n / 16), Nat.digitChar (n % 16)]

/-- The quote, the backslash and the controls are escaped, all else is as it is. -/
def escapedChar (c : Char) : List Char :=
  if c = '"' then ['\\', '"']
  else if c = '\\' then ['\\', '\\']
  else if c = '\x08' then ['\\', 'b']
  else if c = '\x0c' then ['\\', 'f']
  else if c = '\n' then ['\\', 'n']
  else if c = '\r' then ['\\', 'r']
  else if c = '\t' then ['\\', 't']
  else if c.toNat < 32 then '\\' :: 'u' :: '0' :: '0' :: hexPair c.toNat
  else [c]

def stringText (s : String) : List Char :=
  '"' :: (s.toList.flatMap escapedChar ++ ['"'])

def numberText : JsonNumber → List Char
  | .int n => (toString n).toList
  | .double d => d.textWithFraction.toList

def scalarText : Json → List Char
  | .null => ['n', 'u', 'l', 'l']
  | .bool true => ['t', 'r', 'u', 'e']
  | .bool false => ['f', 'a', 'l', 's', 'e']
  | .number n => numberText n
  | .string s => stringText s
  | .array _ | .object _ => []

/-- A line break with the blanks of a depth. -/
def lineBreak (depth : Nat) : List Char := '\n' :: List.replicate (2 * depth) ' '

mutual

def prettyText (depth : Nat) : Json → List Char
  | .array [] => ['[', ']']
  | .array (v :: vs) =>
    '[' :: (lineBreak (depth + 1) ++ prettyText (depth + 1) v ++ prettyItems (depth + 1) vs ++
      lineBreak depth ++ [']'])
  | .object [] => ['\x7b', '\x7d']
  | .object (⟨k, v⟩ :: ms) =>
    '\x7b' :: (lineBreak (depth + 1) ++ stringText k ++ [':', ' '] ++ prettyText (depth + 1) v ++
      prettyMembers (depth + 1) ms ++ lineBreak depth ++ ['\x7d'])
  | v => scalarText v

/-- The further items, each behind a comma. -/
def prettyItems (depth : Nat) : List Json → List Char
  | [] => []
  | v :: vs => ',' :: (lineBreak depth ++ prettyText depth v ++ prettyItems depth vs)

def prettyMembers (depth : Nat) : List JsonMember → List Char
  | [] => []
  | ⟨k, v⟩ :: ms =>
    ',' :: (lineBreak depth ++ stringText k ++ [':', ' '] ++ prettyText depth v ++
      prettyMembers depth ms)

end

def pretty (v : Json) : String := String.ofList (prettyText 0 v)

mutual

/-- The compact text of a value in front of what follows it. -/
def compactText (after : List Char) : Json → List Char
  | .array [] => '[' :: ']' :: after
  | .array (v :: vs) => '[' :: compactText (compactItems (']' :: after) vs) v
  | .object [] => '\x7b' :: '\x7d' :: after
  | .object (⟨k, v⟩ :: ms) =>
    '\x7b' :: (stringText k ++ ':' :: compactText (compactMembers ('\x7d' :: after) ms) v)
  | v => scalarText v ++ after

def compactItems (after : List Char) : List Json → List Char
  | [] => after
  | v :: vs => ',' :: compactText (compactItems after vs) v

def compactMembers (after : List Char) : List JsonMember → List Char
  | [] => after
  | ⟨k, v⟩ :: ms => ',' :: (stringText k ++ ':' :: compactText (compactMembers after ms) v)

end

def compact (v : Json) : String := String.ofList (compactText [] v)

end StructModel.Json
