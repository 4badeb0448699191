import StructModel.Toml.Scalar

/-!
# Reading TOML

Each function takes what it reads from the head of a text and gives the rest. A document is read
line by line; an array may go over several lines, an inline table may not.
-/

namespace StructModel.Toml

def isBlank (c : Char) : Bool := c == ' ' || c == '\t'

def skipBlanks (cs : List Char) : List Char := cs.dropWhile isBlank

/-- The characters that may stand as they are: no controls but the tab. -/
def isPlain (c : Char) : Bool := c == '\t' || (32 ≤ c.toNat && c.toNat != 127)

/-- The text behind a comment, if there is one. -/
def skipComment : List Char → List Char
  | '#' :: cs => cs.dropWhile isPlain
  | cs => cs

/-- The text behind a line break; the end of the text is one as well. -/
def lineEnd? : List Char → Option (List Char)
  | [] => some []
  | '\n' :: cs => some cs
  | '\r' :: '\n' :: cs => some cs
  | _ => none

/-- The text behind blanks, a comment and a line break. -/
def restOfLine? (cs : List Char) : Option (List Char) := lineEnd? (skipComment (skipBlanks cs))

/-- The text behind blanks, comments and line breaks. -/
def skipLines : Nat → List Char → List Char
  | 0, cs => cs
  | fuel + 1, cs =>
    match skipComment (skipBlanks cs) with
    | '\n' :: r => skipLines fuel r
    | '\r' :: '\n' :: r => skipLines fuel r
    | r => r

def letterEscape? : Char → Option Char
  | 'b' => some '\x08'
  | 't' => some '\t'
  | 'n' => some '\n'
  | 'f' => some '\x0c'
  | 'r' => some '\r'
  | '"' => some '"'
  | '\\' => some '\\'
  | _ => none

/-- The character of hexadecimal digits. -/
def charOfDigits? (ds : List Char) : Option Char :=
  if ds.all isHexDigit then
    let n := numberOf 16 ds
    if n.isValidChar then some (Char.ofNat n) else none
  else none

/-- The rest of a string in double quotes; `read` holds what came before, the last one first. -/
def basicBody (read : List Char) : List Char → Option (List Char × List Char)
  | [] => none
  | '"' :: cs => some (read.reverse, cs)
  | '\\' :: 'u' :: a :: b :: c :: d :: cs =>
    match charOfDigits? [a, b, c, d] with
    | some ch => basicBody (ch :: read) cs
    | none => none
  | '\\' :: 'U' :: a :: b :: c :: d :: e :: f :: g :: h :: cs =>
    match charOfDigits? [a, b, c, d, e, f, g, h] with
    | some ch => basicBody (ch :: read) cs
    | none => none
  | '\\' :: c :: cs =>
    match letterEscape? c with
    | some ch => basicBody (ch :: read) cs
    | none => none
  | c :: cs => if isPlain c && c != '\\' then basicBody (c :: read) cs else none

/-- The rest of a string in single quotes. -/
def literalBody (read : List Char) : List Char → Option (List Char × List Char)
  | [] => none
  | c :: cs =>
    if c = '\'' then some (read.reverse, cs)
    else if isPlain c then literalBody (c :: read) cs
    else none

/-- Whether only blanks come before the next line break. -/
def endsLine (cs : List Char) : Bool :=
  match skipBlanks cs with
  | '\n' :: _ => true
  | '\r' :: '\n' :: _ => true
  | _ => false

/-- The rest of a string in three double quotes. Behind a backslash at the end of a line, white
space is skipped. Up to two quotes may stand before the closing ones. -/
def multilineBody (skipping : Bool) (read : List Char) : List Char → Option (List Char × List Char)
  | [] => none
  | '"' :: '"' :: '"' :: '"' :: '"' :: cs => some (('"' :: '"' :: read).reverse, cs)
  | '"' :: '"' :: '"' :: '"' :: cs => some (('"' :: read).reverse, cs)
  | '"' :: '"' :: '"' :: cs => some (read.reverse, cs)
  | '\r' :: '\n' :: cs =>
    multilineBody skipping (if skipping then read else '\n' :: read) cs
  | '\\' :: 'u' :: a :: b :: c :: d :: cs =>
    match charOfDigits? [a, b, c, d] with
    | some ch => multilineBody false (ch :: read) cs
    | none => none
  | '\\' :: 'U' :: a :: b :: c :: d :: e :: f :: g :: h :: cs =>
    match charOfDigits? [a, b, c, d, e, f, g, h] with
    | some ch => multilineBody false (ch :: read) cs
    | none => none
  | '\\' :: c :: cs =>
    match letterEscape? c with
    | some ch => multilineBody false (ch :: read) cs
    | none => if endsLine (c :: cs) then multilineBody true read (c :: cs) else none
  | c :: cs =>
    if skipping && (isBlank c || c == '\n') then multilineBody true read cs
    else if (isPlain c && c != '\\') || c == '\n' then multilineBody false (c :: read) cs
    else none

/-- The rest of a string in three single quotes. -/
def multilineLiteralBody (read : List Char) : List Char → Option (List Char × List Char)
  | [] => none
  | '\'' :: '\'' :: '\'' :: '\'' :: '\'' :: cs => some (('\'' :: '\'' :: read).reverse, cs)
  | '\'' :: '\'' :: '\'' :: '\'' :: cs => some (('\'' :: read).reverse, cs)
  | '\'' :: '\'' :: '\'' :: cs => some (read.reverse, cs)
  | '\r' :: '\n' :: cs => multilineLiteralBody ('\n' :: read) cs
  | c :: cs =>
    if isPlain c || c == '\n' then multilineLiteralBody (c :: read) cs else none

/-- A line break at the head of a multi-line string is no part of it. -/
def skipFirstBreak : List Char → List Char
  | '\n' :: cs => cs
  | '\r' :: '\n' :: cs => cs
  | cs => cs

def isBareKeyChar (c : Char) : Bool :=
  isDigit c || ('a' ≤ c && c ≤ 'z') || ('A' ≤ c && c ≤ 'Z') || c == '_' || c == '-'

def simpleKey? : List Char → Option (String × List Char)
  | '"' :: cs => (basicBody [] cs).map fun (s, r) => (String.ofList s, r)
  | '\'' :: cs => (literalBody [] cs).map fun (s, r) => (String.ofList s, r)
  | cs =>
    let key := cs.takeWhile isBareKeyChar
    if key.isEmpty then none else some (String.ofList key, cs.dropWhile isBareKeyChar)

/-- Keys with points between them, with any blanks around each. -/
def dottedKey? : Nat → List Char → Option (List String × List Char)
  | 0, _ => none
  | fuel + 1, cs =>
    match simpleKey? (skipBlanks cs) with
    | none => none
    | some (k, r) =>
      match skipBlanks r with
      | '.' :: r => (dottedKey? fuel r).map fun (ks, r) => (k :: ks, r)
      | r => some ([k], r)

/-- Fewer keys than this make a dotted key, and fewer arrays and inline tables than this stand
within one another. -/
def nestingLimit : Nat := 80

/-- A dotted key of a length within the limit: the way to the last key, and the last key. -/
def key? (cs : List Char) : Option (List String × String × List Char) := do
  let (ks, r) ← dottedKey? nestingLimit cs
  let last ← ks.getLast?
  if ks.length < nestingLimit then return (ks.dropLast, last, r) else none

mutual

/-- A value. The depth is that of the arrays and inline tables around it. -/
def value? (depth : Nat) : Nat → List Char → Option (Value × List Char)
  | 0, _ => none
  | fuel + 1, cs =>
    match cs with
    | '"' :: '"' :: '"' :: r =>
      (multilineBody false [] (skipFirstBreak r)).map fun (s, r) => (.string (String.ofList s), r)
    | '"' :: r => (basicBody [] r).map fun (s, r) => (.string (String.ofList s), r)
    | '\'' :: '\'' :: '\'' :: r =>
      (multilineLiteralBody [] (skipFirstBreak r)).map fun (s, r) =>
        (.string (String.ofList s), r)
    | '\'' :: r => (literalBody [] r).map fun (s, r) => (.string (String.ofList s), r)
    | '[' :: r =>
      if depth + 1 < nestingLimit then
        (items? (depth + 1) fuel r).map fun (vs, r) => (.array vs, r)
      else none
    | '\x7b' :: r =>
      if depth + 1 < nestingLimit then
        match skipBlanks r with
        | '\x7d' :: r => some (.inline .defined [], r)
        | r => (pairs? (depth + 1) fuel [] r).map fun (es, r) => (.inline .defined es, r)
      else none
    | cs =>
      let (text, r) := splitScalar cs
      (scalar? text).map fun v => (v, r)

/-- The items of an array up to its closing bracket. -/
def items? (depth : Nat) : Nat → List Char → Option (List Value × List Char)
  | 0, _ => none
  | fuel + 1, cs =>
    match skipLines (fuel + 1) cs with
    | ']' :: r => some ([], r)
    | r =>
      match value? depth fuel r with
      | none => none
      | some (v, r) =>
        match skipLines (fuel + 1) r with
        | ',' :: r => (items? depth fuel r).map fun (vs, r) => (v :: vs, r)
        | ']' :: r => some ([v], r)
        | _ => none

/-- The pairs of an inline table up to its closing brace, added to those before them. -/
def pairs? (depth : Nat) : Nat → List Entry → List Char → Option (List Entry × List Char)
  | 0, _, _ => none
  | fuel + 1, es, cs =>
    match key? cs with
    | some (path, key, '=' :: r) =>
      match value? depth fuel (skipBlanks r) with
      | none => none
      | some (v, r) =>
        match addInline key v path es with
        | none => none
        | some es =>
          match skipBlanks r with
          | ',' :: r => pairs? depth fuel es r
          | '\x7d' :: r => some (es, r)
          | _ => none
    | _ => none

end

/-- A header with its closing brackets: the path of its table. -/
def header? (closing : List Char) (cs : List Char) : Option (List String × List Char) :=
  match key? cs with
  | none => none
  | some (path, key, r) =>
    if closing.isPrefixOf r then some (path ++ [key], r.drop closing.length) else none

/-- One line with the lines that its value goes over. -/
def line? (fuel : Nat) (d : Draft) (cs : List Char) : Option (Draft × List Char) :=
  match skipBlanks cs with
  | '[' :: '[' :: r => do
    let (path, r) ← header? [']', ']'] r
    let d ← d.openArray path
    let r ← restOfLine? r
    return (d, r)
  | '[' :: r => do
    let (path, r) ← header? [']'] r
    let d ← d.openTable path
    let r ← restOfLine? r
    return (d, r)
  | r =>
    match restOfLine? r with
    | some r => some (d, r)
    | none => do
      let (path, key, r) ← key? r
      let r ← expect? '=' r
      let (v, r) ← value? 0 fuel (skipBlanks r)
      let d ← d.add path key v
      let r ← restOfLine? r
      return (d, r)

def lines? : Nat → Draft → List Char → Option Draft
  | 0, _, _ => none
  | fuel + 1, d, cs =>
    if cs.isEmpty then some d
    else
      match line? (fuel + 1) d cs with
      | none => none
      | some (d, r) => lines? fuel d r

/-- The entries of a document. A byte order mark may stand at its head. -/
def parse (text : String) : Option (List Entry) := do
  let cs :=
    match text.toList with
    | '\ufeff' :: cs => cs
    | cs => cs
  let d ← lines? (2 * cs.length + 2) {} cs
  let root ← d.close
  return root.entries

end StructModel.Toml
