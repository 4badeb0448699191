import StructModel.Go.Literal

/-!
# Scanning a text under a viability test

Which tokens a reading can take decides how the text ahead of it is divided. The longest viable
token is taken; a newline is a token where it is viable and a blank elsewhere. At the end of the
text a zero character stands in for a terminator.
-/

namespace StructModel.Go

/-- A piece of the text with the blanks before it and the line it starts on. -/
structure Lexeme where
  leading : String
  text : String
  line : Nat
  deriving DecidableEq, Repr

/-- A leaf of a syntax tree. -/
inductive Leaf where
  | token (t : Token) (l : Lexeme)
  | comment (l : Lexeme)
  deriving DecidableEq, Repr

/-- A place in a text: what comes after it, the characters before it, its line, and the bytes
before it on that line. -/
structure Cursor where
  rest : List Char
  offset : Nat
  line : Nat
  column : Nat

namespace Cursor

def ofText (text : String) : Cursor := ⟨text.toList, 0, 1, 0⟩

/-- The place `n` characters further on. -/
def move (c : Cursor) (n : Nat) : Cursor :=
  let (line, column) := (c.rest.take n).foldl
    (fun (line, column) ch => if ch = '\n' then (line + 1, 0) else (line, column + ch.utf8Size))
    (c.line, c.column)
  ⟨c.rest.drop n, c.offset + n, line, column⟩

@[simp] theorem move_rest (c : Cursor) (n : Nat) : (c.move n).rest = c.rest.drop n := rfl

/-- The next `n` characters with the blanks that were passed, the last one first. -/
def lexeme (c : Cursor) (blanks : List Char) (n : Nat) : Lexeme :=
  ⟨String.ofList blanks.reverse, String.ofList (c.rest.take n), c.line⟩

end Cursor

/-- The white space other than the newline. -/
def isBlank (c : Char) : Bool :=
  c == ' ' || c == '\t' || c == '\r' || c == '\x0b' || c == '\x0c'

/-- A byte order mark at the head of a text is a blank. -/
def isByteOrderMark (c : Cursor) (ch : Char) : Bool := c.offset == 0 && ch == '\ufeff'

/-- The tokens that a word can be, the preferred one first. -/
def wordTokens (word : String) : List Token :=
  match Keyword.ofSpelling? word with
  | none => [.identifier]
  | some k => if Keyword.reserved.contains k then [.word k] else [.word k, .identifier]

def beginsWith (text : String) (cs : List Char) : Bool := text.toList.isPrefixOf cs

/-- The tokens that the head of a text can be, each with its length, the longer ones first. -/
def candidates (cs : List Char) : List (Token × Nat) :=
  match cs with
  | [] => []
  | c :: rest =>
    if Text.isIdentStart c then
      let word := c :: rest.takeWhile Text.isIdentContinue
      (wordTokens (String.ofList word)).map fun t => (t, word.length)
    else if c = '\n' then [(.newline, 1)]
    else if c = ';' then [(.semicolon, 1)]
    else if c = '\x00' then [(.nul, 1)]
    else
      let literals := [(Token.imaginaryLiteral, Literal.imaginary cs),
        (.floatLiteral, Literal.float cs), (.intLiteral, Literal.int cs),
        (.runeLiteral, Literal.rune cs), (.stringLiteral, Literal.string cs),
        (.rawStringLiteral, Literal.rawString cs)]
      let operators := (Operator.byLength.filter fun o => beginsWith o.spelling cs).map fun o =>
        (Token.op o, o.spelling.length)
      (literals.filter fun (_, n) => 0 < n) ++ operators

inductive Scan where
  | token (comments : List Leaf) (t : Token) (l : Lexeme) (after : Cursor)
  | finish
  /-- No viable token begins here. -/
  | stuck (at_ : Cursor)

/-- Read blanks and comments and then the longest viable token. The viability of `none` is that of
the end of the text. Blanks and comments are kept with the last one first. -/
def scan (viable : Option Token → Bool) (c : Cursor) (blanks : List Char)
    (comments : List Leaf) : Scan :=
  match _h : c.rest with
  | [] =>
    if viable none then .finish
    else if viable (some .nul) then .token comments .nul (c.lexeme blanks 0) c
    else .stuck c
  | ch :: rest =>
    if isBlank ch || isByteOrderMark c ch || (ch == '\n' && !viable (some .newline)) then
      scan viable (c.move 1) (ch :: blanks) comments
    else
      match _hc : Literal.comment? (ch :: rest) with
      | some n => scan viable (c.move n) [] (.comment (c.lexeme blanks n) :: comments)
      | none =>
        match (candidates (ch :: rest)).find? fun (t, _) => viable (some t) with
        | some (t, n) => .token comments t (c.lexeme blanks n) (c.move n)
        | none => .stuck c
termination_by c.rest.length
decreasing_by
  · simp [_h]
  · have := Literal.two_le_comment? _hc
    simp [_h]
    omega

end StructModel.Go
