import StructModel.Go.Token
import StructModel.Text.Identifier

/-!
# Words and literals of Go

Each function gives the length of the longest word or literal of its kind at the head of a text, 0
where there is none.
-/

namespace StructModel.Go.Literal

def isDecimal (c : Char) : Bool := '0' ≤ c && c ≤ '9'

def isBinary (c : Char) : Bool := c == '0' || c == '1'

def isOctal (c : Char) : Bool := '0' ≤ c && c ≤ '7'

def isHex (c : Char) : Bool :=
  isDecimal c || ('a' ≤ c && c ≤ 'f') || ('A' ≤ c && c ≤ 'F')

/-- What goes on with a run of digits, single underscores between them. -/
def moreDigits (p : Char → Bool) : List Char → Nat
  | '_' :: d :: cs => if p d then moreDigits p cs + 2 else 0
  | c :: cs => if p c then moreDigits p cs + 1 else 0
  | [] => 0

def digits (p : Char → Bool) : List Char → Nat
  | c :: cs => if p c then moreDigits p cs + 1 else 0
  | [] => 0

/-- Digits that an underscore may come before. -/
def digitsAfterMark (p : Char → Bool) : List Char → Nat
  | '_' :: cs => let n := digits p cs; if n = 0 then 0 else n + 1
  | cs => digits p cs

/-- The length of a marked literal from the length of what follows its mark. -/
def marked (mark n : Nat) : Nat := if n = 0 then 0 else mark + n

def int (cs : List Char) : Nat :=
  match cs with
  | '0' :: rest =>
    let based :=
      match rest with
      | 'b' :: r | 'B' :: r => marked 2 (digitsAfterMark isBinary r)
      | 'o' :: r | 'O' :: r => marked 2 (digitsAfterMark isOctal r)
      | 'x' :: r | 'X' :: r => marked 2 (digitsAfterMark isHex r)
      | r => marked 1 (digitsAfterMark isOctal r)
    max 1 based
  | '_' :: _ => 0
  | c :: rest => if isDecimal c then 1 + digitsAfterMark isDecimal rest else 0
  | [] => 0

/-- An exponent with its letter, which the given predicate knows, and its sign. -/
def exponent (letter : Char → Bool) : List Char → Nat
  | [] => 0
  | c :: rest =>
    if letter c then
      match rest with
      | '+' :: r | '-' :: r => marked 2 (digits isDecimal r)
      | r => marked 1 (digits isDecimal r)
    else 0

def isE (c : Char) : Bool := c == 'e' || c == 'E'

def isP (c : Char) : Bool := c == 'p' || c == 'P'

def decimalFloat (cs : List Char) : Nat :=
  let whole := digits isDecimal cs
  match cs.drop whole with
  | '.' :: rest =>
    let part := digits isDecimal rest
    if whole + part = 0 then 0
    else whole + 1 + part + exponent isE (rest.drop part)
  | rest => if whole = 0 then 0 else marked whole (exponent isE rest)

def hexFloat (cs : List Char) : Nat :=
  match cs with
  | '0' :: x :: rest =>
    if x == 'x' || x == 'X' then
      let whole := digitsAfterMark isHex rest
      let mantissa :=
        match rest.drop whole with
        | '.' :: r =>
          let part := digits isHex r
          if whole + part = 0 then 0 else whole + 1 + part
        | _ => whole
      if mantissa = 0 then 0
      else marked (2 + mantissa) (exponent isP (rest.drop mantissa))
    else 0
  | _ => 0

def float (cs : List Char) : Nat := max (decimalFloat cs) (hexFloat cs)

/-- A number of the given length followed by the imaginary unit. -/
def withUnit (cs : List Char) (n : Nat) : Nat :=
  match n, cs.drop n with
  | 0, _ => 0
  | n, 'i' :: _ => n + 1
  | _, _ => 0

def imaginary (cs : List Char) : Nat :=
  max (withUnit cs (digits isDecimal cs))
    (max (withUnit cs (int cs)) (withUnit cs (float cs)))

/-- The length `n` when there are so many digits at the head of a text, 0 otherwise. -/
def exactly (p : Char → Bool) (n : Nat) (cs : List Char) : Nat :=
  if (cs.take n).length = n && (cs.take n).all p then n else 0

def runeEscape : List Char → Nat
  | 'x' :: r => marked 1 (exactly isHex 2 r)
  | 'u' :: r => marked 1 (exactly isHex 4 r)
  | 'U' :: r => marked 1 (exactly isHex 8 r)
  | c :: r =>
    if ['a', 'b', 'f', 'n', 'r', 't', 'v', '\\', '\'', '"'].contains c then 1
    else exactly isOctal 3 (c :: r)
  | [] => 0

def rune : List Char → Nat
  | '\'' :: '\\' :: rest =>
    let n := runeEscape rest
    match n, rest.drop n with
    | 0, _ => 0
    | n, '\'' :: _ => n + 3
    | _, _ => 0
  | '\'' :: c :: '\'' :: _ => if c == '\'' then 0 else 3
  | _ => 0

/-- What remains of an escape after its backslash and its letter has been read: nothing, or the
digits that the letter asks for. -/
def escapeDigits (c : Char) : Nat :=
  if c = 'x' then 2 else if c = 'u' then 4 else if c = 'U' then 8 else 0

/-- The rest of an interpreted string up to its closing quote. The first number counts the hex
digits that the escape in front still needs, the second one the characters read. -/
def stringRest : Nat → Nat → List Char → Nat
  | _, _, [] => 0
  | need + 1, n, c :: cs => if isHex c then stringRest need (n + 1) cs else 0
  | 0, n, '"' :: _ => n + 1
  | 0, _, '\n' :: _ => 0
  | 0, _, ['\\'] => 0
  | 0, n, '\\' :: c :: cs => stringRest (escapeDigits c) (n + 2) cs
  | 0, n, _ :: cs => stringRest 0 (n + 1) cs

def string : List Char → Nat
  | '"' :: cs => stringRest 0 1 cs
  | _ => 0

def rawRest : Nat → List Char → Nat
  | _, [] => 0
  | n, c :: cs => if c = '\x60' then n + 1 else rawRest (n + 1) cs

def rawString : List Char → Nat
  | c :: cs => if c = '\x60' then rawRest 1 cs else 0
  | [] => 0

/-- The length of the rest of a comment between asterisks, from its first inner character. -/
def blockRest : Nat → List Char → Option Nat
  | _, [] => none
  | n, '*' :: '/' :: _ => some (n + 2)
  | n, _ :: cs => blockRest (n + 1) cs

/-- The length of a comment. An opening without its close is none. -/
def comment? : List Char → Option Nat
  | '/' :: '/' :: cs => some ((cs.takeWhile (· != '\n')).length + 2)
  | '/' :: '*' :: cs => blockRest 2 cs
  | _ => none

theorem le_blockRest {n m : Nat} {cs : List Char} (h : blockRest n cs = some m) : n ≤ m := by
  fun_induction blockRest n cs with
  | case1 => simp at h
  | case2 n cs =>
    have := Option.some.inj h
    omega
  | case3 n c cs _ ih =>
    have := ih h
    omega

theorem two_le_comment? {n : Nat} {cs : List Char} (h : comment? cs = some n) : 2 ≤ n := by
  unfold comment? at h
  split at h
  · have := Option.some.inj h
    omega
  · exact le_blockRest h
  · simp at h

end StructModel.Go.Literal
