import StructModel.Json.Value

/-!
# Reading JSON

A document is one value with white space around it. Each function takes what it reads from the head
of a text and gives the rest.

## Implementation notes

A number with a fraction or an exponent is the integer of its digits, as far as 64 bits hold it,
times a power of ten, the integer, the power and the product each rounded.
-/

namespace StructModel.Json

open StructModel.Decimal

def isSpace (c : Char) : Bool := c == ' ' || c == '\n' || c == '\r' || c == '\t'

def skip (cs : List Char) : List Char := cs.dropWhile isSpace

def isDigit (c : Char) : Bool := '0' ≤ c && c ≤ '9'

def digitValue (c : Char) : Nat := c.toNat - '0'.toNat

def hexValue? (c : Char) : Option Nat :=
  if '0' ≤ c ∧ c ≤ '9' then some (c.toNat - '0'.toNat)
  else if 'a' ≤ c ∧ c ≤ 'f' then some (c.toNat - 'a'.toNat + 10)
  else if 'A' ≤ c ∧ c ≤ 'F' then some (c.toNat - 'A'.toNat + 10)
  else none

/-- The number of four hexadecimal digits. -/
def codeUnit? (a b c d : Char) : Option Nat := do
  let a ← hexValue? a
  let b ← hexValue? b
  let c ← hexValue? c
  let d ← hexValue? d
  return ((a * 16 + b) * 16 + c) * 16 + d

/-- The character of a letter behind a backslash. -/
def letterEscape? : Char → Option Char
  | '"' => some '"'
  | '\\' => some '\\'
  | '/' => some '/'
  | 'b' => some '\x08'
  | 'f' => some '\x0c'
  | 'n' => some '\n'
  | 'r' => some '\r'
  | 't' => some '\t'
  | _ => none

/-- The character of a code unit that is no half of a pair. -/
def charOfUnit? (n : Nat) : Option Char :=
  if n.isValidChar then some (Char.ofNat n) else none

/-- The character of a pair of code units. -/
def charOfPair? (high low : Nat) : Option Char :=
  if 0xd800 ≤ high ∧ high < 0xdc00 ∧ 0xdc00 ≤ low ∧ low < 0xe000 then
    some (Char.ofNat (0x10000 + (high - 0xd800) * 1024 + (low - 0xdc00)))
  else none

/-- The characters of a string up to its closing quote, behind those read before, which come with the
last one first. -/
def stringBody (read : List Char) : List Char → Option (List Char × List Char)
  | [] => none
  | '"' :: cs => some (read.reverse, cs)
  | '\\' :: 'u' :: a :: b :: c :: d :: cs =>
    match codeUnit? a b c d with
    | none => none
    | some m =>
      match charOfUnit? m with
      | some ch => stringBody (ch :: read) cs
      | none =>
        match cs with
        | '\\' :: 'u' :: e :: f :: g :: h :: cs =>
          match (codeUnit? e f g h).bind (charOfPair? m) with
          | some ch => stringBody (ch :: read) cs
          | none => none
        | _ => none
  | '\\' :: c :: cs =>
    match letterEscape? c with
    | some ch => stringBody (ch :: read) cs
    | none => none
  | c :: cs => if c = '\\' ∨ c.toNat < 32 then none else stringBody (c :: read) cs

/-- The greatest integer that digits are collected up to. -/
def maxSignificand : Nat := Nat.pow 2 64 - 1

/-- An integer that is being read, with the power of ten that its last digit has. Once a digit does
not fit, no further ones are taken. -/
structure Significand where
  value : Nat
  exponent : Int
  full : Bool := false

/-- Take a digit before the point; one that does not fit still counts for the power of ten. -/
def Significand.whole (s : Significand) (c : Char) : Significand :=
  let next := s.value * 10 + digitValue c
  if s.full || maxSignificand < next then { s with exponent := s.exponent + 1, full := true }
  else { s with value := next }

/-- Take a digit behind the point. -/
def Significand.part (s : Significand) (c : Char) : Significand :=
  let next := s.value * 10 + digitValue c
  if s.full || maxSignificand < next then { s with full := true }
  else { s with value := next, exponent := s.exponent - 1 }

/-- A number times a power of ten, `none` where it is too great. Powers below the least one are
applied in steps. -/
def scaleByTen (d : Double) : Nat → Int → Option Double
  | 0, _ => some d
  | fuel + 1, e =>
    if e.natAbs ≤ 308 then
      let power := Double.ofDecimal false 1 e.natAbs
      if 0 ≤ e then
        let product := d.mul power
        if product.isInfinite then none else some product
      else some (d.div power)
    else if d.isZero then some d
    else if 0 ≤ e then none
    else scaleByTen (d.div (Double.ofDecimal false 1 308)) fuel (e + 308)

def double? (negative : Bool) (s : Significand) : Option JsonNumber :=
  (scaleByTen (Double.ofDecimal negative s.value 0) 8 s.exponent).map .double

/-- The digits of an exponent behind its letter, with the sign. -/
def exponent? (cs : List Char) : Option (Int × List Char) :=
  let (negative, cs) :=
    match cs with
    | '+' :: r => (false, r)
    | '-' :: r => (true, r)
    | r => (false, r)
  let digits := cs.takeWhile isDigit
  if digits.isEmpty then none
  else
    let n := digits.foldl (fun n c => n * 10 + digitValue c) 0
    some (if negative then -(n : Int) else n, cs.dropWhile isDigit)

/-- An integer in 64 bits, or the nearest double. -/
def integer (negative : Bool) (n : Nat) : JsonNumber :=
  if negative then
    if 0 < n ∧ n ≤ Nat.pow 2 63 then .int (-n) else .double (Double.ofDecimal true n 0)
  else .int n

/-- Whether digits begin a number: there are some, and none follows a leading zero. -/
def wellBegun : List Char → Bool
  | [] => false
  | '0' :: rest => rest.isEmpty
  | _ => true

def number? (cs : List Char) : Option (JsonNumber × List Char) :=
  let (negative, cs) :=
    match cs with
    | '-' :: r => (true, r)
    | r => (false, r)
  let digits := cs.takeWhile isDigit
  let s : Significand := digits.foldl Significand.whole ⟨0, 0, false⟩
  if !wellBegun digits then none
  else
    match cs.dropWhile isDigit with
    | '.' :: cs =>
      let part := cs.takeWhile isDigit
      if part.isEmpty then none
      else
        let s := part.foldl Significand.part { s with full := false }
        match cs.dropWhile isDigit with
        | c :: cs =>
          if c = 'e' ∨ c = 'E' then do
            let (e, r) ← exponent? cs
            let n ← double? negative { s with exponent := s.exponent + e }
            return (n, r)
          else (double? negative s).map fun n => (n, c :: cs)
        | [] => (double? negative s).map fun n => (n, [])
    | c :: cs =>
      if c = 'e' ∨ c = 'E' then do
        let (e, r) ← exponent? cs
        let n ← double? negative { s with exponent := s.exponent + e }
        return (n, r)
      else if s.full then (double? negative s).map fun n => (n, c :: cs)
      else some (integer negative s.value, c :: cs)
    | [] =>
      if s.full then (double? negative s).map fun n => (n, [])
      else some (integer negative s.value, [])

mutual

/-- A value behind any white space. The fuel bounds the depth of the calls. -/
def value? : Nat → List Char → Option (Json × List Char)
  | 0, _ => none
  | fuel + 1, cs =>
    match skip cs with
    | 'n' :: 'u' :: 'l' :: 'l' :: r => some (.null, r)
    | 't' :: 'r' :: 'u' :: 'e' :: r => some (.bool true, r)
    | 'f' :: 'a' :: 'l' :: 's' :: 'e' :: r => some (.bool false, r)
    | '"' :: r => (stringBody [] r).map fun (s, r) => (.string (String.ofList s), r)
    | '[' :: r =>
      match skip r with
      | ']' :: r => some (.array [], r)
      | r =>
        match value? fuel r with
        | none => none
        | some (v, r) => (items? fuel r).map fun (vs, r) => (.array (v :: vs), r)
    | '\x7b' :: r =>
      match skip r with
      | '\x7d' :: r => some (.object [], r)
      | r =>
        match memberAt? fuel r with
        | none => none
        | some (m, r) => (members? fuel r).map fun (ms, r) => (.object (m :: ms), r)
    | r => (number? r).map fun (n, r) => (.number n, r)

/-- The further items of an array up to its closing bracket. -/
def items? : Nat → List Char → Option (List Json × List Char)
  | 0, _ => none
  | fuel + 1, cs =>
    match skip cs with
    | ']' :: r => some ([], r)
    | ',' :: r =>
      match value? fuel r with
      | none => none
      | some (v, r) => (items? fuel r).map fun (vs, r) => (v :: vs, r)
    | _ => none

/-- A member behind any white space. -/
def memberAt? : Nat → List Char → Option (JsonMember × List Char)
  | 0, _ => none
  | fuel + 1, cs =>
    match skip cs with
    | '"' :: r =>
      match stringBody [] r with
      | none => none
      | some (k, r) =>
        match skip r with
        | ':' :: r => (value? fuel r).map fun (v, r) => (⟨String.ofList k, v⟩, r)
        | _ => none
    | _ => none

def members? : Nat → List Char → Option (List JsonMember × List Char)
  | 0, _ => none
  | fuel + 1, cs =>
    match skip cs with
    | '\x7d' :: r => some ([], r)
    | ',' :: r =>
      match memberAt? fuel r with
      | none => none
      | some (m, r) => (members? fuel r).map fun (ms, r) => (m :: ms, r)
    | _ => none

end

/-- The value of a document. -/
def parse (text : String) : Option Json :=
  let cs := text.toList
  match value? (2 * cs.length + 2) cs with
  | some (v, rest) => if (skip rest).isEmpty then some v else none
  | none => none

/-- The value of a document with at most so many arrays and objects within one another. -/
def parseWithin (depth : Nat) (text : String) : Option Json :=
  (parse text).filter fun v => v.depth ≤ depth

end StructModel.Json
