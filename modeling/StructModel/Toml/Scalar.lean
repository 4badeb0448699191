import StructModel.Toml.Value

/-!
# Scalars without quotes

A scalar without quotes ends where a blank, a comma, a closing bracket or a comment begins. It is a
boolean, a number or a time.
-/

namespace StructModel.Toml

open StructModel.Decimal

def isDigit (c : Char) : Bool := '0' ≤ c && c ≤ '9'

def isHexDigit (c : Char) : Bool :=
  isDigit c || ('a' ≤ c && c ≤ 'f') || ('A' ≤ c && c ≤ 'F')

def digitValue (c : Char) : Nat :=
  if isDigit c then c.toNat - '0'.toNat
  else if 'a' ≤ c ∧ c ≤ 'f' then c.toNat - 'a'.toNat + 10
  else c.toNat - 'A'.toNat + 10

/-- Further digits of a run, single underscores between them, and the rest. -/
def moreDigits (p : Char → Bool) : List Char → List Char × List Char
  | '_' :: c :: cs =>
    if p c then
      let (ds, r) := moreDigits p cs
      (c :: ds, r)
    else ([], '_' :: c :: cs)
  | c :: cs =>
    if p c then
      let (ds, r) := moreDigits p cs
      (c :: ds, r)
    else ([], c :: cs)
  | [] => ([], [])

/-- A run of digits, single underscores between them, and the rest. -/
def digits? (p : Char → Bool) : List Char → Option (List Char × List Char)
  | c :: cs =>
    if p c then
      let (ds, r) := moreDigits p cs
      some (c :: ds, r)
    else none
  | [] => none

def numberOf (base : Nat) (ds : List Char) : Nat :=
  ds.foldl (fun n c => n * base + digitValue c) 0

/-- A run of digits that is a decimal integer: no zero in front. -/
def decimal? (cs : List Char) : Option (List Char × List Char) :=
  match digits? isDigit cs with
  | some ('0' :: _ :: _, _) => none
  | other => other

def splitSign : List Char → Bool × List Char
  | '+' :: cs => (false, cs)
  | '-' :: cs => (true, cs)
  | cs => (false, cs)

/-- An integer, if 64 bits hold it. -/
def integerInRange (n : Int) : Option Value :=
  if -(Nat.pow 2 63 : Int) ≤ n ∧ n < Nat.pow 2 63 then some (.integer n) else none

/-- An integer of a base whose mark has been read. -/
def based? (base : Nat) (p : Char → Bool) (cs : List Char) : Option Value :=
  match digits? p cs with
  | some (ds, []) => integerInRange (numberOf base ds)
  | _ => none

def isOctal (c : Char) : Bool := '0' ≤ c && c ≤ '7'

def isBinary (c : Char) : Bool := c == '0' || c == '1'

def integer? (cs : List Char) : Option Value :=
  match cs with
  | '0' :: 'x' :: r => based? 16 isHexDigit r
  | '0' :: 'o' :: r => based? 8 isOctal r
  | '0' :: 'b' :: r => based? 2 isBinary r
  | _ =>
    let (negative, r) := splitSign cs
    match decimal? r with
    | some (ds, []) =>
      let n : Int := numberOf 10 ds
      integerInRange (if negative then -n else n)
    | _ => none

/-- An exponent with its letter; nothing is the exponent zero. -/
def exponent? : List Char → Option Int
  | [] => some 0
  | c :: cs =>
    if c = 'e' ∨ c = 'E' then
      let (negative, r) := splitSign cs
      match digits? isDigit r with
      | some (ds, []) =>
        let n : Int := numberOf 10 ds
        some (if negative then -n else n)
      | _ => none
    else none

/-- A number with a fraction or an exponent, or one that is none. -/
def double? (cs : List Char) : Option Value :=
  let (negative, r) := splitSign cs
  if r = ['i', 'n', 'f'] then some (.double (.infinite negative))
  else if r = ['n', 'a', 'n'] then some (.double .nan)
  else do
    let (whole, r) ← decimal? r
    let (part, r) ←
      match r with
      | '.' :: r => digits? isDigit r
      | [] => none
      | r => some ([], r)
    let e ← exponent? r
    let d := Double.ofDecimal negative (numberOf 10 (whole ++ part)) (e - part.length)
    if d = .infinite false then none else some (.double d)

/-- A number of exactly so many digits, and the rest. -/
def fixed? (n : Nat) (cs : List Char) : Option (Nat × List Char) :=
  let ds := cs.take n
  if ds.length = n ∧ ds.all isDigit then some (numberOf 10 ds, cs.drop n) else none

def expect? (c : Char) : List Char → Option (List Char)
  | d :: cs => if d = c then some cs else none
  | [] => none

def daysInMonth (year month : Nat) : Nat :=
  if month = 2 then
    if year % 4 = 0 ∧ (year % 100 ≠ 0 ∨ year % 400 = 0) then 29 else 28
  else if month = 4 ∨ month = 6 ∨ month = 9 ∨ month = 11 then 30
  else 31

def date? (cs : List Char) : Option (List Char) := do
  let (year, cs) ← fixed? 4 cs
  let cs ← expect? '-' cs
  let (month, cs) ← fixed? 2 cs
  let cs ← expect? '-' cs
  let (day, cs) ← fixed? 2 cs
  if 1 ≤ month ∧ month ≤ 12 ∧ 1 ≤ day ∧ day ≤ daysInMonth year month then some cs else none

def time? (cs : List Char) : Option (List Char) := do
  let (hour, cs) ← fixed? 2 cs
  let cs ← expect? ':' cs
  let (minute, cs) ← fixed? 2 cs
  let cs ← expect? ':' cs
  let (second, cs) ← fixed? 2 cs
  if hour ≤ 23 ∧ minute ≤ 59 ∧ second ≤ 60 then
    match cs with
    | '.' :: r =>
      let ds := r.takeWhile isDigit
      if ds.isEmpty then none else some (r.dropWhile isDigit)
    | cs => some cs
  else none

/-- The offset of a time from the universal time. -/
def offset? : List Char → Option (List Char)
  | 'Z' :: cs => some cs
  | 'z' :: cs => some cs
  | s :: cs =>
    if s = '+' ∨ s = '-' then do
      let (hour, cs) ← fixed? 2 cs
      let cs ← expect? ':' cs
      let (minute, cs) ← fixed? 2 cs
      if hour ≤ 23 ∧ minute ≤ 59 then some cs else none
    else none
  | [] => none

/-- Whether a text is a time, which an offset may follow after a date. -/
def isTime (offset : Bool) (cs : List Char) : Bool :=
  match time? cs with
  | some [] => true
  | some r => offset && offset? r == some []
  | none => false

def isDatetime (cs : List Char) : Bool :=
  match date? cs with
  | some [] => true
  | some (c :: r) => (c == 'T' || c == 't' || c == ' ') && isTime true r
  | none => isTime false cs

def scalar? (cs : List Char) : Option Value :=
  if cs = ['t', 'r', 'u', 'e'] then some (.boolean true)
  else if cs = ['f', 'a', 'l', 's', 'e'] then some (.boolean false)
  else if isDatetime cs then some .datetime
  else
    match double? cs with
    | some v => some v
    | none => integer? cs

/-- Whether a character is part of a scalar without quotes. -/
def isScalarChar (c : Char) : Bool :=
  isHexDigit c || ('a' ≤ c && c ≤ 'z') || ('A' ≤ c && c ≤ 'Z') ||
    c == '+' || c == '-' || c == '.' || c == ':' || c == '_'

/-- The scalar at the head of a text. A blank between a date and a time is part of it. -/
def splitScalar (cs : List Char) : List Char × List Char :=
  let head := cs.takeWhile isScalarChar
  match cs.dropWhile isScalarChar with
  | ' ' :: r =>
    let tail := r.takeWhile isScalarChar
    if date? head == some [] && isTime true tail then
      (head ++ ' ' :: tail, r.dropWhile isScalarChar)
    else (head, ' ' :: r)
  | r => (head, r)

end StructModel.Toml
