/-!
# String literals

An interpreted literal stands in double quotes. Its items are characters and escapes; an escape for
a character stands for the UTF-8 encoding of the character, one for a byte for that byte alone.
The literal has a value when all the bytes together are the encoding of a text. A raw literal stands
in back quotes and is taken as it is, carriage returns left out.
-/

namespace StructModel.Tag

/-- What the digits of an escape stand for. -/
inductive Numeral where
  | codePoint
  | hexByte
  | octalByte
  deriving DecidableEq, Repr

namespace Numeral

def base : Numeral → Nat
  | codePoint => 16
  | hexByte => 16
  | octalByte => 8

/-- The bytes that a number stands for. -/
def bytes? : Numeral → Nat → Option (List UInt8)
  | codePoint, n => if n.isValidChar then some (String.utf8EncodeChar (Char.ofNat n)) else none
  | hexByte, n => if n < 256 then some [UInt8.ofNat n] else none
  | octalByte, n => if n < 256 then some [UInt8.ofNat n] else none

end Numeral

/-- The value of a digit, of either case, in a base up to 16. -/
def digit? (base : Nat) (c : Char) : Option Nat :=
  let value :=
    if '0' ≤ c ∧ c ≤ '9' then some (c.toNat - '0'.toNat)
    else if 'a' ≤ c ∧ c ≤ 'f' then some (c.toNat - 'a'.toNat + 10)
    else if 'A' ≤ c ∧ c ≤ 'F' then some (c.toNat - 'A'.toNat + 10)
    else none
  value.filter (· < base)

theorem digit?_lt {base n : Nat} {c : Char} (h : digit? base c = some n) : n < base := by
  simpa using (Option.filter_eq_some_iff.mp h).2

/-- The character that a letter stands for after a backslash. -/
def simpleEscape? : Char → Option Char
  | 'a' => some '\x07'
  | 'b' => some '\x08'
  | 'f' => some '\x0c'
  | 'n' => some '\n'
  | 'r' => some '\r'
  | 't' => some '\t'
  | 'v' => some '\x0b'
  | '\\' => some '\\'
  | '"' => some '"'
  | _ => none

/-- How the items of a literal are read: between items, after a backslash, or within the digits of
an escape, with the number of those still to come and the number read so far. -/
inductive Mode where
  | plain
  | escape
  | digits (form : Numeral) (left value : Nat)
  deriving DecidableEq, Repr

/-- The mode after the letter of an escape with digits. -/
def numeralMode? (c : Char) : Option Mode :=
  match c with
  | 'u' => some (.digits .codePoint 4 0)
  | 'U' => some (.digits .codePoint 8 0)
  | 'x' => some (.digits .hexByte 2 0)
  | c => (digit? 8 c).map fun d => .digits .octalByte 2 d

/-- The bytes of the items between the quotes. -/
def contents : Mode → List Char → Option (List UInt8)
  | .plain, [] => some []
  | .escape, [] => none
  | .digits _ _ _, [] => none
  | .plain, c :: cs =>
    if c = '"' ∨ c = '\n' then none
    else if c = '\\' then contents .escape cs
    else (contents .plain cs).map (String.utf8EncodeChar c ++ ·)
  | .escape, c :: cs =>
    match simpleEscape? c with
    | some d => (contents .plain cs).map (String.utf8EncodeChar d ++ ·)
    | none =>
      match numeralMode? c with
      | some mode => contents mode cs
      | none => none
  | .digits form left value, c :: cs =>
    match digit? form.base c with
    | none => none
    | some d =>
      if left ≤ 1 then
        match form.bytes? (value * form.base + d) with
        | none => none
        | some bs => (contents .plain cs).map (bs ++ ·)
      else contents (.digits form (left - 1) (value * form.base + d)) cs

/-- What stands between two equal quotes at the ends of a text. -/
def between? (quote : Char) : List Char → Option (List Char)
  | [] => none
  | c :: cs => if c = quote ∧ cs.getLast? = some quote then some cs.dropLast else none

theorem between?_eq_some_iff {quote : Char} {cs inner : List Char} :
    between? quote cs = some inner ↔ cs = quote :: (inner ++ [quote]) := by
  cases cs with
  | nil => simp [between?]
  | cons c cs =>
    constructor
    · intro h
      simp only [between?] at h
      split at h
      · rename_i hc
        obtain ⟨rfl, hl⟩ := hc
        obtain ⟨ys, rfl⟩ := List.getLast?_eq_some_iff.mp hl
        simp_all
      · simp at h
    · intro h
      obtain ⟨rfl, rfl⟩ := List.cons.inj h
      simp [between?]

/-- The value of an interpreted literal. -/
def unquote (literal : List Char) : Option String :=
  match between? '"' literal with
  | none => none
  | some inner =>
    match contents .plain inner with
    | none => none
    | some bytes => String.fromUTF8? bytes.toByteArray

/-- The value of a literal of either kind. -/
def literalValue (literal : List Char) : Option String :=
  match between? '\x60' literal with
  | some inner => some (String.ofList (inner.filter (· != '\r')))
  | none => if literal.head? = some '"' then unquote literal else none

end StructModel.Tag
