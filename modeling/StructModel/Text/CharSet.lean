/-!
# Sets of characters

A property of characters is kept as the list of its code point ranges. The written form is the one
of the character database: hexadecimal bounds joined by a hyphen, a lone code point for a range of
one, blanks between ranges.
-/

namespace StructModel.Text

/-- Disjoint ranges of code points, both ends included, in increasing order. -/
structure CharSet where
  ranges : Array (Nat × Nat)

namespace CharSet

def hexDigit? (c : Char) : Option Nat :=
  if '0' ≤ c ∧ c ≤ '9' then some (c.toNat - '0'.toNat)
  else if 'a' ≤ c ∧ c ≤ 'f' then some (c.toNat - 'a'.toNat + 10)
  else none

/-- What has been read of a written set: the complete ranges, the lower bound of the range that is
being read, and the number that is being read. -/
structure Reading where
  ranges : Array (Nat × Nat) := #[]
  lower : Option Nat := none
  number : Option Nat := none

def Reading.close (r : Reading) : Reading :=
  match r.lower, r.number with
  | some a, some b => ⟨r.ranges.push (a, b), none, none⟩
  | none, some b => ⟨r.ranges.push (b, b), none, none⟩
  | _, none => ⟨r.ranges, none, none⟩

def Reading.next (r : Reading) (c : Char) : Reading :=
  match hexDigit? c with
  | some d => { r with number := some (r.number.getD 0 * 16 + d) }
  | none => if c = '-' then { r with lower := r.number, number := none } else r.close

def ofText (text : String) : CharSet :=
  ⟨(text.toList.foldl Reading.next {}).close.ranges⟩

/-- Binary search among the ranges with an index in `[lo, hi)`. -/
def search (ranges : Array (Nat × Nat)) (n : Nat) : Nat → Nat → Nat → Bool
  | 0, _, _ => false
  | fuel + 1, lo, hi =>
    if hi ≤ lo then false
    else
      let mid := (lo + hi) / 2
      match ranges[mid]? with
      | none => false
      | some (a, b) =>
        if n < a then search ranges n fuel lo mid
        else if b < n then search ranges n fuel (mid + 1) hi
        else true

def contains (s : CharSet) (c : Char) : Bool :=
  search s.ranges c.toNat (s.ranges.size + 1) 0 s.ranges.size

end CharSet

end StructModel.Text
