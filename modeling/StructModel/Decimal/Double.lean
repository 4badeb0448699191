/-!
# Double-precision numbers and their decimal text

A finite number is a sign, a mantissa below 2 ^ 53 and a power of two. Rounding goes to the nearest
number, from halfway to the even mantissa. The text of a number has the fewest digits that round to
the number again and never an exponent.
-/

namespace StructModel.Decimal

inductive Double where
  | finite (negative : Bool) (mantissa : Nat) (exponent : Int)
  | infinite (negative : Bool)
  | nan
  deriving DecidableEq, Repr

/-- The quotient, to the nearest integer, from halfway to the even one. -/
def roundDiv (num den : Nat) : Nat :=
  let q := num / den
  let r := num % den
  if 2 * r < den then q else if den < 2 * r then q + 1 else q + q % 2

/-- `num / den` in units of `2 ^ e`, as a quotient. -/
def scaled (num den : Nat) (e : Int) : Nat × Nat :=
  if e < 0 then (num * Nat.pow 2 e.natAbs, den) else (num, den * Nat.pow 2 e.natAbs)

/-- `n * 2 ^ e` as a quotient. -/
def atPower (n : Nat) (e : Int) : Nat × Nat :=
  if e < 0 then (n, Nat.pow 2 e.natAbs) else (n * Nat.pow 2 e.natAbs, 1)

namespace Double

def zero (negative : Bool) : Double := finite negative 0 (-1074)

/-- A mantissa in its normal form: at most 53 bits, and that many unless the exponent is the
least. -/
def normalize (negative : Bool) (m : Nat) (e : Int) : Double :=
  if m = 0 then zero negative
  else
    let (m, e) := if m = Nat.pow 2 53 then (Nat.pow 2 52, e + 1) else (m, e)
    if (1024 : Int) ≤ m.log2 + e then infinite negative else finite negative m e

/-- The number nearest to `num / den`. -/
def ofRatio (negative : Bool) (num den : Nat) : Double :=
  if num = 0 then zero negative
  else
    let guess : Int := max (-1074) ((num.log2 : Int) - den.log2 - 53)
    let (n, d) := scaled num den guess
    let e := if n / d < Nat.pow 2 53 then guess else guess + 1
    let (n, d) := scaled num den e
    normalize negative (roundDiv n d) e

/-- The number nearest to `digits * 10 ^ exponent`. Beyond these exponents it is zero or
infinite. -/
def ofDecimal (negative : Bool) (digits : Nat) (exponent : Int) : Double :=
  let size : Int := (Nat.toDigits 10 digits).length
  if digits = 0 || size + exponent < -400 then zero negative
  else if 400 < size + exponent then infinite negative
  else if exponent < 0 then ofRatio negative digits (Nat.pow 10 exponent.natAbs)
  else ofRatio negative (digits * Nat.pow 10 exponent.natAbs) 1

/-- The product of two numbers without their signs, rounded. -/
def mul : Double → Double → Double
  | finite s m e, finite _ n f =>
    let (a, b) := atPower (m * n) (e + f)
    ofRatio s a b
  | nan, _ | _, nan => nan
  | infinite s, _ | finite s _ _, _ => infinite s

/-- The quotient of two numbers without their signs, rounded. The divisor is not zero. -/
def div : Double → Double → Double
  | finite s m e, finite _ n f =>
    let (a, b) := atPower m (e - f)
    ofRatio s a (b * n)
  | infinite s, finite _ _ _ => infinite s
  | finite s _ _, infinite _ => zero s
  | _, _ => nan

def isZero : Double → Bool
  | finite _ m _ => m == 0
  | _ => false

def isInfinite : Double → Bool
  | infinite _ => true
  | _ => false

/-- The numbers that round to `m * 2 ^ e` lie between these bounds, which are in units of
`2 ^ (e - 2)`. -/
def bounds (m : Nat) (e : Int) : Nat × Nat :=
  if m = Nat.pow 2 52 && -1074 < e then (4 * m - 1, 4 * m + 2) else (4 * m - 2, 4 * m + 2)

/-- A quotient in units of `10 ^ p`. -/
def inTens (num den : Nat) (p : Int) : Nat × Nat :=
  if p < 0 then (num * Nat.pow 10 p.natAbs, den) else (num, den * Nat.pow 10 p.natAbs)

/-- The multiple of `10 ^ p` that is nearest to `m * 2 ^ e` and rounds to it, if there is one. -/
def multiple? (m : Nat) (e : Int) (p : Int) : Option Nat :=
  let (n, d) := atPower (4 * m) (e - 2)
  let (n, d) := inTens n d p
  let (low, high) := bounds m e
  let (lowN, lowD) := atPower low (e - 2)
  let (lowN, lowD) := inTens lowN lowD p
  let (highN, highD) := atPower high (e - 2)
  let (highN, highD) := inTens highN highD p
  let inside (k : Nat) : Bool :=
    if m % 2 = 0 then lowN ≤ k * lowD && k * highD ≤ highN
    else lowN < k * lowD && k * highD < highN
  let nearest := roundDiv n d
  let floor := n / d
  if inside nearest then some nearest
  else if inside floor then some floor
  else if inside (floor + 1) then some (floor + 1)
  else none

/-- The shortest decimal, searched among the multiples of ever smaller powers of ten. -/
def shortest (m : Nat) (e : Int) : Nat → Int → Nat × Int
  | 0, p => (0, p)
  | fuel + 1, p =>
    match multiple? m e p with
    | some k => if k = 0 then shortest m e fuel (p - 1) else (k, p)
    | none => shortest m e fuel (p - 1)

/-- `digits * 10 ^ p` without an exponent. -/
def positional (digits : Nat) (p : Int) : String :=
  let text := Nat.toDigits 10 digits
  if 0 ≤ p then String.ofList (text ++ List.replicate p.natAbs '0')
  else
    let places := p.natAbs
    let padded := List.replicate (places + 1 - text.length) '0' ++ text
    String.ofList (padded.take (padded.length - places) ++ '.' :: padded.drop (padded.length - places))

/-- The text of a number. Whole numbers have no point. -/
def text : Double → String
  | nan => "NaN"
  | infinite negative => if negative then "-inf" else "inf"
  | finite negative m e =>
    let body :=
      if m = 0 then "0"
      else
        let (k, p) := shortest m e 700 310
        positional k p
    if negative then "-" ++ body else body

/-- The text of a number with a fraction part, for a finite one. -/
def textWithFraction (d : Double) : String :=
  match d with
  | finite _ _ _ => let s := d.text; if s.toList.contains '.' then s else s ++ ".0"
  | _ => d.text

end Double

end StructModel.Decimal
