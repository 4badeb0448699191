import StructModel.Tag.Literal

/-!
# Literals read with words of 32 bits

The number in an escape is made up digit by digit. A reader that keeps it in a word has nothing to
go on with once it outgrows the word. No escape has the digits for that, so such a reader always
ends, and it gives a literal the value that it has.
-/

namespace StructModel.Tag

/-- What stops a reader that keeps numbers in words and cuts texts at positions in bytes. -/
inductive Fault where
  /-- A number outgrows its word. -/
  | overflow
  /-- A position is behind the end of the text. -/
  | outside
  /-- A position is in the midst of a character. -/
  | split
  deriving DecidableEq, Repr

abbrev Checked (α : Type) : Type := Except Fault α

namespace Checked

theorem bind_eq_ok {α β : Type} {x : Checked α} {f : α → Checked β} {b : β}
    (h : x >>= f = .ok b) : ∃ a, x = .ok a ∧ f a = .ok b := by
  cases x with
  | error fault => cases h
  | ok a => exact ⟨a, rfl, h⟩

theorem ok_bind {α β : Type} (a : α) (f : α → Checked β) : (Except.ok a >>= f) = f a := rfl

/-- How many numbers a word can hold. -/
def wordSize : Nat := 0x100000000

def word (n : Nat) : Checked Nat := if n < wordSize then .ok n else .error .overflow

theorem word_of_lt {n : Nat} (h : n < wordSize) : word n = .ok n := if_pos h

/-- The number that some digits make behind another number, and what comes after them. -/
def number (base : Nat) : Nat → Nat → List Char → Checked (Option (Nat × List Char))
  | 0, n, cs => .ok (some (n, cs))
  | count + 1, n, cs => do
    let shifted ← word (n * base)
    match cs with
    | [] => return none
    | c :: cs =>
      match digit? base c with
      | none => return none
      | some d => number base count (← word (shifted + d)) cs

/-- The bytes of an escape from behind its backslash, and what comes after it. -/
def escape : List Char → Checked (Option (List UInt8 × List Char))
  | [] => .ok none
  | c :: cs =>
    match simpleEscape? c with
    | some d => .ok (some (String.utf8EncodeChar d, cs))
    | none =>
      match numeralMode? c with
      | some (.digits form count n) => do
        match ← number form.base count n cs with
        | none => return none
        | some (n, rest) => return (form.bytes? n).map fun part => (part, rest)
      | _ => .ok none

section Lengths

theorem length_of_number {base count n m : Nat} {cs rest : List Char}
    (h : number base count n cs = .ok (some (m, rest))) : rest.length ≤ cs.length := by
  induction count generalizing n cs with
  | zero =>
      cases h
      exact Nat.le_refl _
  | succ count ih =>
      rw [number] at h
      obtain ⟨shifted, -, h⟩ := bind_eq_ok h
      split at h
      · cases h
      · split at h
        · cases h
        · obtain ⟨n, -, h⟩ := bind_eq_ok h
          exact Nat.le_succ_of_le (ih h)

theorem length_of_escape {cs rest : List Char} {part : List UInt8}
    (h : escape cs = .ok (some (part, rest))) : rest.length < cs.length := by
  cases cs with
  | nil => cases h
  | cons c cs =>
      rw [escape] at h
      split at h
      · cases h
        exact Nat.lt_succ_self _
      · split at h
        · obtain ⟨r, hr, h⟩ := bind_eq_ok h
          cases r with
          | none => cases h
          | some p =>
              obtain ⟨q, -, hq⟩ := Option.map_eq_some_iff.mp (Except.ok.inj h)
              cases hq
              exact Nat.lt_succ_of_le (length_of_number hr)
        · cases h

end Lengths

/-- The bytes of the items of a literal. -/
def items : List Char → Checked (Option (List UInt8))
  | [] => .ok (some [])
  | c :: cs =>
    if c = '"' ∨ c = '\n' then .ok none
    else if c = '\\' then
      match _h : escape cs with
      | .error fault => .error fault
      | .ok none => .ok none
      | .ok (some (part, rest)) => do return (← items rest).map (part ++ ·)
    else do return (← items cs).map (String.utf8EncodeChar c ++ ·)
termination_by cs => cs.length
decreasing_by
  · exact Nat.lt_succ_of_lt (length_of_escape _h)
  · exact Nat.lt_succ_self _

/-- The value of an interpreted literal. -/
def unquote (literal : List Char) : Checked (Option String) :=
  match between? '"' literal with
  | none => .ok none
  | some inner => do return (← items inner).bind fun bytes => String.fromUTF8? bytes.toByteArray

/-- The value of a literal of either kind. -/
def literalValue (literal : List Char) : Checked (Option String) :=
  match between? '\x60' literal with
  | some inner => .ok (some (String.ofList (inner.filter (· != '\r'))))
  | none => if literal.head? = some '"' then unquote literal else .ok none

/-- A digit is added to a number that leaves room for it. -/
theorem number_succ {base count n : Nat} (h : (n + 1) * base ≤ wordSize) (hbase : 0 < base)
    (cs : List Char) :
    number base (count + 1) n cs =
      match cs with
      | [] => .ok none
      | c :: cs =>
        match digit? base c with
        | none => .ok none
        | some d => number base count (n * base + d) cs := by
  rw [Nat.add_mul, Nat.one_mul] at h
  rw [number, word_of_lt (by omega), ok_bind]
  cases cs with
  | nil => rfl
  | cons c cs =>
      cases hd : digit? base c with
      | none =>
          simp only [hd]
          rfl
      | some d =>
          have hlt := digit?_lt hd
          simp only [hd, word_of_lt (show n * base + d < wordSize by omega), ok_bind]

/-- There is room for as many digits as the number can be followed by within a word. -/
theorem number_eq_ok (form : Numeral) {count n : Nat} (cs : List Char)
    (h : (n + 1) * Nat.pow form.base (count + 1) ≤ wordSize) :
    ∃ r, number form.base (count + 1) n cs = .ok r ∧
      contents (.digits form (count + 1) n) cs = r.bind fun p =>
        (form.bytes? p.1).bind fun part => (contents .plain p.2).map (part ++ ·) := by
  have hbase : 0 < form.base := by cases form <;> decide
  induction count generalizing n cs with
  | zero =>
      rw [number_succ (by simpa using h) hbase]
      cases cs with
      | nil => exact ⟨none, rfl, rfl⟩
      | cons c cs =>
          simp only [contents]
          cases digit? form.base c with
          | none => exact ⟨none, rfl, rfl⟩
          | some d =>
              refine ⟨some (n * form.base + d, cs), rfl, ?_⟩
              simp only [Nat.le_refl, if_true, Option.bind_some]
              cases form.bytes? (n * form.base + d) <;> rfl
  | succ count ih =>
      have hroom : (n + 1) * form.base * Nat.pow form.base (count + 1) ≤ wordSize := by
        rw [Nat.mul_assoc, Nat.mul_comm form.base]
        exact h
      have hpos : 0 < Nat.pow form.base (count + 1) := Nat.pow_pos hbase
      have hshift := Nat.le_trans (Nat.le_mul_of_pos_right _ hpos) hroom
      rw [number_succ hshift hbase]
      cases cs with
      | nil => exact ⟨none, rfl, rfl⟩
      | cons c cs =>
          simp only [contents]
          cases hd : digit? form.base c with
          | none => exact ⟨none, rfl, rfl⟩
          | some d =>
              have hlt := digit?_lt hd
              have hnext : n * form.base + d + 1 ≤ (n + 1) * form.base := by
                rw [Nat.add_mul]
                omega
              simp only [if_neg (show ¬ count + 1 + 1 ≤ 1 by omega)]
              exact ih cs (Nat.le_trans (Nat.mul_le_mul_right _ hnext) hroom)

/-- The digits of every escape make a number that a word can hold. -/
theorem room_of_numeralMode? {c : Char} {mode : Mode} (h : numeralMode? c = some mode) :
    ∃ form count n, mode = .digits form (count + 1) n ∧
      (n + 1) * Nat.pow form.base (count + 1) ≤ wordSize := by
  unfold numeralMode? at h
  split at h
  · cases h
    exact ⟨.codePoint, 3, 0, rfl, by decide⟩
  · cases h
    exact ⟨.codePoint, 7, 0, rfl, by decide⟩
  · cases h
    exact ⟨.hexByte, 1, 0, rfl, by decide⟩
  · obtain ⟨d, hd, rfl⟩ := Option.map_eq_some_iff.mp h
    have hlt := digit?_lt hd
    refine ⟨.octalByte, 1, d, rfl, ?_⟩
    simp only [Numeral.base, wordSize, Nat.pow_eq]
    omega

theorem escape_eq_ok (cs : List Char) :
    ∃ r, escape cs = .ok r ∧
      contents .escape cs = r.bind fun p => (contents .plain p.2).map (p.1 ++ ·) := by
  cases cs with
  | nil => exact ⟨none, rfl, rfl⟩
  | cons c cs =>
      simp only [escape, contents]
      cases simpleEscape? c with
      | some d => exact ⟨some (String.utf8EncodeChar d, cs), rfl, rfl⟩
      | none =>
          cases hmode : numeralMode? c with
          | none => exact ⟨none, rfl, rfl⟩
          | some mode =>
              obtain ⟨form, count, n, rfl, hroom⟩ := room_of_numeralMode? hmode
              obtain ⟨r, hr, hcontents⟩ := number_eq_ok form cs hroom
              simp only [hr, ok_bind, hcontents]
              cases r with
              | none => exact ⟨none, rfl, rfl⟩
              | some p =>
                  refine ⟨_, rfl, ?_⟩
                  simp only [Option.bind_some]
                  cases form.bytes? p.1 <;> rfl

theorem items_eq (cs : List Char) : items cs = .ok (contents .plain cs) := by
  fun_induction items cs with
  | case1 => rfl
  | case2 c cs hends => rw [contents, if_pos hends]
  | case3 cs fault hescape hends =>
      obtain ⟨r, hr, -⟩ := escape_eq_ok cs
      cases hr.symm.trans hescape
  | case4 cs hescape hends =>
      obtain ⟨r, hr, hcontents⟩ := escape_eq_ok cs
      cases hr.symm.trans hescape
      rw [contents, if_neg hends, if_pos rfl, hcontents]
      rfl
  | case5 cs part rest hescape hends ih =>
      obtain ⟨r, hr, hcontents⟩ := escape_eq_ok cs
      cases hr.symm.trans hescape
      rw [contents, if_neg hends, if_pos rfl, hcontents, ih]
      rfl
  | case6 c cs hends hslash ih =>
      rw [contents, if_neg hends, if_neg hslash, ih]
      rfl

theorem unquote_eq (literal : List Char) : unquote literal = .ok (Tag.unquote literal) := by
  unfold unquote Tag.unquote
  cases between? '"' literal with
  | none => rfl
  | some inner =>
      simp only [items_eq, ok_bind]
      cases contents .plain inner <;> rfl

theorem literalValue_eq (literal : List Char) :
    literalValue literal = .ok (Tag.literalValue literal) := by
  unfold literalValue Tag.literalValue
  cases between? '\x60' literal with
  | some inner => rfl
  | none =>
      by_cases hquote : literal.head? = some '"'
      · simp only [if_pos hquote, unquote_eq]
      · simp only [if_neg hquote]

end Checked

end StructModel.Tag
