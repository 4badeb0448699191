import StructModel.Tag.Literal

/-!
# What an interpreted literal stands for

The items of a literal and the bytes that each of them stands for are given by rules. Reading
accepts the rows of items between two quotes whose bytes, all together, are the encoding of a text,
and it accepts nothing else.
-/

namespace StructModel.Tag

/-- A digit of either case and what it stands for. -/
def IsDigit (base : Nat) (c : Char) (d : Nat) : Prop :=
  d < base ∧ (c = Nat.digitChar d ∨ c = (Nat.digitChar d).toUpper)

/-- Digits, written behind the number `m`, make it the number `n`. -/
inductive Writes (base : Nat) : Nat → List Char → Nat → Prop
  | nil (n : Nat) : Writes base n [] n
  | cons {m n d : Nat} {c : Char} {cs : List Char} (hdigit : IsDigit base c d)
      (tail : Writes base (m * base + d) cs n) : Writes base m (c :: cs) n

/-- The letters that stand for a character behind a backslash, each with its character. -/
def letterEscapes : List (Char × Char) :=
  [('a', '\x07'), ('b', '\x08'), ('f', '\x0c'), ('n', '\n'), ('r', '\r'), ('t', '\t'),
    ('v', '\x0b'), ('\\', '\\'), ('"', '"')]

/-- The letters in front of a code point, each with the number of its digits. -/
def codePointEscapes : List (Char × Nat) := [('u', 4), ('U', 8)]

/-- The items of a literal with the bytes that they stand for. -/
inductive Item : List Char → List UInt8 → Prop
  | plain {c : Char} (hquote : c ≠ '"') (hslash : c ≠ '\\') (hline : c ≠ '\n') :
      Item [c] (String.utf8EncodeChar c)
  | letter {e c : Char} (h : (e, c) ∈ letterEscapes) : Item ['\\', e] (String.utf8EncodeChar c)
  | codePoint {e : Char} {count n : Nat} {cs : List Char} (h : (e, count) ∈ codePointEscapes)
      (hlength : cs.length = count) (hcs : Writes 16 0 cs n)
      (hscalar : n < 0xd800 ∨ 0xdfff < n ∧ n ≤ 0x10ffff) :
      Item ('\\' :: e :: cs) (String.utf8EncodeChar (Char.ofNat n))
  | hexByte {n : Nat} {cs : List Char} (hlength : cs.length = 2) (hcs : Writes 16 0 cs n) :
      Item ('\\' :: 'x' :: cs) [UInt8.ofNat n]
  | octalByte {n : Nat} {cs : List Char} (hlength : cs.length = 3) (hcs : Writes 8 0 cs n)
      (hbyte : n ≤ 255) : Item ('\\' :: cs) [UInt8.ofNat n]

/-- A row of items with all their bytes. -/
inductive Items : List Char → List UInt8 → Prop
  | nil : Items [] []
  | cons {cs ds : List Char} {bs es : List UInt8} (head : Item cs bs) (tail : Items ds es) :
      Items (cs ++ ds) (bs ++ es)

/-- A literal stands for the text whose encoding the bytes of its items are. -/
def Denotes (literal : List Char) (s : String) : Prop :=
  ∃ cs bytes, literal = '"' :: (cs ++ ['"']) ∧ Items cs bytes ∧ bytes.toByteArray = s.toUTF8

section Digits

theorem digit?_digitChar :
    ∀ d < 16, digit? 16 (Nat.digitChar d) = some d ∧
      digit? 16 (Nat.digitChar d).toUpper = some d := by
  decide

/-- A smaller base has fewer digits, with the same values. -/
theorem digit?_eq_some_of_lt {base d : Nat} {c : Char} (h : digit? 16 c = some d)
    (hd : d < base) : digit? base c = some d := by
  unfold digit? at h ⊢
  obtain ⟨hvalue, -⟩ := Option.filter_eq_some_iff.mp h
  exact Option.filter_eq_some_iff.mpr ⟨hvalue, by simpa using hd⟩

/-- The characters of a range of codes are known one by one. -/
private theorem isDigit_of_range {base first : Nat} {c : Char} (last value : Nat)
    (hfirst : first ≤ c.toNat) (hlast : c.toNat ≤ last) (hlt : c.toNat - first + value < base)
    (hall : ∀ k ≤ last - first, Char.ofNat (first + k) = Nat.digitChar (k + value) ∨
      Char.ofNat (first + k) = (Nat.digitChar (k + value)).toUpper) :
    IsDigit base c (c.toNat - first + value) := by
  refine ⟨hlt, ?_⟩
  have hc := hall (c.toNat - first) (by omega)
  rwa [Nat.add_sub_cancel' hfirst, Char.ofNat_toNat] at hc

theorem digit?_eq_some_iff {base d : Nat} {c : Char} (hbase : base ≤ 16) :
    digit? base c = some d ↔ IsDigit base c d := by
  constructor
  · intro h
    have hlt := digit?_lt h
    obtain ⟨hvalue, -⟩ := Option.filter_eq_some_iff.mp h
    split at hvalue
    · rename_i hc
      cases hvalue
      exact isDigit_of_range 57 0 hc.1 hc.2 hlt (by decide)
    · split at hvalue
      · rename_i hc
        cases hvalue
        exact isDigit_of_range 102 10 hc.1 hc.2 hlt (by decide)
      · split at hvalue
        · rename_i hc
          cases hvalue
          exact isDigit_of_range 70 10 hc.1 hc.2 hlt (by decide)
        · cases hvalue
  · rintro ⟨hlt, rfl | rfl⟩
    · exact digit?_eq_some_of_lt (digit?_digitChar d (by omega)).1 hlt
    · exact digit?_eq_some_of_lt (digit?_digitChar d (by omega)).2 hlt

/-- A number grows by a factor with each digit. -/
theorem Writes.lt {base m n : Nat} {cs : List Char} (h : Writes base m cs n) :
    n < (m + 1) * Nat.pow base cs.length := by
  induction h with
  | nil n => simp
  | @cons m n d c cs hdigit tail ih =>
      have hstep : m * base + d + 1 ≤ (m + 1) * base := by
        have := hdigit.1
        rw [Nat.add_mul]
        omega
      calc n < (m * base + d + 1) * Nat.pow base cs.length := ih
        _ ≤ (m + 1) * base * Nat.pow base cs.length := Nat.mul_le_mul_right _ hstep
        _ = (m + 1) * (Nat.pow base cs.length * base) := by
            rw [Nat.mul_assoc, Nat.mul_comm base]
        _ = (m + 1) * Nat.pow base (c :: cs).length := rfl

theorem Numeral.base_le (form : Numeral) : form.base ≤ 16 := by
  cases form <;> decide

end Digits

section Reading

variable {form : Numeral} {left m n : Nat} {front : List Char}

/-- Digits are read one by one up to the last one, which settles the bytes. -/
theorem contents_digits_cons {c : Char} {d : Nat} (h : IsDigit form.base c d) (cs : List Char) :
    contents (.digits form left m) (c :: cs) =
      if left ≤ 1 then
        (form.bytes? (m * form.base + d)).bind fun part => (contents .plain cs).map (part ++ ·)
      else contents (.digits form (left - 1) (m * form.base + d)) cs := by
  simp only [contents, (digit?_eq_some_iff form.base_le).mpr h]
  cases form.bytes? (m * form.base + d) <;> rfl

theorem exists_digit_of_contents {cs : List Char} {bytes : List UInt8}
    (h : contents (.digits form left m) cs = some bytes) :
    ∃ c d rest, cs = c :: rest ∧ IsDigit form.base c d := by
  cases cs with
  | nil => cases h
  | cons c rest =>
      cases hread : digit? form.base c with
      | none =>
          rw [contents, hread] at h
          cases h
      | some d => exact ⟨c, d, rest, rfl, (digit?_eq_some_iff form.base_le).mp hread⟩

/-- The digits of an escape are read to their end. -/
theorem contents_digits (form : Numeral) (hlength : front.length = left + 1)
    (h : Writes form.base m front n) (rest : List Char) :
    contents (.digits form (left + 1) m) (front ++ rest) =
      (form.bytes? n).bind fun part => (contents .plain rest).map (part ++ ·) := by
  induction left generalizing m front with
  | zero =>
      obtain ⟨c, rfl⟩ := List.length_eq_one_iff.mp hlength
      cases h with
      | cons hdigit tail =>
          cases tail
          rw [List.singleton_append, contents_digits_cons hdigit, if_pos (Nat.le_refl 1)]
  | succ left ih =>
      cases h with
      | nil => cases hlength
      | cons hdigit tail =>
          rw [List.cons_append, contents_digits_cons hdigit, if_neg (by omega)]
          exact ih (Nat.succ.inj hlength) tail

/-- Digits that are read make a number, as many of them as asked for, and the number has bytes. -/
theorem exists_of_contents_digits {cs : List Char} {bytes : List UInt8}
    (h : contents (.digits form (left + 1) m) cs = some bytes) :
    ∃ front rest n part others, cs = front ++ rest ∧ bytes = part ++ others ∧
      front.length = left + 1 ∧ Writes form.base m front n ∧ form.bytes? n = some part ∧
      contents .plain rest = some others := by
  induction left generalizing m cs with
  | zero =>
      obtain ⟨c, d, rest, rfl, hdigit⟩ := exists_digit_of_contents h
      rw [contents_digits_cons hdigit, if_pos (Nat.le_refl 1)] at h
      obtain ⟨part, hpart, h⟩ := Option.bind_eq_some_iff.mp h
      obtain ⟨others, hothers, rfl⟩ := Option.map_eq_some_iff.mp h
      exact ⟨[c], rest, _, part, others, rfl, rfl, rfl, .cons hdigit (.nil _), hpart, hothers⟩
  | succ left ih =>
      obtain ⟨c, d, rest, rfl, hdigit⟩ := exists_digit_of_contents h
      rw [contents_digits_cons hdigit, if_neg (by omega)] at h
      obtain ⟨front, rest, n, part, others, rfl, rfl, hlength, hwrites, hpart, hothers⟩ := ih h
      exact ⟨c :: front, rest, n, part, others, rfl, rfl, congrArg (· + 1) hlength,
        .cons hdigit hwrites, hpart, hothers⟩

theorem simpleEscape?_eq_some_iff {e c : Char} :
    simpleEscape? e = some c ↔ (e, c) ∈ letterEscapes := by
  unfold simpleEscape?
  split <;> simp_all [letterEscapes, eq_comm]

section Bytes

variable {part : List UInt8}

theorem bytes?_codePoint_eq_some_iff :
    Numeral.codePoint.bytes? n = some part ↔
      (n < 0xd800 ∨ 0xdfff < n ∧ n ≤ 0x10ffff) ∧ part = String.utf8EncodeChar (Char.ofNat n) := by
  have hscalar : n.isValidChar ↔ n < 0xd800 ∨ 0xdfff < n ∧ n ≤ 0x10ffff := by
    simp only [Nat.isValidChar]
    omega
  simp [Numeral.bytes?, hscalar, eq_comm]

theorem bytes?_hexByte_eq_some_iff :
    Numeral.hexByte.bytes? n = some part ↔ n ≤ 255 ∧ part = [UInt8.ofNat n] := by
  simp [Numeral.bytes?, Nat.lt_succ_iff, eq_comm]

theorem bytes?_octalByte_eq_some_iff :
    Numeral.octalByte.bytes? n = some part ↔ n ≤ 255 ∧ part = [UInt8.ofNat n] := by
  simp [Numeral.bytes?, Nat.lt_succ_iff, eq_comm]

end Bytes

section Escapes

variable {e : Char}

theorem numeralMode?_codePoint {count : Nat} (h : (e, count) ∈ codePointEscapes) :
    simpleEscape? e = none ∧ numeralMode? e = some (.digits .codePoint (count - 1 + 1) 0) ∧
      count = count - 1 + 1 := by
  simp only [codePointEscapes, List.mem_cons, Prod.mk.injEq, List.not_mem_nil, or_false] at h
  rcases h with ⟨rfl, rfl⟩ | ⟨rfl, rfl⟩ <;> exact ⟨rfl, rfl, rfl⟩

/-- An octal digit has no character of its own behind a backslash. -/
theorem numeralMode?_octalByte {d : Nat} (h : IsDigit 8 e d) :
    simpleEscape? e = none ∧ numeralMode? e = some (.digits .octalByte 2 d) := by
  have hall : ∀ d < 8, (Nat.digitChar d).toUpper = Nat.digitChar d ∧
      simpleEscape? (Nat.digitChar d) = none ∧
      numeralMode? (Nat.digitChar d) = some (.digits .octalByte 2 d) := by
    decide
  obtain ⟨hlt, he⟩ := h
  obtain ⟨hupper, hescape⟩ := hall d hlt
  rw [hupper, or_self] at he
  rw [he]
  exact hescape

/-- There are three kinds of escapes with digits. -/
theorem numeralMode?_eq_some {mode : Mode} (h : numeralMode? e = some mode) :
    (∃ left, (e, left + 1) ∈ codePointEscapes ∧ mode = .digits .codePoint (left + 1) 0) ∨
      e = 'x' ∧ mode = .digits .hexByte 2 0 ∨
      ∃ d, IsDigit 8 e d ∧ mode = .digits .octalByte 2 d := by
  unfold numeralMode? at h
  split at h
  · cases h
    exact Or.inl ⟨3, by decide, rfl⟩
  · cases h
    exact Or.inl ⟨7, by decide, rfl⟩
  · cases h
    exact Or.inr (Or.inl ⟨rfl, rfl⟩)
  · obtain ⟨d, hd, rfl⟩ := Option.map_eq_some_iff.mp h
    exact Or.inr (Or.inr ⟨d, (digit?_eq_some_iff (by decide)).mp hd, rfl⟩)

/-- Behind a backslash a letter without a character of its own begins the digits of an escape. -/
theorem contents_numeral {mode : Mode} (hsimple : simpleEscape? e = none)
    (hmode : numeralMode? e = some mode) (cs : List Char) :
    contents .plain ('\\' :: e :: cs) = contents mode cs := by
  simp [contents, hsimple, hmode]

end Escapes

/-- An item at the head of a text is read, and then the rest. -/
theorem contents_item {part : List UInt8} (h : Item front part) (rest : List Char) :
    contents .plain (front ++ rest) = (contents .plain rest).map (part ++ ·) := by
  cases h with
  | @plain c hquote hslash hline =>
      rw [List.singleton_append, contents, if_neg (by simp [hquote, hline]), if_neg hslash]
  | letter h => simp [contents, simpleEscape?_eq_some_iff.mpr h]
  | @codePoint e count n cs h hlength hcs hscalar =>
      obtain ⟨hsimple, hmode, hcount⟩ := numeralMode?_codePoint h
      have hpart := bytes?_codePoint_eq_some_iff.mpr ⟨hscalar, rfl⟩
      rw [List.cons_append, List.cons_append, contents_numeral hsimple hmode,
        contents_digits .codePoint (hlength.trans hcount) hcs, hpart, Option.bind_some]
  | @hexByte n cs hlength hcs =>
      have hlt := hcs.lt
      rw [hlength] at hlt
      have hpart := bytes?_hexByte_eq_some_iff.mpr ⟨Nat.le_of_lt_succ hlt, rfl⟩
      rw [List.cons_append, List.cons_append, contents_numeral rfl rfl,
        contents_digits .hexByte hlength hcs, hpart, Option.bind_some]
  | @octalByte n cs hlength hcs hbyte =>
      cases hcs with
      | nil => cases hlength
      | @cons _ _ d c cs hdigit tail =>
          obtain ⟨hsimple, hmode⟩ := numeralMode?_octalByte hdigit
          have hpart := bytes?_octalByte_eq_some_iff.mpr ⟨hbyte, rfl⟩
          rw [Nat.zero_mul, Nat.zero_add] at tail
          rw [List.cons_append, List.cons_append, contents_numeral hsimple hmode,
            contents_digits .octalByte (Nat.succ.inj hlength) tail, hpart, Option.bind_some]

/-- An escape that is read is an item, with the rest behind it. -/
theorem exists_item_of_escape {cs : List Char} {bytes : List UInt8}
    (h : contents .escape cs = some bytes) :
    ∃ front rest part others, '\\' :: cs = front ++ rest ∧ bytes = part ++ others ∧
      Item front part ∧ contents .plain rest = some others := by
  cases cs with
  | nil => cases h
  | cons e cs =>
      rw [contents] at h
      cases hsimple : simpleEscape? e with
      | some c =>
          rw [hsimple] at h
          obtain ⟨others, hothers, rfl⟩ := Option.map_eq_some_iff.mp h
          exact ⟨['\\', e], cs, _, others, rfl, rfl, .letter (simpleEscape?_eq_some_iff.mp hsimple),
            hothers⟩
      | none =>
          rw [hsimple] at h
          cases hmode : numeralMode? e with
          | none =>
              rw [hmode] at h
              cases h
          | some mode =>
              rw [hmode] at h
              rcases numeralMode?_eq_some hmode with ⟨left, he, rfl⟩ | ⟨rfl, rfl⟩ | ⟨d, hd, rfl⟩
              · obtain ⟨front, rest, n, part, others, rfl, rfl, hlength, hwrites, hpart, hothers⟩ :=
                  exists_of_contents_digits h
                obtain ⟨hscalar, rfl⟩ := bytes?_codePoint_eq_some_iff.mp hpart
                exact ⟨'\\' :: e :: front, rest, _, others, rfl, rfl,
                  .codePoint he hlength hwrites hscalar, hothers⟩
              · obtain ⟨front, rest, n, part, others, rfl, rfl, hlength, hwrites, hpart, hothers⟩ :=
                  exists_of_contents_digits h
                obtain ⟨-, rfl⟩ := bytes?_hexByte_eq_some_iff.mp hpart
                exact ⟨'\\' :: 'x' :: front, rest, _, others, rfl, rfl, .hexByte hlength hwrites,
                  hothers⟩
              · obtain ⟨front, rest, n, part, others, rfl, rfl, hlength, hwrites, hpart, hothers⟩ :=
                  exists_of_contents_digits h
                obtain ⟨hbyte, rfl⟩ := bytes?_octalByte_eq_some_iff.mp hpart
                rw [← Nat.zero_add d, ← Nat.zero_mul 8] at hwrites
                exact ⟨'\\' :: e :: front, rest, _, others, rfl, rfl,
                  .octalByte (congrArg (· + 1) hlength) (.cons hd hwrites) hbyte, hothers⟩

/-- What is read begins with an item, unless there is nothing. -/
theorem exists_item_of_contents {c : Char} {cs : List Char} {bytes : List UInt8}
    (h : contents .plain (c :: cs) = some bytes) :
    ∃ front rest part others, c :: cs = front ++ rest ∧ bytes = part ++ others ∧
      Item front part ∧ contents .plain rest = some others := by
  rw [contents] at h
  split at h
  · cases h
  · rename_i hends
    rw [not_or] at hends
    split at h
    · rename_i hslash
      rw [hslash]
      exact exists_item_of_escape h
    · rename_i hslash
      obtain ⟨others, hothers, rfl⟩ := Option.map_eq_some_iff.mp h
      exact ⟨[c], cs, _, others, rfl, rfl, .plain hends.1 hslash hends.2, hothers⟩

theorem Item.ne_nil {bytes : List UInt8} (h : Item front bytes) : front ≠ [] := by
  cases h <;> exact List.cons_ne_nil _ _

/-- The text between the quotes of a literal has bytes when it is a row of items. -/
theorem contents_eq_some_iff {cs : List Char} {bytes : List UInt8} :
    contents .plain cs = some bytes ↔ Items cs bytes := by
  constructor
  · intro h
    -- on the length, since an item takes several characters at once
    induction hlength : cs.length using Nat.strongRecOn generalizing cs bytes with
    | ind length ih =>
        cases cs with
        | nil =>
            cases h
            exact .nil
        | cons c cs =>
            obtain ⟨front, rest, part, others, hcs, rfl, hitem, hothers⟩ := exists_item_of_contents h
            have hpos := List.length_pos_iff.mpr hitem.ne_nil
            rw [hcs, List.length_append] at hlength
            rw [hcs]
            exact .cons hitem (ih rest.length (by omega) hothers rfl)
  · intro h
    induction h with
    | nil => rfl
    | cons head tail ih => rw [contents_item head, ih, Option.map_some]

end Reading

theorem fromUTF8?_eq_some_iff {bytes : ByteArray} {s : String} :
    String.fromUTF8? bytes = some s ↔ bytes = s.toUTF8 := by
  unfold String.fromUTF8?
  split
  · rename_i hvalid
    rw [Option.some.injEq, ← String.toByteArray_inj]
    rfl
  · rename_i hvalid
    simp only [reduceCtorEq, false_iff]
    rintro rfl
    exact hvalid s.isValidUTF8

theorem unquote_eq_some_iff {literal : List Char} {s : String} :
    unquote literal = some s ↔ Denotes literal s := by
  constructor
  · intro h
    unfold unquote at h
    split at h
    · cases h
    · rename_i cs hcs
      split at h
      · cases h
      · rename_i bytes hbytes
        exact ⟨cs, bytes, between?_eq_some_iff.mp hcs, contents_eq_some_iff.mp hbytes,
          fromUTF8?_eq_some_iff.mp h⟩
  · rintro ⟨cs, bytes, hcs, hitems, hbytes⟩
    rw [unquote, between?_eq_some_iff.mpr hcs]
    simp only [contents_eq_some_iff.mpr hitems]
    exact fromUTF8?_eq_some_iff.mpr hbytes

/-- A literal is accepted when it stands for a text, and then its value is that text. In every other
case it has no value. -/
theorem unquote_denotes (literal : String) :
    (∀ s, unquote literal.toList = some s ↔ Denotes literal.toList s) ∧
      (unquote literal.toList = none ↔ ∀ s, ¬ Denotes literal.toList s) := by
  refine ⟨fun s => unquote_eq_some_iff, ?_⟩
  rw [Option.eq_none_iff_forall_ne_some]
  exact forall_congr' fun s => not_congr unquote_eq_some_iff

end StructModel.Tag
