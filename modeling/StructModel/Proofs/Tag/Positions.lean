import Mathlib
import StructModel.Proofs.Tag.Pairs
import StructModel.Proofs.Tag.Words

/-!
# Tags read by positions in bytes

A scanner that counts bytes finds the pairs of a tag as well. Behind a backslash it passes over one
byte, which may leave it in the midst of a character, and it cuts the text at the positions that it
comes to. Bytes within a character never look like a quote, so each cut falls between two
characters, and such a scanner finds what reading by characters finds. It ends since each pair
leaves a shorter text.
-/

namespace StructModel.Tag

section Search

variable {key text : List Char}

theorem findQuoted_of_none (h : pair? text = none) : findQuoted key text = none := by
  rw [findQuoted]
  split
  · rfl
  · rename_i p hp
    cases h.symm.trans hp

theorem findQuoted_of_some {p : Pair} (h : pair? text = some p) :
    findQuoted key text = if p.name = key then some p.quoted else findQuoted key p.rest := by
  rw [findQuoted]
  split
  · rename_i hnone
    cases h.symm.trans hnone
  · rename_i q hq
    cases h.symm.trans hq
    rfl

end Search

namespace Checked

/-- The bytes of a text. -/
def utf8 (cs : List Char) : List UInt8 := cs.flatMap String.utf8EncodeChar

/-- The parts of a text before and behind a position in its bytes. -/
def cut : Nat → List Char → Checked (List Char × List Char)
  | 0, cs => .ok ([], cs)
  | _ + 1, [] => .error .outside
  | n + 1, c :: cs =>
    if c.utf8Size ≤ n + 1 then do
      let (front, back) ← cut (n + 1 - c.utf8Size) cs
      return (c :: front, back)
    else .error .split

/-- The bytes from a position on. -/
def suffix (n : Nat) (bytes : List UInt8) : Checked (List UInt8) :=
  if n ≤ bytes.length then .ok (bytes.drop n) else .error .outside

def isNameByte (b : UInt8) : Bool := 0x20 < b && b != 0x3a && b != 0x22 && b != 0x7f

/-- The position of the first quote, from a position on, that no backslash takes along. Without one
it is behind the last byte. -/
def closing (bytes : List UInt8) (i : Nat) : Nat :=
  if h : i < bytes.length then
    if bytes[i] = 0x22 then i
    else if bytes[i] = 0x5c then closing bytes (i + 2)
    else closing bytes (i + 1)
  else i
termination_by bytes.length - i

/-- The parts of a text up to the quote that ends the value at its head and behind it, if there is
one. -/
def quotedParts (value : List Char) : Checked (Option (List Char × List Char)) := do
  let i := closing (utf8 value) 1
  if (utf8 value).length ≤ i then return none
  let (quoted, _) ← cut (i + 1) value
  let (_, rest) ← cut (i + 1) value
  return some (quoted, rest)

/-- One round of looking up a key: the pair at the head of a text, or none when the search is over. -/
def nextPair (text : List Char) : Checked (Option Pair) := do
  let text := text.dropWhile (· == ' ')
  if text = [] then return none
  let count := ((utf8 text).takeWhile isNameByte).length
  let after ← suffix count (utf8 text)
  if count = 0 ∨ after.length < 2 ∨ after[0]? ≠ some 0x3a ∨ after[1]? ≠ some 0x22 then return none
  let (name, _) ← cut count text
  let (_, value) ← cut (count + 1) text
  return (← quotedParts value).map fun (quoted, rest) => ⟨name, quoted, rest⟩

section Bytes

/-- A byte of a character other than its first one. -/
def IsContinuation (b : UInt8) : Prop := 0x80 ≤ b ∧ b < 0xc0

@[simp] theorem utf8_nil : utf8 [] = [] := rfl

@[simp] theorem utf8_cons (c : Char) (cs : List Char) :
    utf8 (c :: cs) = String.utf8EncodeChar c ++ utf8 cs := rfl

@[simp] theorem utf8_append (cs ds : List Char) : utf8 (cs ++ ds) = utf8 cs ++ utf8 ds :=
  List.flatMap_append

theorem utf8EncodeChar_of_lt {c : Char} (h : c.toNat < 128) :
    String.utf8EncodeChar c = [UInt8.ofNat c.toNat] := by
  have hval : c.val.toNat = c.toNat := rfl
  simp [String.utf8EncodeChar, hval, show c.toNat ≤ 127 by omega]

/-- The first byte of a character tells it from the others. -/
theorem exists_utf8EncodeChar (c : Char) :
    ∃ b bs, String.utf8EncodeChar c = b :: bs ∧ ¬ IsContinuation b ∧ ∀ d ∈ bs, IsContinuation d := by
  have hmax : c.val.toNat < 0x110000 := by
    have := c.valid
    simp only [UInt32.isValidChar, Nat.isValidChar] at this
    omega
  have hval : c.toNat = c.val.toNat := rfl
  simp only [IsContinuation, UInt8.le_iff_toNat_le, UInt8.lt_iff_toNat_lt, String.utf8EncodeChar]
  -- by the number of bytes, from one to four
  split
  · exact ⟨_, _, rfl, by simp; omega, by simp⟩
  split
  · exact ⟨_, _, rfl, by simp; omega, by simp; omega⟩
  split
  · exact ⟨_, _, rfl, by simp; omega, by simp; omega⟩
  · exact ⟨_, _, rfl, by simp; omega, by simp; omega⟩

theorem length_utf8_pos {cs : List Char} (h : cs ≠ []) : 0 < (utf8 cs).length := by
  cases cs with
  | nil => exact absurd rfl h
  | cons c cs =>
      rw [utf8_cons, List.length_append, String.length_utf8EncodeChar]
      exact Nat.add_pos_left c.utf8Size_pos _

theorem isNameByte_eq_true_iff {b : UInt8} : isNameByte b = true ↔ IsNameByte b := by
  simp only [isNameByte, IsNameByte, Bool.and_eq_true, decide_eq_true_eq, bne_iff_ne]
  tauto

/-- The bytes of a name are read as far as its characters are. -/
theorem takeWhile_isNameByte (cs : List Char) :
    (utf8 cs).takeWhile isNameByte = utf8 (cs.takeWhile isNameChar) := by
  induction cs with
  | nil => rfl
  | cons c cs ih =>
      cases hc : isNameChar c with
      | true =>
          have hbytes : ∀ b ∈ String.utf8EncodeChar c, isNameByte b = true := fun b hb =>
            isNameByte_eq_true_iff.mpr (isNameChar_iff.mp hc b hb)
          rw [utf8_cons, List.takeWhile_append_of_pos hbytes, ih, List.takeWhile_cons_of_pos hc,
            utf8_cons]
      | false =>
          have hlt : c.toNat < 128 := by
            by_contra hge
            have := mt isNameChar_iff_toNat.mpr (by simp [hc] : ¬ isNameChar c = true)
            omega
          have hbyte : isNameByte (UInt8.ofNat c.toNat) = false := by
            rw [← Bool.not_eq_true, isNameByte_eq_true_iff]
            intro hb
            rw [isNameChar_iff.mpr (by simpa [utf8EncodeChar_of_lt hlt] using hb)] at hc
            cases hc
          rw [utf8_cons, utf8EncodeChar_of_lt hlt, List.singleton_append,
            List.takeWhile_cons_of_neg (by simp [hbyte]), List.takeWhile_cons_of_neg (by simp [hc]),
            utf8_nil]

/-- A text whose first byte is that of one of the first 128 characters begins with it. -/
theorem head_of_utf8 {cs : List Char} {c : Char} (hc : c.toNat < 128)
    (h : (utf8 cs)[0]? = some (UInt8.ofNat c.toNat)) : ∃ rest, cs = c :: rest := by
  cases cs with
  | nil => cases h
  | cons d rest =>
      refine ⟨rest, ?_⟩
      rw [utf8_cons] at h
      by_cases hd : d.toNat < 128
      · rw [utf8EncodeChar_of_lt hd, List.singleton_append, List.getElem?_cons_zero,
          Option.some.injEq, ← UInt8.toNat_inj, UInt8.toNat_ofNat', UInt8.toNat_ofNat',
          Nat.mod_eq_of_lt (by omega), Nat.mod_eq_of_lt (by omega), Char.toNat_inj] at h
        rw [h]
      · obtain ⟨b, bs, hd', -, -⟩ := exists_utf8EncodeChar d
        have hb := le_of_mem_utf8EncodeChar (Nat.le_of_not_lt hd) (hd' ▸ List.mem_cons_self)
        rw [hd', List.cons_append, List.getElem?_cons_zero, Option.some.injEq] at h
        rw [h, UInt8.le_iff_toNat_le, UInt8.toNat_ofNat', Nat.mod_eq_of_lt (by omega)] at hb
        exact absurd hc (Nat.not_lt.mpr hb)

end Bytes

section Cuts

theorem cut_append (front back : List Char) :
    cut (utf8 front).length (front ++ back) = .ok (front, back) := by
  induction front with
  | nil => simp [cut]
  | cons c cs ih =>
      have hlength : (utf8 (c :: cs)).length = (c.utf8Size - 1 + (utf8 cs).length) + 1 := by
        have := c.utf8Size_pos
        rw [utf8_cons, List.length_append, String.length_utf8EncodeChar]
        omega
      have hsize := c.utf8Size_pos
      have hrest : c.utf8Size - 1 + (utf8 cs).length + 1 - c.utf8Size = (utf8 cs).length := by
        omega
      rw [hlength, List.cons_append, cut, if_pos (by omega), hrest, ih]
      rfl

/-- A text can be cut just at its end and before the first byte of a character. -/
theorem exists_cut_iff {n : Nat} {cs : List Char} :
    (∃ parts, cut n cs = .ok parts) ↔
      n = (utf8 cs).length ∨ ∃ b, (utf8 cs)[n]? = some b ∧ ¬ IsContinuation b := by
  induction cs generalizing n with
  | nil => cases n <;> simp [cut]
  | cons c cs ih =>
      obtain ⟨b, bs, hc, hb, hbs⟩ := exists_utf8EncodeChar c
      have hsize : c.utf8Size = bs.length + 1 := by
        rw [← String.length_utf8EncodeChar, hc, List.length_cons]
      rw [utf8_cons, hc, List.cons_append]
      cases n with
      | zero => exact iff_of_true ⟨_, rfl⟩ (Or.inr ⟨b, rfl, hb⟩)
      | succ n =>
          rw [cut, List.length_cons, List.length_append, List.getElem?_cons_succ]
          by_cases hn : c.utf8Size ≤ n + 1
          · -- the position is behind the character
            have hget : (bs ++ utf8 cs)[n]? = (utf8 cs)[n + 1 - c.utf8Size]? := by
              rw [List.getElem?_append_right (by omega)]
              congr 1
              omega
            have hlength : n + 1 = bs.length + (utf8 cs).length + 1 ↔
                n + 1 - c.utf8Size = (utf8 cs).length := by
              omega
            rw [if_pos hn, hget, hlength, ← ih]
            constructor
            · rintro ⟨parts, h⟩
              obtain ⟨p, hp, -⟩ := bind_eq_ok h
              exact ⟨p, hp⟩
            · rintro ⟨p, hp⟩
              exact ⟨_, by rw [hp]; rfl⟩
          · -- the position is in the midst of it
            rw [if_neg hn]
            refine iff_of_false (by simp) ?_
            rintro (h | ⟨d, hd, hfirst⟩)
            · omega
            · rw [List.getElem?_append_left (by omega)] at hd
              exact hfirst (hbs d (List.mem_of_getElem? hd))

example : cut 1 ['é', 'x'] = .error .split ∧ cut 2 ['é', 'x'] = .ok (['é'], ['x']) ∧
    cut 4 ['é', 'x'] = .error .outside := by
  decide

end Cuts

section Scanning

theorem closing_of_le {bytes : List UInt8} {i : Nat} (h : bytes.length ≤ i) :
    closing bytes i = i := by
  rw [closing, dif_neg (Nat.not_lt.mpr h)]

/-- What becomes of the scan at a byte. -/
theorem closing_cons (front rest : List UInt8) (b : UInt8) :
    closing (front ++ b :: rest) front.length =
      if b = 0x22 then front.length
      else if b = 0x5c then closing (front ++ b :: rest) (front.length + 2)
      else closing (front ++ b :: rest) (front.length + 1) := by
  rw [closing, dif_pos (by simp)]
  simp

/-- Bytes that are neither quotes nor backslashes are passed over. -/
theorem closing_plain (front rest : List UInt8) {part : List UInt8}
    (h : ∀ b ∈ part, b ≠ 0x22 ∧ b ≠ 0x5c) :
    closing (front ++ (part ++ rest)) front.length =
      closing (front ++ (part ++ rest)) (front.length + part.length) := by
  induction part generalizing front with
  | nil => rfl
  | cons b part ih =>
      obtain ⟨hquote, hslash⟩ := h b List.mem_cons_self
      have htail := ih (front ++ [b]) fun d hd => h d (List.mem_cons_of_mem b hd)
      rw [List.cons_append, closing_cons, if_neg hquote, if_neg hslash]
      simp only [List.append_assoc, List.singleton_append, List.length_append,
        List.length_singleton] at htail
      rw [htail, List.length_cons, Nat.add_assoc, Nat.add_comm 1]

theorem ne_of_isContinuation {b : UInt8} (h : IsContinuation b) : b ≠ 0x22 ∧ b ≠ 0x5c := by
  constructor
  · rintro rfl
    exact absurd h.1 (by decide)
  · rintro rfl
    exact absurd h.1 (by decide)

/-- Only the characters themselves have the bytes of a quote and of a backslash. -/
theorem ne_of_mem_utf8EncodeChar {c : Char} {b : UInt8} (hquote : c ≠ '"') (hslash : c ≠ '\\')
    (hb : b ∈ String.utf8EncodeChar c) : b ≠ 0x22 ∧ b ≠ 0x5c := by
  by_cases hc : c.toNat < 128
  · rw [utf8EncodeChar_of_lt hc, List.mem_singleton] at hb
    have hne : ∀ d : Char, c ≠ d → d.toNat < 128 → b ≠ UInt8.ofNat d.toNat := by
      rintro d hcd hd rfl
      rw [← UInt8.toNat_inj, UInt8.toNat_ofNat', UInt8.toNat_ofNat', Nat.mod_eq_of_lt (by omega),
        Nat.mod_eq_of_lt (by omega), eq_comm, Char.toNat_inj] at hb
      exact hcd hb
    exact ⟨hne '"' hquote (by decide), hne '\\' hslash (by decide)⟩
  · have hge := le_of_mem_utf8EncodeChar (Nat.le_of_not_lt hc) hb
    constructor
    · rintro rfl
      exact absurd hge (by decide)
    · rintro rfl
      exact absurd hge (by decide)

/-- Behind a backslash one byte is passed over and then the rest of its character. -/
theorem closing_escape (front : List UInt8) (c : Char) (cs : List Char) :
    closing (front ++ utf8 ('\\' :: c :: cs)) front.length =
      closing (front ++ utf8 ['\\', c] ++ utf8 cs) (front ++ utf8 ['\\', c]).length := by
  obtain ⟨b, bs, hc, -, hbs⟩ := exists_utf8EncodeChar c
  have hslash : String.utf8EncodeChar '\\' = [0x5c] := by decide
  have hskip := closing_plain (front ++ [0x5c, b]) (utf8 cs) fun d hd =>
    ne_of_isContinuation (hbs d hd)
  simp only [utf8_cons, utf8_nil, hslash, hc, List.append_nil, List.append_assoc,
    List.cons_append, List.nil_append, List.length_append, List.length_cons,
    List.length_nil] at hskip ⊢
  rw [closing_cons, if_neg (by decide), if_pos rfl, hskip]
  congr 1
  omega

/-- A scan behind some bytes stops at the quote that ends a value, and it runs off the end of a text
without one. -/
structure Closes (front : List UInt8) (cs : List Char) : Prop where
  ends : ∀ q rest, splitQuoted cs = some (q, rest) →
    closing (front ++ utf8 cs) front.length + 1 = front.length + (utf8 q).length
  runs : splitQuoted cs = none →
    (front ++ utf8 cs).length ≤ closing (front ++ utf8 cs) front.length

/-- So it does when it passes over some characters that belong to the value first. -/
theorem Closes.behind (part : List Char) {cs : List Char} {front : List UInt8}
    (hsplit : splitQuoted (part ++ cs) = (splitQuoted cs).map fun (q, rest) => (part ++ q, rest))
    (hclosing : closing (front ++ utf8 (part ++ cs)) front.length =
      closing (front ++ utf8 part ++ utf8 cs) (front ++ utf8 part).length)
    (h : Closes (front ++ utf8 part) cs) : Closes front (part ++ cs) := by
  constructor
  · intro q rest hq
    rw [hsplit] at hq
    obtain ⟨⟨q', rest'⟩, hq', hpair⟩ := Option.map_eq_some_iff.mp hq
    cases hpair
    rw [hclosing, h.ends q' rest hq', utf8_append, List.length_append, List.length_append,
      Nat.add_assoc]
  · intro hnone
    have hruns := h.runs (Option.map_eq_none_iff.mp (hsplit ▸ hnone))
    rw [hclosing, utf8_append, ← List.append_assoc]
    exact hruns

theorem closes (front : List UInt8) (cs : List Char) : Closes front cs := by
  have hquote : String.utf8EncodeChar '"' = [0x22] := by decide
  have hslash : String.utf8EncodeChar '\\' = [0x5c] := by decide
  fun_induction splitQuoted cs generalizing front with
  | case1 => exact ⟨by simp [splitQuoted], fun _ => by rw [closing_of_le] <;> simp⟩
  | case2 cs =>
      refine ⟨fun q rest h => ?_, by simp [splitQuoted]⟩
      cases h
      rw [utf8_cons, hquote, List.singleton_append, closing_cons, if_pos rfl, utf8_cons, hquote]
      rfl
  | case3 =>
      refine ⟨by simp [splitQuoted], fun _ => ?_⟩
      rw [utf8_cons, hslash, List.singleton_append, closing_cons, if_neg (by decide), if_pos rfl,
        closing_of_le] <;> simp
  | case4 c cs ih => exact .behind ['\\', c] rfl (closing_escape front c cs) (ih _)
  | case5 c cs hnquote hlast hpair ih =>
      have hchar : c ≠ '\\' := by
        rintro rfl
        cases cs with
        | nil => exact hlast rfl rfl
        | cons d ds => exact hpair d ds rfl rfl
      have hsplit : splitQuoted (c :: cs) =
          (splitQuoted cs).map fun (q, rest) => (c :: q, rest) := by
        rw [splitQuoted] <;> assumption
      have hplain := closing_plain front (utf8 cs) fun b hb =>
        ne_of_mem_utf8EncodeChar hnquote hchar hb
      refine .behind [c] hsplit ?_ (ih _)
      simpa using hplain

end Scanning

section Rounds

theorem utf8EncodeChar_quote : String.utf8EncodeChar '"' = [0x22] := by decide

theorem utf8EncodeChar_colon : String.utf8EncodeChar ':' = [0x3a] := by decide

theorem quotedParts_eq (cs : List Char) :
    quotedParts ('"' :: cs) =
      .ok ((splitQuoted cs).map fun (quoted, rest) => ('"' :: quoted, rest)) := by
  obtain ⟨hends, hruns⟩ := closes [0x22] cs
  have hbytes : utf8 ('"' :: cs) = [0x22] ++ utf8 cs := by
    rw [utf8_cons, utf8EncodeChar_quote]
  rw [quotedParts, hbytes]
  rw [List.length_singleton] at hends hruns
  cases hsplit : splitQuoted cs with
  | none =>
      rw [if_pos (hruns hsplit)]
      rfl
  | some p =>
      obtain ⟨quoted, rest⟩ := p
      have happend := append_of_splitQuoted hsplit
      have hclosing : closing ([0x22] ++ utf8 cs) 1 + 1 = (utf8 ('"' :: quoted)).length := by
        rw [hends quoted rest hsplit, utf8_cons, utf8EncodeChar_quote, List.length_append,
          List.length_singleton]
      have hlt : ¬ ([0x22] ++ utf8 cs).length ≤ closing ([0x22] ++ utf8 cs) 1 := by
        have hlength : (utf8 quoted).length + (utf8 rest).length = (utf8 cs).length := by
          rw [← List.length_append, ← utf8_append, happend]
        have hclosing := hends quoted rest hsplit
        rw [List.length_append, List.length_singleton]
        omega
      have hcut := cut_append ('"' :: quoted) rest
      rw [List.cons_append, happend] at hcut
      rw [if_neg hlt, hclosing, hcut]
      rfl

/-- What comes behind a name goes on with a value when its first two bytes do. -/
theorem exists_value_iff {back : List Char} :
    (∃ cs, back = ':' :: '"' :: cs) ↔
      2 ≤ (utf8 back).length ∧ (utf8 back)[0]? = some 0x3a ∧ (utf8 back)[1]? = some 0x22 := by
  constructor
  · rintro ⟨cs, rfl⟩
    simp [utf8EncodeChar_colon, utf8EncodeChar_quote]
  · rintro ⟨-, hfirst, hsecond⟩
    obtain ⟨rest, rfl⟩ := head_of_utf8 (c := ':') (by decide) hfirst
    rw [utf8_cons, utf8EncodeChar_colon, List.singleton_append, List.getElem?_cons_succ] at hsecond
    obtain ⟨cs, rfl⟩ := head_of_utf8 (c := '"') (by decide) hsecond
    exact ⟨cs, rfl⟩

/-- A round comes to the pair that is read by characters. -/
theorem nextPair_eq (text : List Char) : nextPair text = .ok (pair? text) := by
  unfold nextPair pair?
  generalize text.dropWhile (· == ' ') = body
  by_cases hbody : body = []
  · rw [if_pos hbody, hbody]
    rfl
  obtain ⟨name, back, happend, hname, hback⟩ : ∃ name back, body = name ++ back ∧
      body.takeWhile isNameChar = name ∧ body.dropWhile isNameChar = back :=
    ⟨_, _, List.takeWhile_append_dropWhile.symm, rfl, rfl⟩
  have hsuffix : suffix (utf8 name).length (utf8 body) = .ok (utf8 back) := by
    rw [happend, utf8_append, suffix, if_pos (by simp), List.drop_left]
  rw [if_neg hbody]
  simp only [takeWhile_isNameByte, hname, hback, hsuffix, ok_bind]
  by_cases hgoes : name ≠ [] ∧ ∃ cs, back = ':' :: '"' :: cs
  · obtain ⟨hne, hvalue⟩ := hgoes
    obtain ⟨hlength, hfirst, hsecond⟩ := exists_value_iff.mp hvalue
    obtain ⟨cs, hcs⟩ := hvalue
    have hcount := length_utf8_pos hne
    have hcutName : cut (utf8 name).length body = .ok (name, back) :=
      happend ▸ cut_append name back
    have hcutValue : cut ((utf8 name).length + 1) body = .ok (name ++ [':'], '"' :: cs) := by
      have hcut := cut_append (name ++ [':']) ('"' :: cs)
      rw [utf8_append, utf8_cons, utf8EncodeChar_colon] at hcut
      simpa [happend, hcs] using hcut
    rw [if_neg (by simp only [hfirst, hsecond, ne_eq, not_true, or_false]; omega)]
    simp only [hcutName, hcutValue, ok_bind, hcs, if_neg hne, quotedParts_eq]
    cases splitQuoted cs <;> rfl
  · have hstops : (utf8 name).length = 0 ∨ (utf8 back).length < 2 ∨ (utf8 back)[0]? ≠ some 0x3a ∨
        (utf8 back)[1]? ≠ some 0x22 := by
      by_contra hgo
      simp only [not_or, not_lt, not_not] at hgo
      refine hgoes ⟨?_, exists_value_iff.mpr hgo.2⟩
      rintro rfl
      exact hgo.1 rfl
    rw [if_pos hstops]
    split
    · rename_i cs
      have hempty : name = [] := by
        by_contra hne
        exact hgoes ⟨hne, cs, rfl⟩
      rw [if_pos hempty]
      rfl
    · rfl

theorem length_of_nextPair {text : List Char} {p : Pair} (h : nextPair text = .ok (some p)) :
    (utf8 p.rest).length < (utf8 text).length := by
  rw [nextPair_eq] at h
  obtain ⟨q, hq, -, -, rfl⟩ := exists_complete_of_pair? (Except.ok.inj h)
  have hpos : 0 < (utf8 q.text).length := length_utf8_pos (by simp [WrittenPair.text])
  rw [utf8_append, List.length_append]
  omega

end Rounds

/-- The quoted value of the first pair with the given name. -/
def findQuoted (key text : List Char) : Checked (Option (List Char)) :=
  match _h : nextPair text with
  | .error fault => .error fault
  | .ok none => .ok none
  | .ok (some p) => if p.name = key then .ok (some p.quoted) else findQuoted key p.rest
termination_by (utf8 text).length
decreasing_by exact length_of_nextPair _h

/-- The value under a key of a tag. -/
def lookup (tag key : String) : Checked (Option String) := do
  match ← findQuoted key.toList tag.toList with
  | none => return none
  | some quoted => unquote quoted

theorem findQuoted_eq (key text : List Char) :
    findQuoted key text = .ok (Tag.findQuoted key text) := by
  fun_induction findQuoted key text with
  | case1 text fault hround => cases (nextPair_eq text).symm.trans hround
  | case2 text hround =>
      have hpair := Except.ok.inj ((nextPair_eq text).symm.trans hround)
      rw [findQuoted_of_none hpair]
  | case3 text p hround hname =>
      have hpair := Except.ok.inj ((nextPair_eq text).symm.trans hround)
      rw [findQuoted_of_some hpair, if_pos hname]
  | case4 text p hround hname ih =>
      have hpair := Except.ok.inj ((nextPair_eq text).symm.trans hround)
      rw [findQuoted_of_some hpair, if_neg hname, ih]

theorem lookup_eq (tag key : String) : lookup tag key = .ok (Tag.lookup tag key) := by
  rw [lookup, findQuoted_eq, ok_bind, Tag.lookup]
  cases Tag.findQuoted key.toList tag.toList with
  | none => rfl
  | some quoted => exact unquote_eq quoted

end Checked

/-- Reading with words and by positions never comes to a fault, whatever the tag, the key and the
literal are: no number outgrows its word, and no cut is at a position that is behind the end of the
text or within a character. It gives what reading by characters gives. Each pair leaves a shorter
text, so that looking up a key ends. -/
theorem checked_reading_eq (tag key : String) (literal : List Char) :
    Checked.literalValue literal = .ok (literalValue literal) ∧
      Checked.unquote literal = .ok (unquote literal) ∧
      Checked.lookup tag key = .ok (lookup tag key) ∧
      (∀ text, Checked.nextPair text = .ok (pair? text) ∧
        ∀ p, pair? text = some p → (Checked.utf8 p.rest).length < (Checked.utf8 text).length) ∧
      ∀ n text, (∃ parts, Checked.cut n text = .ok parts) ↔
        n = (Checked.utf8 text).length ∨
          ∃ b, (Checked.utf8 text)[n]? = some b ∧ ¬ Checked.IsContinuation b := by
  refine ⟨Checked.literalValue_eq literal, Checked.unquote_eq literal, Checked.lookup_eq tag key,
    fun text => ⟨Checked.nextPair_eq text, fun p hp => ?_⟩, fun n text => Checked.exists_cut_iff⟩
  exact Checked.length_of_nextPair ((Checked.nextPair_eq text).trans (congrArg Except.ok hp))

end StructModel.Tag
