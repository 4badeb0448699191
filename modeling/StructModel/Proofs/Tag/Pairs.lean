import Mathlib
import StructModel.Proofs.Tag.Literal
import StructModel.Tag.Pairs

/-!
# The pairs of a tag

A tag is a row of complete pairs and a tail that begins with no further one, in exactly one way. A
key is looked up among these pairs: the first one with the name decides, whether or not its value
can be read, and nothing of the tail matters.
-/

namespace StructModel.Tag

/-- A byte that a name can hold. -/
def IsNameByte (b : UInt8) : Prop := 0x20 < b ∧ b ≠ 0x22 ∧ b ≠ 0x3a ∧ b ≠ 0x7f

/-- A name is not empty and is encoded in the bytes of names. -/
def IsName (name : List Char) : Prop :=
  name ≠ [] ∧ ∀ b ∈ name.flatMap String.utf8EncodeChar, IsNameByte b

/-- What can stand between the quotes of a value: a backslash takes the character behind it along,
any other quote would end the value. -/
inductive QuotedBody : List Char → Prop
  | nil : QuotedBody []
  | plain {c : Char} {cs : List Char} (hquote : c ≠ '"') (hslash : c ≠ '\\')
      (tail : QuotedBody cs) : QuotedBody (c :: cs)
  | escaped {c : Char} {cs : List Char} (tail : QuotedBody cs) : QuotedBody ('\\' :: c :: cs)

def IsQuoted (value : List Char) : Prop :=
  ∃ body, QuotedBody body ∧ value = '"' :: (body ++ ['"'])

/-- A pair as it is written, with the number of blanks before it. -/
structure WrittenPair where
  blanks : Nat
  name : List Char
  value : List Char
  deriving DecidableEq

namespace WrittenPair

def text (p : WrittenPair) : List Char :=
  List.replicate p.blanks ' ' ++ (p.name ++ ':' :: p.value)

structure IsComplete (p : WrittenPair) : Prop where
  name : IsName p.name
  value : IsQuoted p.value

end WrittenPair

/-- A tag is some complete pairs and a tail that begins with no further one. -/
structure IsSplit (tag : List Char) (pairs : List WrittenPair) (tail : List Char) : Prop where
  complete : ∀ p ∈ pairs, p.IsComplete
  tag_eq : tag = pairs.flatMap WrittenPair.text ++ tail
  tail_stops : ∀ p : WrittenPair, p.IsComplete → ∀ rest, tail ≠ p.text ++ rest

section Names

/-- A character beyond the first 128 is encoded in bytes that are all beyond them. -/
theorem le_of_mem_utf8EncodeChar {c : Char} (hc : 128 ≤ c.toNat) {b : UInt8}
    (hb : b ∈ String.utf8EncodeChar c) : 0x80 ≤ b := by
  have hval : c.toNat = c.val.toNat := rfl
  rw [UInt8.le_iff_toNat_le]
  simp only [String.utf8EncodeChar] at hb
  rw [if_neg (by omega)] at hb
  split at hb
  · simp only [List.mem_cons, List.not_mem_nil, or_false] at hb
    rcases hb with rfl | rfl <;> simp <;> omega
  · split at hb
    · simp only [List.mem_cons, List.not_mem_nil, or_false] at hb
      rcases hb with rfl | rfl | rfl <;> simp <;> omega
    · simp only [List.mem_cons, List.not_mem_nil, or_false] at hb
      rcases hb with rfl | rfl | rfl | rfl <;> simp <;> omega

theorem isNameByte_iff {b : UInt8} :
    IsNameByte b ↔ 32 < b.toNat ∧ b.toNat ≠ 34 ∧ b.toNat ≠ 58 ∧ b.toNat ≠ 127 := by
  simp only [IsNameByte, ne_eq, ← UInt8.toNat_inj, UInt8.lt_iff_toNat_lt]
  exact Iff.rfl

theorem isNameChar_iff_toNat {c : Char} :
    isNameChar c = true ↔ 32 < c.toNat ∧ c.toNat ≠ 34 ∧ c.toNat ≠ 58 ∧ c.toNat ≠ 127 := by
  have hquote : c = '"' ↔ c.toNat = 34 := Char.toNat_inj.symm
  have hcolon : c = ':' ↔ c.toNat = 58 := Char.toNat_inj.symm
  simp only [isNameChar, Bool.and_eq_true, bne_iff_ne, decide_eq_true_eq, ne_eq, hquote, hcolon]
  omega

/-- Names are read by characters, although what they can hold is a matter of bytes. -/
theorem isNameChar_iff {c : Char} :
    isNameChar c = true ↔ ∀ b ∈ String.utf8EncodeChar c, IsNameByte b := by
  rw [isNameChar_iff_toNat]
  by_cases hc : 128 ≤ c.toNat
  · refine iff_of_true (by omega) fun b hb => isNameByte_iff.mpr ?_
    have hle : 128 ≤ b.toNat := UInt8.le_iff_toNat_le.mp (le_of_mem_utf8EncodeChar hc hb)
    omega
  · have hval : c.val.toNat = c.toNat := rfl
    have hencode : String.utf8EncodeChar c = [UInt8.ofNat c.toNat] := by
      simp [String.utf8EncodeChar, hval, show c.toNat ≤ 127 by omega]
    have htoNat : (UInt8.ofNat c.toNat).toNat = c.toNat := Nat.mod_eq_of_lt (by omega)
    simp [hencode, isNameByte_iff, htoNat]

theorem isName_iff {name : List Char} :
    IsName name ↔ name ≠ [] ∧ ∀ c ∈ name, isNameChar c = true := by
  simp only [IsName, isNameChar_iff, List.mem_flatMap]
  exact and_congr_right fun _ => ⟨fun h c hc b hb => h b ⟨c, hc, hb⟩,
    fun h b ⟨c, hc, hb⟩ => h c hc b hb⟩

end Names

section Quoted

theorem splitQuoted_of_body {body : List Char} (h : QuotedBody body) (rest : List Char) :
    splitQuoted (body ++ '"' :: rest) = some (body ++ ['"'], rest) := by
  induction h with
  | nil => rfl
  | plain hquote hslash tail ih => simp [splitQuoted, hslash, ih]
  | escaped tail ih => simp [splitQuoted, ih]

theorem exists_body_of_splitQuoted {cs q rest : List Char}
    (h : splitQuoted cs = some (q, rest)) : ∃ body, QuotedBody body ∧ q = body ++ ['"'] := by
  fun_induction splitQuoted cs generalizing q rest with
  | case1 => cases h
  | case2 cs =>
      cases h
      exact ⟨[], .nil, rfl⟩
  | case3 => cases h
  | case4 c cs ih =>
      obtain ⟨⟨q, rest⟩, hq, hpair⟩ := Option.map_eq_some_iff.mp h
      cases hpair
      obtain ⟨body, hbody, rfl⟩ := ih hq
      exact ⟨'\\' :: c :: body, .escaped hbody, rfl⟩
  | case5 c cs hquote hlast hslash ih =>
      obtain ⟨⟨q, rest⟩, hq, hpair⟩ := Option.map_eq_some_iff.mp h
      cases hpair
      obtain ⟨body, hbody, rfl⟩ := ih hq
      refine ⟨c :: body, .plain (fun hc => hquote hc) (fun hc => ?_) hbody, rfl⟩
      cases cs with
      | nil => exact hlast hc rfl
      | cons d cs => exact hslash d cs hc rfl

end Quoted

section Heads

variable {p : WrittenPair} {tag rest : List Char}

/-- A complete pair at the head of a tag is read, whatever comes behind it. -/
theorem pair?_text (h : p.IsComplete) (rest : List Char) :
    pair? (p.text ++ rest) = some ⟨p.name, p.value, rest⟩ := by
  obtain ⟨hne, hchars⟩ := isName_iff.mp h.name
  obtain ⟨body, hbody, hvalue⟩ := h.value
  have hhead : (p.name ++ ':' :: (p.value ++ rest)).dropWhile (· == ' ') =
      p.name ++ ':' :: (p.value ++ rest) := by
    cases hname : p.name with
    | nil => exact absurd hname hne
    | cons c cs =>
        have hc : c ≠ ' ' := by
          rintro rfl
          exact absurd (hchars ' ' (by simp [hname])) (by decide)
        simp [hc]
  have hblanks : (p.text ++ rest).dropWhile (· == ' ') = p.name ++ ':' :: (p.value ++ rest) := by
    rw [WrittenPair.text, List.append_assoc, List.dropWhile_append_of_pos (by simp),
      List.append_assoc, List.cons_append, hhead]
  have htake : (p.name ++ ':' :: (p.value ++ rest)).takeWhile isNameChar = p.name := by
    rw [List.takeWhile_append_of_pos hchars, List.takeWhile_cons_of_neg (by decide),
      List.append_nil]
  have hdrop : (p.name ++ ':' :: (p.value ++ rest)).dropWhile isNameChar =
      ':' :: '"' :: (body ++ '"' :: rest) := by
    rw [List.dropWhile_append_of_pos hchars, List.dropWhile_cons_of_neg (by decide), hvalue]
    simp
  simp only [pair?, hblanks, htake, hdrop, if_neg hne, splitQuoted_of_body hbody, Option.map_some]
  rw [hvalue]

/-- What is read at the head of a tag is a complete pair. -/
theorem exists_complete_of_pair? {name value : List Char}
    (h : pair? tag = some ⟨name, value, rest⟩) :
    ∃ p : WrittenPair, p.IsComplete ∧ p.name = name ∧ p.value = value ∧ tag = p.text ++ rest := by
  simp only [pair?] at h
  split at h
  · rename_i cs hcs
    split at h
    · cases h
    · rename_i hne
      obtain ⟨⟨q, r⟩, hsplit, hpair⟩ := Option.map_eq_some_iff.mp h
      cases hpair
      obtain ⟨body, hbody, rfl⟩ := exists_body_of_splitQuoted hsplit
      set text := tag.dropWhile (· == ' ')
      set blanks := tag.takeWhile (· == ' ')
      have hblanks : blanks = List.replicate blanks.length ' ' :=
        List.eq_replicate_of_mem fun c hc => by simpa using List.mem_takeWhile_imp hc
      refine ⟨⟨blanks.length, text.takeWhile isNameChar, '"' :: (body ++ ['"'])⟩,
        ⟨isName_iff.mpr ⟨hne, fun c hc => List.mem_takeWhile_imp hc⟩, body, hbody, rfl⟩,
        rfl, rfl, ?_⟩
      calc tag = blanks ++ text := List.takeWhile_append_dropWhile.symm
        _ = blanks ++ (text.takeWhile isNameChar ++ text.dropWhile isNameChar) := by
            rw [List.takeWhile_append_dropWhile (p := isNameChar)]
        _ = blanks ++ (text.takeWhile isNameChar ++ ':' :: '"' :: (body ++ ['"'] ++ r)) := by
            rw [hcs, append_of_splitQuoted hsplit]
        _ = _ := by
            rw [WrittenPair.text, ← hblanks]
            simp
  · cases h

/-- A tag begins with a complete pair in one way only. -/
theorem WrittenPair.IsComplete.eq_of_append_eq {p' : WrittenPair} {rest' : List Char}
    (h : p.IsComplete) (h' : p'.IsComplete) (heq : p.text ++ rest = p'.text ++ rest') :
    p = p' ∧ rest = rest' := by
  -- reading settles all of the pair but the blanks before it, which the lengths settle
  have hread := pair?_text h rest
  rw [heq, pair?_text h' rest'] at hread
  simp only [Option.some.injEq, Pair.mk.injEq] at hread
  obtain ⟨hname, hvalue, rfl⟩ := hread
  have hblanks := congrArg List.length heq
  obtain ⟨blanks, name, value⟩ := p
  obtain ⟨blanks', name', value'⟩ := p'
  cases hname
  cases hvalue
  simp only [WrittenPair.text, List.length_append, List.length_replicate] at hblanks
  obtain rfl : blanks = blanks' := by omega
  exact ⟨rfl, rfl⟩

end Heads

section Splits

variable {tag : List Char} {pairs : List WrittenPair} {tail : List Char}

theorem isSplit_nil_iff : IsSplit tag [] tag ↔ pair? tag = none := by
  constructor
  · intro h
    refine Option.eq_none_iff_forall_ne_some.mpr fun q hq => ?_
    obtain ⟨p, hp, -, -, htag⟩ := exists_complete_of_pair? hq
    exact h.tail_stops p hp q.rest htag
  · refine fun hread => ⟨by simp, rfl, fun p hp rest htag => ?_⟩
    rw [htag, pair?_text hp] at hread
    cases hread

theorem IsSplit.tail_isSplit {p : WrittenPair} (h : IsSplit tag (p :: pairs) tail) :
    p.IsComplete ∧ tag = p.text ++ (pairs.flatMap WrittenPair.text ++ tail) ∧
      IsSplit (pairs.flatMap WrittenPair.text ++ tail) pairs tail :=
  ⟨h.complete p List.mem_cons_self, by rw [h.tag_eq, List.flatMap_cons, List.append_assoc],
    fun q hq => h.complete q (List.mem_cons_of_mem p hq), rfl, h.tail_stops⟩

theorem exists_isSplit (tag : List Char) : ∃ pairs tail, IsSplit tag pairs tail := by
  -- on the length: what is behind a pair is shorter
  induction hlength : tag.length using Nat.strongRecOn generalizing tag with
  | ind length ih =>
      cases hread : pair? tag with
      | none => exact ⟨[], tag, isSplit_nil_iff.mpr hread⟩
      | some q =>
          have hlt := length_rest_of_pair? hread
          obtain ⟨p, hp, -, -, htag⟩ := exists_complete_of_pair? hread
          obtain ⟨pairs, tail, hsplit⟩ := ih q.rest.length (by omega) q.rest rfl
          refine ⟨p :: pairs, tail, List.forall_mem_cons.mpr ⟨hp, hsplit.complete⟩, ?_,
            hsplit.tail_stops⟩
          rw [htag, List.flatMap_cons, List.append_assoc, ← hsplit.tag_eq]

theorem IsSplit.eq_of_isSplit {pairs' : List WrittenPair} {tail' : List Char}
    (h : IsSplit tag pairs tail) (h' : IsSplit tag pairs' tail') : pairs = pairs' ∧ tail = tail' := by
  induction pairs generalizing tag pairs' with
  | nil =>
      cases pairs' with
      | nil => exact ⟨rfl, h.tag_eq.symm.trans h'.tag_eq⟩
      | cons p' pairs' =>
          obtain ⟨hp', htag, -⟩ := h'.tail_isSplit
          exact absurd (h.tag_eq.symm.trans htag) (h.tail_stops p' hp' _)
  | cons p pairs ih =>
      obtain ⟨hp, htag, hrest⟩ := h.tail_isSplit
      cases pairs' with
      | nil => exact absurd (h'.tag_eq.symm.trans htag) (h'.tail_stops p hp _)
      | cons p' pairs' =>
          obtain ⟨hp', htag', hrest'⟩ := h'.tail_isSplit
          obtain ⟨rfl, heq⟩ := hp.eq_of_append_eq hp' (htag.symm.trans htag')
          obtain ⟨rfl, rfl⟩ := ih hrest (heq ▸ hrest')
          exact ⟨rfl, rfl⟩

/-- A key is looked up among the pairs of the split, from the first one on. -/
theorem findQuoted_of_isSplit (h : IsSplit tag pairs tail) (key : List Char) :
    findQuoted key tag = (pairs.find? (·.name == key)).map WrittenPair.value := by
  induction pairs generalizing tag with
  | nil =>
      obtain rfl : tag = tail := h.tag_eq
      rw [findQuoted]
      split
      · rfl
      · rename_i q hq
        rw [isSplit_nil_iff.mp h] at hq
        cases hq
  | cons p pairs ih =>
      obtain ⟨hp, htag, hrest⟩ := h.tail_isSplit
      have hread := pair?_text hp (pairs.flatMap WrittenPair.text ++ tail)
      rw [← htag] at hread
      rw [findQuoted]
      split
      · rename_i hnone
        rw [hread] at hnone
        cases hnone
      · rename_i q hq
        cases hread.symm.trans hq
        by_cases hname : p.name = key
        · simp [hname]
        · simp [hname, ih hrest]

end Splits

/-- A tag splits in exactly one way. The first of its pairs with the name of the key decides, its
value read or not, and without one there is nothing to find. So nothing is found under a key that no
pair can have as its name. -/
theorem lookup_first_pair (tag : String) :
    (∃! split : List WrittenPair × List Char, IsSplit tag.toList split.1 split.2) ∧
      ∀ key : String,
        (∀ pairs tail, IsSplit tag.toList pairs tail →
          lookup tag key =
            (pairs.find? (·.name == key.toList)).bind fun p => unquote p.value) ∧
        (¬ IsName key.toList → lookup tag key = none) := by
  obtain ⟨pairs, tail, hsplit⟩ := exists_isSplit tag.toList
  have hlookup : ∀ (key : String) pairs tail, IsSplit tag.toList pairs tail →
      lookup tag key = (pairs.find? (·.name == key.toList)).bind fun p => unquote p.value := by
    intro key pairs tail h
    rw [lookup, findQuoted_of_isSplit h, Option.bind_map]
    rfl
  refine ⟨⟨(pairs, tail), hsplit, fun split h => ?_⟩, fun key => ⟨hlookup key, fun hkey => ?_⟩⟩
  · obtain ⟨hpairs, htail⟩ := h.eq_of_isSplit hsplit
    exact Prod.ext hpairs htail
  · have hnone : pairs.find? (·.name == key.toList) = none := by
      refine List.find?_eq_none.mpr fun p hp hname => hkey ?_
      rw [← beq_iff_eq.mp hname]
      exact (hsplit.complete p hp).name
    rw [hlookup key pairs tail hsplit, hnone, Option.bind_none]

/-- Pairs that touch, a value that stands for nothing before a second pair of the same name, and a
malformed pair before one that would be complete. -/
def touchingTag : String := "a:\"\\q\"  b:\"1\"a:\"2\" c:oops d:\"3\""

theorem lookup_first_pair_touchingTag :
    ∃ pairs tail, IsSplit touchingTag.toList pairs tail ∧
      pairs.map WrittenPair.name = [['a'], ['b'], ['a']] ∧ tail = " c:oops d:\"3\"".toList ∧
      lookup touchingTag "a" = none ∧ lookup touchingTag "b" = some "1" ∧
      lookup touchingTag "d" = none ∧ ¬ IsName "b c".toList ∧ lookup touchingTag "b c" = none := by
  have hsplit : IsSplit touchingTag.toList
      [⟨0, ['a'], "\"\\q\"".toList⟩, ⟨2, ['b'], "\"1\"".toList⟩, ⟨0, ['a'], "\"2\"".toList⟩]
      " c:oops d:\"3\"".toList := by
    refine ⟨?_, by decide, (isSplit_nil_iff.mpr (by decide)).tail_stops⟩
    simp only [List.forall_mem_cons]
    have hname : IsName ['a'] ∧ IsName ['b'] := by
      simp [isName_iff, isNameChar]
    exact ⟨⟨hname.1, ['\\', 'q'], .escaped .nil, by decide⟩,
      ⟨hname.2, ['1'], .plain (by decide) (by decide) .nil, by decide⟩,
      ⟨hname.1, ['2'], .plain (by decide) (by decide) .nil, by decide⟩, by simp⟩
  have hlookup := fun key => ((lookup_first_pair touchingTag).2 key).1 _ _ hsplit
  have hname : ¬ IsName "b c".toList := by
    simp [isName_iff, isNameChar]
  exact ⟨_, _, hsplit, by decide, rfl, (hlookup "a").trans (by cbv), (hlookup "b").trans (by cbv),
    (hlookup "d").trans (by cbv), hname, ((lookup_first_pair touchingTag).2 "b c").2 hname⟩

end StructModel.Tag
