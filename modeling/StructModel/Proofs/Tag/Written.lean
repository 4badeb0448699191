import StructModel.Go.Literal
import StructModel.Proofs.Tag.Pairs

/-!
# Writing tags

Every text has an interpreted literal that stands for it, and within a tag the literal is a quoted
value whatever characters the text has. So a tag can be written that gives any text under any key
that can be the name of a pair, and the tag itself can be written as a literal again.
-/

namespace StructModel.Tag

/-- A character as an item of a literal, the controls by their codes. -/
def itemOf (c : Char) : List Char :=
  if c = '"' ∨ c = '\\' then ['\\', c]
  else if c.toNat < 32 ∨ c.toNat = 127 then
    ['\\', 'u', '0', '0', Nat.digitChar (c.toNat / 16), Nat.digitChar (c.toNat % 16)]
  else [c]

/-- A literal that stands for the characters. -/
def literalOf (cs : List Char) : List Char := '"' :: (cs.flatMap itemOf ++ ['"'])

/-- The tag with a text under one key. -/
def tagText (key value : String) : String :=
  String.ofList (key.toList ++ ':' :: literalOf value.toList)

/-- This tag as it is written behind a field. -/
def tagLiteral (key value : String) : String :=
  String.ofList (literalOf (tagText key value).toList)

/-- An item is a backslash with the character, four digits of its code, or the character. -/
theorem itemOf_cases (c : Char) :
    (itemOf c = ['\\', c] ∧ (c = '"' ∨ c = '\\')) ∨
      (c.toNat < 128 ∧ itemOf c =
        ['\\', 'u', '0', '0', Nat.digitChar (c.toNat / 16), Nat.digitChar (c.toNat % 16)]) ∨
      (itemOf c = [c] ∧ c ≠ '"' ∧ c ≠ '\\' ∧ c ≠ '\n') := by
  unfold itemOf
  split
  · rename_i hescape
    exact Or.inl ⟨rfl, hescape⟩
  · rename_i hescape
    rw [not_or] at hescape
    split
    · rename_i hcontrol
      exact Or.inr (Or.inl ⟨by omega, rfl⟩)
    · rename_i hcontrol
      refine Or.inr (Or.inr ⟨rfl, hescape.1, hescape.2, ?_⟩)
      rintro rfl
      exact hcontrol (Or.inl (by decide))

section Literals

/-- The four digits of a code below 128 write this code. -/
theorem writes_code {n : Nat} (hn : n < 128) :
    Writes 16 0 ['0', '0', Nat.digitChar (n / 16), Nat.digitChar (n % 16)] n := by
  have hzero : IsDigit 16 '0' 0 := ⟨by decide, Or.inl rfl⟩
  have hhigh : IsDigit 16 (Nat.digitChar (n / 16)) (n / 16) := ⟨by omega, Or.inl rfl⟩
  have hlow : IsDigit 16 (Nat.digitChar (n % 16)) (n % 16) := ⟨by omega, Or.inl rfl⟩
  have hwrites : Writes 16 0 ['0', '0', Nat.digitChar (n / 16), Nat.digitChar (n % 16)]
      ((((0 * 16 + 0) * 16 + 0) * 16 + n / 16) * 16 + n % 16) :=
    .cons hzero (.cons hzero (.cons hhigh (.cons hlow (.nil _))))
  rwa [show (((0 * 16 + 0) * 16 + 0) * 16 + n / 16) * 16 + n % 16 = n by omega] at hwrites

theorem item_itemOf (c : Char) : Item (itemOf c) (String.utf8EncodeChar c) := by
  rcases itemOf_cases c with ⟨hc, rfl | rfl⟩ | ⟨hcode, hc⟩ | ⟨hc, hquote, hslash, hline⟩
  · rw [hc]
    exact .letter (by decide)
  · rw [hc]
    exact .letter (by decide)
  · have hu : ('u', 4) ∈ codePointEscapes := by decide
    have hitem := Item.codePoint hu rfl (writes_code hcode) (Or.inl (by omega))
    rw [Char.ofNat_toNat] at hitem
    rw [hc]
    exact hitem
  · rw [hc]
    exact .plain hquote hslash hline

theorem items_flatMap (cs : List Char) :
    Items (cs.flatMap itemOf) (cs.flatMap String.utf8EncodeChar) := by
  induction cs with
  | nil => exact .nil
  | cons c cs ih => exact .cons (item_itemOf c) ih

theorem denotes_literalOf (s : String) : Denotes (literalOf s.toList) s :=
  ⟨_, _, rfl, items_flatMap s.toList, String.utf8Encode_toList⟩

theorem unquote_literalOf (s : String) : unquote (literalOf s.toList) = some s :=
  unquote_eq_some_iff.mpr (denotes_literalOf s)

theorem literalValue_literalOf (s : String) : literalValue (literalOf s.toList) = some s := by
  have hraw : between? '\x60' (literalOf s.toList) = none := by
    simp [between?, literalOf]
  rw [literalValue, hraw]
  exact (if_pos rfl).trans (unquote_literalOf s)

end Literals

section Values

theorem QuotedBody.append {xs ys : List Char} (hxs : QuotedBody xs) (hys : QuotedBody ys) :
    QuotedBody (xs ++ ys) := by
  induction hxs with
  | nil => exact hys
  | plain hquote hslash tail ih => exact .plain hquote hslash ih
  | escaped tail ih => exact .escaped ih

theorem quotedBody_itemOf (c : Char) : QuotedBody (itemOf c) := by
  rcases itemOf_cases c with ⟨hc, -⟩ | ⟨hcode, hc⟩ | ⟨hc, hquote, hslash, -⟩
  · rw [hc]
    exact .escaped .nil
  · have hdigit : ∀ d < 16, Nat.digitChar d ≠ '"' ∧ Nat.digitChar d ≠ '\\' := by
      decide
    obtain ⟨hquote, hslash⟩ := hdigit (c.toNat / 16) (by omega)
    obtain ⟨hquote', hslash'⟩ := hdigit (c.toNat % 16) (by omega)
    rw [hc]
    exact .escaped (.plain (by decide) (by decide) (.plain (by decide) (by decide)
      (.plain hquote hslash (.plain hquote' hslash' .nil))))
  · rw [hc]
    exact .plain hquote hslash .nil

theorem isQuoted_literalOf (cs : List Char) : IsQuoted (literalOf cs) := by
  refine ⟨_, ?_, rfl⟩
  induction cs with
  | nil => exact .nil
  | cons c cs ih => exact (quotedBody_itemOf c).append ih

/-- A written tag gives its text under its key. -/
theorem lookup_tagText {key : String} (hkey : IsName key.toList) (value : String) :
    lookup (tagText key value) key = some value := by
  have hsplit : IsSplit (tagText key value).toList
      [⟨0, key.toList, literalOf value.toList⟩] [] := by
    refine ⟨?_, by simp [tagText, WrittenPair.text], (isSplit_nil_iff.mpr rfl).tail_stops⟩
    exact List.forall_mem_singleton.mpr ⟨hkey, isQuoted_literalOf value.toList⟩
  rw [lookup, findQuoted_of_isSplit hsplit]
  simp [unquote_literalOf]

theorem literalValue_tagLiteral (key value : String) :
    literalValue (tagLiteral key value).toList = some (tagText key value) := by
  rw [tagLiteral, String.toList_ofList, literalValue_literalOf]

end Values

end StructModel.Tag

namespace StructModel.Go.Literal

open StructModel.Tag

/-- What is written for a character is passed as a whole within a literal. -/
theorem stringRest_itemOf (c : Char) (n : Nat) (rest : List Char) :
    stringRest 0 n (itemOf c ++ rest) = stringRest 0 (n + (itemOf c).length) rest := by
  rcases itemOf_cases c with ⟨hc, rfl | rfl⟩ | ⟨hcode, hc⟩ | ⟨hc, hquote, hslash, hline⟩
  · rw [hc]
    rfl
  · rw [hc]
    rfl
  · have hdigit : ∀ d < 16, isHex (Nat.digitChar d) = true := by
      decide
    rw [hc]
    simp [stringRest, escapeDigits, hdigit (c.toNat / 16) (by omega),
      hdigit (c.toNat % 16) (by omega), show isHex '0' = true from rfl]
  · rw [hc]
    simp [stringRest, hslash]

/-- A literal that is written is one token, whatever comes behind it. -/
theorem string_literalOf (cs rest : List Char) :
    string (literalOf cs ++ rest) = (literalOf cs).length := by
  have hrest : ∀ n, stringRest 0 n (cs.flatMap itemOf ++ '"' :: rest) =
      n + (cs.flatMap itemOf).length + 1 := by
    induction cs with
    | nil => exact fun n => rfl
    | cons c cs ih =>
        intro n
        rw [List.flatMap_cons, List.append_assoc, stringRest_itemOf, ih, List.length_append,
          Nat.add_assoc n]
  simp [literalOf, string, hrest, Nat.add_comm 1]

end StructModel.Go.Literal
