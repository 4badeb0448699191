import StructModel.Go.Scan

/-!
# Identifiers

A name that is scanned as an identifier is one from end to end and no reserved word.
-/

namespace StructModel.Go

/-- Whether a text is an identifier from end to end. A reserved word is none. -/
def isIdentifier (name : String) : Bool :=
  Text.isIdent name.toList && Keyword.reserved.all fun k => k.spelling != name

section Characters

theorem isIdent_of_isIdentifier {name : String} (h : isIdentifier name = true) :
    Text.isIdent name.toList = true :=
  (Bool.and_eq_true_iff.mp h).1

/-- The characters of identifiers are those that can go on with one. -/
theorem isIdentContinue_of_isIdentStart {c : Char} (h : Text.isIdentStart c = true) :
    c.toNat < 128 → Text.isIdentContinue c = true := by
  intro hc
  simp only [Text.isIdentStart, Text.isIdentContinue, if_pos hc, Bool.or_eq_true] at h ⊢
  rcases h with h | h
  · exact Or.inl h
  · exact Or.inr (by simp [Char.isAlphanum, h])

/-- A character below 128 that cannot go on with an identifier stands in none. -/
theorem notMem_of_isIdentifier {name : String} (h : isIdentifier name = true) {c : Char}
    (hc : c.toNat < 128) (hno : Text.isIdentContinue c = false) : c ∉ name.toList := by
  have hident := isIdent_of_isIdentifier h
  cases hn : name.toList with
  | nil => simp
  | cons d ds =>
      rw [hn, Text.isIdent_cons, Bool.and_eq_true, List.all_eq_true] at hident
      intro hmem
      rcases List.mem_cons.mp hmem with rfl | hmem
      · rw [isIdentContinue_of_isIdentStart hident.1 hc] at hno
        cases hno
      · rw [hident.2 c hmem] at hno
        cases hno

theorem blank_notMem_of_isIdentifier {name : String} (h : isIdentifier name = true) :
    ' ' ∉ name.toList :=
  notMem_of_isIdentifier h (by decide) (by decide)

theorem dot_notMem_of_isIdentifier {name : String} (h : isIdentifier name = true) :
    '.' ∉ name.toList :=
  notMem_of_isIdentifier h (by decide) (by decide)

theorem ne_empty_of_isIdentifier {name : String} (h : isIdentifier name = true) : name ≠ "" := by
  rintro rfl
  cases h

theorem ne_hyphen_of_isIdentifier {name : String} (h : isIdentifier name = true) :
    name ≠ "-" := by
  rintro rfl
  exact notMem_of_isIdentifier h (c := '-') (by decide) (by decide) (by decide)

end Characters

section Scanning

/-- A word that can be an identifier is not reserved. -/
theorem ne_spelling_of_mem_wordTokens {word : String} (h : Token.identifier ∈ wordTokens word) :
    (Keyword.reserved.all fun k => k.spelling != word) = true := by
  cases hfind : Keyword.reserved.find? fun k => k.spelling == word with
  | none =>
      rw [List.all_eq_true]
      intro k hk
      simpa using List.find?_eq_none.mp hfind k hk
  | some k =>
      have hword : Keyword.ofSpelling? word = some k := by
        rw [Keyword.ofSpelling?, List.find?_append, hfind, Option.some_or]
      have hreserved : Keyword.reserved.contains k = true :=
        List.contains_iff_mem.mpr (List.mem_of_find?_eq_some hfind)
      rw [wordTokens, hword] at h
      simp only [hreserved, if_true] at h
      cases List.mem_singleton.mp h

/-- What the head of a text can be as an identifier is one. -/
theorem isIdentifier_of_mem_candidates {cs : List Char} {n : Nat}
    (h : (Token.identifier, n) ∈ candidates cs) :
    isIdentifier (String.ofList (cs.take n)) = true := by
  unfold candidates at h
  split at h
  · cases h
  · rename_i c rest
    split at h
    · rename_i hstart
      obtain ⟨t, ht, heq⟩ := List.mem_map.mp h
      cases heq
      have htake : (c :: rest).take (c :: rest.takeWhile Text.isIdentContinue).length =
          c :: rest.takeWhile Text.isIdentContinue := by
        rw [List.length_cons, List.take_succ_cons]
        exact congrArg _ (List.prefix_iff_eq_take.mp (List.takeWhile_prefix _)).symm
      rw [htake, isIdentifier, ne_spelling_of_mem_wordTokens ht, Bool.and_true,
        String.toList_ofList, Text.isIdent_cons, hstart, Bool.true_and]
      exact List.all_takeWhile
    · -- no token of another kind is an identifier
      split at h
      · simp at h
      · split at h
        · simp at h
        · split at h <;> simp at h

/-- The identifiers among leaves are spelled as such. -/
def Leaf.IsSpelled : Leaf → Prop
  | .token .identifier l => isIdentifier l.text = true
  | _ => True

theorem isSpelled_of_scan {viable : Option Token → Bool} {c after : Cursor} {blanks : List Char}
    {comments passed : List Leaf} {t : Token} {l : Lexeme}
    (h : scan viable c blanks comments = .token passed t l after) : (Leaf.token t l).IsSpelled := by
  fun_induction scan viable c blanks comments with
  | case1 => cases h
  | case2 =>
      cases h
      trivial
  | case3 => cases h
  | case4 _ _ _ _ _ _ _ ih => exact ih h
  | case5 _ _ _ _ _ _ _ _ _ ih => exact ih h
  | case6 c blanks comments ch rest hrest hblank hcomment u n hfind =>
      cases h
      have hmem := List.mem_of_find?_eq_some hfind
      cases t with
      | identifier =>
          rw [← hrest] at hmem
          exact isIdentifier_of_mem_candidates hmem
      | _ => trivial
  | case7 => cases h

end Scanning

end StructModel.Go
