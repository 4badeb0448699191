import Mathlib.Tactic.SplitIfs
import StructModel.Text.Quoted

/-!
# Quoted names can be read back

Quoting is a code without ambiguity: no two names have the same quoted text, and where a quoted name
stands at the head of a longer text, it is plain where it ends.
-/

namespace StructModel.Text

/-- A text is cut in one way only at the first place of a character. -/
theorem cut_unique {α : Type} {a : α} {xs ys zs ws : List α} (hx : a ∉ xs) (hy : a ∉ ys)
    (h : xs ++ a :: zs = ys ++ a :: ws) : xs = ys ∧ zs = ws := by
  induction xs generalizing ys with
  | nil =>
      cases ys with
      | nil => exact ⟨rfl, (List.cons.inj h).2⟩
      | cons y ys => exact absurd ((List.cons.inj h).1 ▸ List.mem_cons_self) hy
  | cons x xs ih =>
      cases ys with
      | nil => exact absurd ((List.cons.inj h).1 ▸ List.mem_cons_self) hx
      | cons y ys =>
          obtain ⟨rfl, htail⟩ := List.cons.inj h
          have hcut := ih (List.not_mem_of_not_mem_cons hx) (List.not_mem_of_not_mem_cons hy) htail
          exact ⟨congrArg (x :: ·) hcut.1, hcut.2⟩

section Hexadecimal

theorem digitChar_injective : ∀ m < 16, ∀ n < 16, Nat.digitChar m = Nat.digitChar n → m = n := by
  decide

/-- The last digit of a number of several digits stands behind those of its sixteenth part. -/
theorem hexText_of_le {n : Nat} (h : 16 ≤ n) :
    hexText n = hexText (n / 16) ++ [Nat.digitChar (n % 16)] :=
  Nat.toDigits_of_base_le (by decide) h

theorem hexText_of_lt {n : Nat} (h : n < 16) : hexText n = [Nat.digitChar n] :=
  Nat.toDigits_of_lt_base h

theorem hexText_ne_nil (n : Nat) : hexText n ≠ [] := Nat.toDigits_ne_nil

/-- One digit is not a row of several. -/
private theorem hexText_ne_of_lt_of_le {m n : Nat} (hm : m < 16) (hn : 16 ≤ n) :
    hexText m ≠ hexText n := by
  intro h
  rw [hexText_of_lt hm, hexText_of_le hn] at h
  have hlength := congrArg List.length h
  have hpos := List.length_pos_iff.mpr (hexText_ne_nil (n / 16))
  simp only [List.length_cons, List.length_nil, List.length_append] at hlength
  omega

theorem hexText_injective {m n : Nat} (h : hexText m = hexText n) : m = n := by
  induction m using Nat.strongRecOn generalizing n with
  | ind m ih =>
      rcases Nat.lt_or_ge m 16 with hm | hm <;> rcases Nat.lt_or_ge n 16 with hn | hn
      · rw [hexText_of_lt hm, hexText_of_lt hn] at h
        exact digitChar_injective m hm n hn (List.cons.inj h).1
      · exact absurd h (hexText_ne_of_lt_of_le hm hn)
      · exact absurd h.symm (hexText_ne_of_lt_of_le hn hm)
      · rw [hexText_of_le hm, hexText_of_le hn] at h
        obtain ⟨hdigits, hlast⟩ := List.append_inj' h rfl
        have hquotient : m / 16 = n / 16 := ih (m / 16) (by omega) hdigits
        have hremainder : m % 16 = n % 16 :=
          digitChar_injective _ (by omega) _ (by omega) (List.cons.inj hlast).1
        omega

theorem brace_notMem_hexText (n : Nat) : '\x7d' ∉ hexText n := by
  have hdigit : ∀ d < 16, '\x7d' ≠ Nat.digitChar d := by decide
  induction n using Nat.strongRecOn with
  | ind n ih =>
      rcases Nat.lt_or_ge n 16 with hn | hn
      · rw [hexText_of_lt hn, List.mem_singleton]
        exact hdigit n hn
      · rw [hexText_of_le hn, List.mem_append, List.mem_singleton]
        rintro (h | h)
        · exact ih (n / 16) (by omega) h
        · exact hdigit (n % 16) (by omega) h

end Hexadecimal

/-- The characters with an escape of one letter, each behind its letter. -/
def letterEscapes : List (Char × Char) :=
  [('"', '"'), ('\\', '\\'), ('n', '\n'), ('r', '\r'), ('t', '\t'), ('0', '\x00')]

/-- The three forms that a quoted character can take. -/
inductive QuotedForm (c : Char) : List Char → Prop
  | plain (hslash : c ≠ '\\') (hquote : c ≠ '"') : QuotedForm c [c]
  | letter (e : Char) (h : (e, c) ∈ letterEscapes) : QuotedForm c ['\\', e]
  | code : QuotedForm c ('\\' :: 'u' :: '\x7b' :: (hexText c.toNat ++ ['\x7d']))

theorem quotedForm_quotedChar (c : Char) : QuotedForm c (quotedChar c) := by
  unfold quotedChar
  split_ifs with hquote hslash hn hr ht hzero hvisible
  · exact QuotedForm.letter '"' (by simp [letterEscapes, hquote])
  · exact QuotedForm.letter '\\' (by simp [letterEscapes, hslash])
  · exact QuotedForm.letter 'n' (by simp [letterEscapes, hn])
  · exact QuotedForm.letter 'r' (by simp [letterEscapes, hr])
  · exact QuotedForm.letter 't' (by simp [letterEscapes, ht])
  · exact QuotedForm.letter '0' (by simp [letterEscapes, hzero])
  · exact QuotedForm.plain hslash hquote
  · exact QuotedForm.code

theorem letterEscapes_unique {e c d : Char} (hc : (e, c) ∈ letterEscapes)
    (hd : (e, d) ∈ letterEscapes) : c = d := by
  have hall : ∀ p ∈ letterEscapes, ∀ q ∈ letterEscapes, p.1 = q.1 → p.2 = q.2 := by decide
  exact hall _ hc _ hd rfl

theorem ne_of_mem_letterEscapes {e c : Char} (h : (e, c) ∈ letterEscapes) : e ≠ 'u' := by
  have hall : ∀ p ∈ letterEscapes, p.1 ≠ 'u' := by decide
  exact hall _ h

/-- No quoted character begins another one. -/
theorem QuotedForm.unique {c d : Char} {cs ds x y : List Char} (hc : QuotedForm c cs)
    (hd : QuotedForm d ds) (h : cs ++ x = ds ++ y) : c = d ∧ x = y := by
  cases hc with
  | plain hslash hquote =>
      cases hd with
      | plain => exact List.cons.inj h
      | letter e he => exact absurd (List.cons.inj h).1 hslash
      | code => exact absurd (List.cons.inj h).1 hslash
  | letter e he =>
      cases hd with
      | plain hslash hquote => exact absurd (List.cons.inj h).1.symm hslash
      | letter e' he' =>
          obtain ⟨rfl, htail⟩ := List.cons.inj (List.cons.inj h).2
          exact ⟨letterEscapes_unique he he', htail⟩
      | code =>
          exact absurd (List.cons.inj (List.cons.inj h).2).1 (ne_of_mem_letterEscapes he)
  | code =>
      cases hd with
      | plain hslash hquote => exact absurd (List.cons.inj h).1.symm hslash
      | letter e he =>
          exact absurd (List.cons.inj (List.cons.inj h).2).1.symm (ne_of_mem_letterEscapes he)
      | code =>
          simp only [List.cons_append, List.append_assoc, List.nil_append, List.cons.injEq,
            true_and] at h
          obtain ⟨hhex, htail⟩ :=
            cut_unique (brace_notMem_hexText c.toNat) (brace_notMem_hexText d.toNat) h
          exact ⟨Char.toNat_inj.mp (hexText_injective hhex), htail⟩

theorem QuotedForm.head_ne_quote {c : Char} {cs : List Char} (h : QuotedForm c cs)
    (x y : List Char) : cs ++ x ≠ '"' :: y := by
  intro heq
  cases h with
  | plain hslash hquote => exact hquote (List.cons.inj heq).1
  | letter e he => exact absurd (List.cons.inj heq).1 (by decide)
  | code => exact absurd (List.cons.inj heq).1 (by decide)

/-- Quoted characters up to the closing quote can be read in one way only. -/
theorem quotedChars_unique {cs ds x y : List Char}
    (h : cs.flatMap quotedChar ++ '"' :: x = ds.flatMap quotedChar ++ '"' :: y) : cs = ds := by
  induction cs generalizing ds with
  | nil =>
      cases ds with
      | nil => rfl
      | cons d ds =>
          rw [List.flatMap_cons, List.append_assoc] at h
          exact absurd h.symm ((quotedForm_quotedChar d).head_ne_quote _ _)
  | cons c cs ih =>
      rw [List.flatMap_cons, List.append_assoc] at h
      cases ds with
      | nil => exact absurd h ((quotedForm_quotedChar c).head_ne_quote _ _)
      | cons d ds =>
          rw [List.flatMap_cons, List.append_assoc] at h
          obtain ⟨rfl, htail⟩ := (quotedForm_quotedChar c).unique (quotedForm_quotedChar d) h
          exact congrArg (c :: ·) (ih htail)

/-- A quoted name at the head of a text tells which name it is. -/
theorem quoted_append_inj {s t x y : String} (h : quoted s ++ x = quoted t ++ y) : s = t := by
  have hlist := congrArg String.toList h
  simp only [quoted, String.toList_append, String.toList_ofList, List.cons_append,
    List.append_assoc, List.nil_append, List.cons.injEq, true_and] at hlist
  exact String.toList_inj.mp (quotedChars_unique hlist)

end StructModel.Text
