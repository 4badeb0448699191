import StructModel.Tag.Literal

/-!
# Looking up a key in a tag

A tag is a sequence of pairs, a name and a quoted value with a colon between them and blanks before
each pair. The first pair with the name decides. Whatever follows a malformed pair is not read.
-/

namespace StructModel.Tag

/-- Names hold no controls, blanks, colons or quotes. -/
def isNameChar (c : Char) : Bool :=
  32 < c.toNat && c != ':' && c != '"' && c.toNat != 127

/-- The text up to and including the first quote that no backslash precedes, and the rest. -/
def splitQuoted : List Char → Option (List Char × List Char)
  | [] => none
  | '"' :: cs => some (['"'], cs)
  | ['\\'] => none
  | '\\' :: c :: cs => (splitQuoted cs).map fun (q, r) => ('\\' :: c :: q, r)
  | c :: cs => (splitQuoted cs).map fun (q, r) => (c :: q, r)

theorem append_of_splitQuoted {cs q r : List Char} (h : splitQuoted cs = some (q, r)) :
    q ++ r = cs := by
  fun_induction splitQuoted cs generalizing q r with
  | case1 => simp at h
  | case2 =>
    simp only [Option.some.injEq, Prod.mk.injEq] at h
    obtain ⟨rfl, rfl⟩ := h
    rfl
  | case3 => simp at h
  | case4 c cs ih =>
    obtain ⟨⟨q', r'⟩, h', he⟩ := Option.map_eq_some_iff.mp h
    simp only [Prod.mk.injEq] at he
    obtain ⟨rfl, rfl⟩ := he
    simp [ih h']
  | case5 c cs _ _ _ ih =>
    obtain ⟨⟨q', r'⟩, h', he⟩ := Option.map_eq_some_iff.mp h
    simp only [Prod.mk.injEq] at he
    obtain ⟨rfl, rfl⟩ := he
    simp [ih h']

/-- A name with its quoted value and what comes after the pair. -/
structure Pair where
  name : List Char
  quoted : List Char
  rest : List Char
  deriving DecidableEq, Repr

/-- The pair at the head of a tag. -/
def pair? (tag : List Char) : Option Pair :=
  let text := tag.dropWhile (· == ' ')
  let name := text.takeWhile isNameChar
  match text.dropWhile isNameChar with
  | ':' :: '"' :: cs =>
    if name = [] then none
    else (splitQuoted cs).map fun (q, r) => ⟨name, '"' :: q, r⟩
  | _ => none

theorem length_rest_of_pair? {tag : List Char} {p : Pair} (h : pair? tag = some p) :
    p.rest.length < tag.length := by
  simp only [pair?] at h
  split at h
  · rename_i cs hcs
    split at h
    · simp at h
    · obtain ⟨⟨q, r⟩, hs, rfl⟩ := Option.map_eq_some_iff.mp h
      have hle : ((tag.dropWhile (· == ' ')).dropWhile isNameChar).length ≤ tag.length :=
        Nat.le_trans (List.dropWhile_sublist _).length_le (List.dropWhile_sublist _).length_le
      have happ := congrArg List.length (append_of_splitQuoted hs)
      rw [hcs] at hle
      simp only [List.length_append, List.length_cons] at happ hle ⊢
      omega
  · simp at h

/-- The quoted value of the first pair with the given name. -/
def findQuoted (key tag : List Char) : Option (List Char) :=
  match _h : pair? tag with
  | none => none
  | some p => if p.name = key then some p.quoted else findQuoted key p.rest
termination_by tag.length
decreasing_by exact length_rest_of_pair? _h

/-- The value under a key of a tag. -/
def lookup (tag key : String) : Option String :=
  (findQuoted key.toList tag.toList).bind unquote

end StructModel.Tag
