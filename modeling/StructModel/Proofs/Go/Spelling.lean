import StructModel.Proofs.Go.Layers

/-!
# Fields spelled out

A declaration of several names stands for one declaration of each name, without the tag, and an
embedded field with a name stands for a field that is given the name of its type. So a struct can be
spelled out in declarations of one name each, and so can the structs inside the types of its fields,
wherever they stand.
-/

namespace StructModel.Go

/-- Whether no struct can stand in a type. Of a channel, a function, the arguments of a generic
type, the length of an array and the members of an interface only the text is kept, so these may
have structs in them. -/
def TypeExpr.isStructFree : TypeExpr → Bool
  | .name _ => true
  | .pointer t => t.isStructFree
  | .slice t => t.isStructFree
  | .array _ => false
  | .map k v => k.isStructFree && v.isStructFree
  | .struct _ => false
  | .interface members => members == 0
  | .paren t => t.isStructFree
  | .other form => form == .qualified

/-- How types are written when fields are spelled out: a pointer to the type with the given text,
and a type in which structs may stand. -/
structure Spelling where
  pointer : String → String
  nested : String → String

/-- The text of a type when the structs within it are spelled out. -/
def Spelling.text (w : Spelling) (type : TypeExpr) (text : String) : String :=
  if type.isStructFree then text else w.nested text

mutual

def TypeExpr.spelled (w : Spelling) : TypeExpr → TypeExpr
  | .name n => .name n
  | .pointer t => .pointer (t.spelled w)
  | .slice t => .slice (t.spelled w)
  | .array t => .array (t.spelled w)
  | .map k v => .map (k.spelled w) (v.spelled w)
  | .struct ds => .struct (spelledFields w ds)
  | .interface members => .interface members
  | .paren t => .paren (t.spelled w)
  | .other form => .other form

/-- The declarations of one name that a declaration stands for. All of them are on its line. -/
def FieldDecl.spelled (w : Spelling) : FieldDecl → List FieldDecl
  | ⟨.named name [], type, text, tag, line⟩ =>
    [⟨.named name [], type.spelled w, w.text type text, tag, line⟩]
  | ⟨.named name (other :: others), type, text, _, line⟩ =>
    (name :: other :: others).map fun n =>
      ⟨.named n [], type.spelled w, w.text type text, none, line⟩
  | ⟨.embedded false, .name n, text, tag, line⟩ => [⟨.named n [], .name n, text, tag, line⟩]
  | ⟨.embedded true, .name n, text, tag, line⟩ =>
    [⟨.named n [], .pointer (.name n), w.pointer text, tag, line⟩]
  | d => [d]

def spelledFields (w : Spelling) : List FieldDecl → List FieldDecl
  | [] => []
  | d :: ds => d.spelled w ++ spelledFields w ds

end

variable (w : Spelling)

theorem TypeExpr.unparen_spelled (t : TypeExpr) :
    (t.spelled w).unparen = t.unparen.spelled w := by
  induction t with
  | paren t ih =>
      rw [spelled, unparen_paren, unparen_paren]
      exact ih
  | _ => simp [spelled, unparen]

theorem FieldDecl.spelled_unnamed {indirect : Bool} {type : TypeExpr} {text : String}
    {tag : Option String} {line : Nat} (h : ∀ n, type ≠ .name n) :
    FieldDecl.spelled w ⟨.embedded indirect, type, text, tag, line⟩ =
      [⟨.embedded indirect, type, text, tag, line⟩] := by
  cases type with
  | name n => exact absurd rfl (h n)
  | _ => cases indirect <;> rfl

example : spelledFields ⟨("*" ++ ·), id⟩ [
    ⟨.named "A" ["B"], .struct [⟨.embedded true, .name "T", "T", none, 5⟩], "", some "`x`", 4⟩,
    ⟨.embedded false, .name "T", "T", some "`y`", 7⟩] = [
    ⟨.named "A" [], .struct [⟨.named "T" [], .pointer (.name "T"), "*T", none, 5⟩], "", none, 4⟩,
    ⟨.named "B" [], .struct [⟨.named "T" [], .pointer (.name "T"), "*T", none, 5⟩], "", none, 4⟩,
    ⟨.named "T" [], .name "T", "T", some "`y`", 7⟩] := rfl

/-- The structs in a channel are spelled out in its text. -/
example (w : Spelling) (text : String) :
    spelledFields w [⟨.named "Done" [], .other .channel, text, none, 4⟩] =
      [⟨.named "Done" [], .other .channel, w.nested text, none, 4⟩] := rfl

end StructModel.Go
