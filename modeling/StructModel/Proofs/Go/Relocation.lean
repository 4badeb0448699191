import StructModel.Proofs.Go.Induction

/-!
# Types written elsewhere

A field declaration carries the text of its type and the line it starts on. A relocation gives other
texts and lines to all of them, also to those of nested structs. After `Relocation.forget` only
those types differ that differ in more than where and how they are written.
-/

namespace StructModel.Go

/-- What becomes of texts and of lines. -/
structure Relocation where
  text : String → String
  line : Nat → Nat

namespace Relocation

/-- All texts become the same, and all lines. -/
def forget : Relocation := ⟨fun _ => "", fun _ => 0⟩

end Relocation

mutual

def TypeExpr.relocate (r : Relocation) : TypeExpr → TypeExpr
  | .name n => .name n
  | .pointer t => .pointer (t.relocate r)
  | .slice t => .slice (t.relocate r)
  | .array t => .array (t.relocate r)
  | .map k v => .map (k.relocate r) (v.relocate r)
  | .struct ds => .struct (relocateFields r ds)
  | .interface members => .interface members
  | .paren t => .paren (t.relocate r)
  | .other form => .other form

def FieldDecl.relocate (r : Relocation) : FieldDecl → FieldDecl
  | ⟨binding, type, text, tag, line⟩ => ⟨binding, type.relocate r, r.text text, tag, r.line line⟩

def relocateFields (r : Relocation) : List FieldDecl → List FieldDecl
  | [] => []
  | d :: ds => d.relocate r :: relocateFields r ds

end

theorem TypeExpr.unparen_relocate (r : Relocation) (t : TypeExpr) :
    (t.relocate r).unparen = t.unparen.relocate r := by
  induction t with
  | paren t ih =>
      rw [relocate, unparen_paren, unparen_paren]
      exact ih
  | _ => simp [relocate, unparen]

theorem TypeExpr.relocate_ne_name {r : Relocation} {t : TypeExpr} (h : ∀ n, t ≠ .name n)
    (n : String) : t.relocate r ≠ .name n := by
  cases t with
  | name m => exact absurd rfl (h m)
  | _ => simp [relocate]

def TypeSpec.relocate (r : Relocation) (s : TypeSpec) : TypeSpec :=
  { s with line := r.line s.line, type := s.type.relocate r, text := r.text s.text }

end StructModel.Go
