import StructModel.Proofs.Go.Induction

/-!
# Types in layers

A type is a core with layers around it: pointers, and slices and arrays, which are both rows of
items. Parentheses make no layer.
-/

namespace StructModel.Go

inductive Layer where
  | pointer
  | row
  deriving DecidableEq, Repr

namespace TypeExpr

/-- The type inside all pointers, rows and parentheses. -/
def core : TypeExpr → TypeExpr
  | pointer t => t.core
  | slice t => t.core
  | array t => t.core
  | paren t => t.core
  | t => t

/-- The pointers and rows around the core of a type, the outermost first. -/
def layers : TypeExpr → List Layer
  | pointer t => .pointer :: t.layers
  | slice t => .row :: t.layers
  | array t => .row :: t.layers
  | paren t => t.layers
  | _ => []

/-- A type without layers is its core in parentheses. -/
theorem unparen_eq_core {t : TypeExpr} (h : t.layers = []) : t.unparen = t.core := by
  induction t with
  | pointer t ih => cases h
  | slice t ih => cases h
  | array t ih => cases h
  | paren t ih =>
      rw [unparen_paren]
      exact ih h
  | _ => rfl

/-- Parentheses around a name make no layer. -/
theorem layers_of_unparen_eq_name {t : TypeExpr} {n : String} (h : t.unparen = .name n) :
    t.layers = [] := by
  induction t with
  | name m => rfl
  | paren t ih =>
      rw [unparen_paren] at h
      exact ih h
  | _ => cases h

end TypeExpr

end StructModel.Go
