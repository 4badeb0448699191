/-!
# Type expressions and declarations

Type expressions with the struct types inside them, and the declarations of a file as far as their
names and types matter. The parentheses around a type are kept. A field declaration knows the
source text of its type and the line it starts on.
-/

namespace StructModel.Go

/-- The kinds of types that are told apart only by their names. The tree of an incomplete one lacks
a part. -/
inductive OtherType where
  | qualified
  | generic
  | channel
  | function
  | negated
  | incomplete
  deriving DecidableEq, Repr

/-- The names that a field declaration gives to its fields: none for an embedded field, which may
be a pointer to its type. -/
inductive Binding where
  | named (name : String) (others : List String)
  | embedded (indirect : Bool)
  deriving DecidableEq, Repr

mutual

inductive TypeExpr where
  | name (ident : String)
  | pointer (target : TypeExpr)
  | slice (element : TypeExpr)
  | array (element : TypeExpr)
  | map (key value : TypeExpr)
  | struct (fields : List FieldDecl)
  | interface (members : Nat)
  | paren (inner : TypeExpr)
  | other (form : OtherType)

/-- The text is that of the type, the tag is the literal as it is written. -/
structure FieldDecl where
  binding : Binding
  type : TypeExpr
  text : String
  tag : Option String
  line : Nat

end

instance : Inhabited TypeExpr := ⟨.other .incomplete⟩

namespace TypeExpr

/-- The type inside all the parentheses around it. -/
def unparen : TypeExpr → TypeExpr
  | paren t => t.unparen
  | t => t

@[simp] theorem unparen_paren (t : TypeExpr) : (paren t).unparen = t.unparen := by
  simp [unparen]

theorem unparen_eq_self {t : TypeExpr} (h : ∀ u, t ≠ paren u) : t.unparen = t := by
  cases t <;> simp_all [unparen]

theorem unparen_ne_paren (t u : TypeExpr) : t.unparen ≠ paren u := by
  fun_induction unparen t with
  | case1 _ ih => exact ih
  | case2 _ h => exact h u

@[simp] theorem unparen_unparen (t : TypeExpr) : t.unparen.unparen = t.unparen :=
  unparen_eq_self (unparen_ne_paren t)

end TypeExpr

/-- A name declared for a type, either a new one or, for an alias, another one. -/
structure TypeSpec where
  name : String
  line : Nat
  isAlias : Bool
  /-- Whether there are type parameters. -/
  isGeneric : Bool
  type : TypeExpr
  text : String

/-- What stands at the top level of a file. Constants and variables are given by the names of each
specification. -/
inductive TopLevel where
  | package
  | imports
  | function (name : String)
  | method (name : String)
  | types (specs : List TypeSpec)
  | constants (specs : List (List String))
  | variables (specs : List (List String))
  | statement

/-- The names that a top-level item declares. -/
def TopLevel.declaredNames : TopLevel → List String
  | .function name => [name]
  | .method name => [name]
  | .types specs => specs.map TypeSpec.name
  | .constants specs => specs.flatten
  | .variables specs => specs.flatten
  | .package | .imports | .statement => []

end StructModel.Go
