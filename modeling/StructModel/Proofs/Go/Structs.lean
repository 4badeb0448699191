import StructModel.Proofs.Go.Layers

/-!
# Structs at every depth

The structs of a type are its own, those of the types of its fields, and those in the keys and
values of maps. The fields of a struct lead to some of them: to those that are the cores of their
types.
-/

namespace StructModel.Go

mutual

/-- The structs at every depth of a type, each by its field declarations. -/
def TypeExpr.structs : TypeExpr → List (List FieldDecl)
  | .pointer t => t.structs
  | .slice t => t.structs
  | .array t => t.structs
  | .map k v => k.structs ++ v.structs
  | .struct ds => ds :: structsOfFields ds
  | .paren t => t.structs
  | .name _ | .interface _ | .other _ => []

def FieldDecl.structs : FieldDecl → List (List FieldDecl)
  | ⟨_, type, _, _, _⟩ => type.structs

def structsOfFields : List FieldDecl → List (List FieldDecl)
  | [] => []
  | d :: ds => d.structs ++ structsOfFields ds

end

theorem mem_structsOfFields {ds deep : List FieldDecl} {d : FieldDecl} (hd : d ∈ ds)
    (h : deep ∈ d.type.structs) : deep ∈ structsOfFields ds := by
  induction ds with
  | nil => cases hd
  | cons e es ih =>
      rw [structsOfFields, List.mem_append]
      rcases List.mem_cons.mp hd with rfl | hd
      · obtain ⟨binding, type, text, tag, line⟩ := d
        rw [FieldDecl.structs]
        exact .inl h
      · exact .inr (ih hd)

/-- Pointers, rows and parentheses have no structs of their own. -/
theorem TypeExpr.structs_core (t : TypeExpr) : t.core.structs = t.structs := by
  induction t with
  | pointer t ih =>
      rw [structs]
      exact ih
  | slice t ih =>
      rw [structs]
      exact ih
  | array t ih =>
      rw [structs]
      exact ih
  | paren t ih =>
      rw [structs]
      exact ih
  | _ => rfl

/-- The fields of a struct lead to another one: to itself, and by way of a named field with a struct
as its core to whatever the fields of that one lead to. -/
inductive LeadsTo : List FieldDecl → List FieldDecl → Prop
  | self (ds : List FieldDecl) : LeadsTo ds ds
  | field {ds inner deep : List FieldDecl} {d : FieldDecl} {name : String} {others : List String}
      (hd : d ∈ ds) (hbinding : d.binding = .named name others)
      (hcore : d.type.core = .struct inner) (h : LeadsTo inner deep) : LeadsTo ds deep

theorem LeadsTo.mem_structs {ds deep : List FieldDecl} (h : LeadsTo ds deep) :
    deep ∈ (TypeExpr.struct ds).structs := by
  induction h with
  | self ds =>
      rw [TypeExpr.structs]
      exact List.mem_cons_self
  | @field ds inner deep d name others hd hbinding hcore h ih =>
      rw [← hcore, TypeExpr.structs_core] at ih
      rw [TypeExpr.structs]
      exact List.mem_cons_of_mem ds (mem_structsOfFields hd ih)

end StructModel.Go
