import StructModel.Extract.Declarations
import StructModel.Proofs.Go.Identifiers

/-!
# Names in declarations

A file is well named when every name in its type declarations is an identifier: the declared ones,
those of fields, and those that stand for types. This is how the parser delivers names, and all that
extraction needs of them.
-/

namespace StructModel.Go

def Binding.isWellNamed : Binding → Bool
  | .named name others => (name :: others).all isIdentifier
  | .embedded _ => true

mutual

def TypeExpr.isWellNamed : TypeExpr → Bool
  | .name n => isIdentifier n
  | .pointer t => t.isWellNamed
  | .slice t => t.isWellNamed
  | .array t => t.isWellNamed
  | .map k v => k.isWellNamed && v.isWellNamed
  | .struct ds => areWellNamed ds
  | .interface _ => true
  | .paren t => t.isWellNamed
  | .other _ => true

def FieldDecl.isWellNamed : FieldDecl → Bool
  | ⟨binding, type, _, _, _⟩ => binding.isWellNamed && type.isWellNamed

/-- Whether all of some field declarations are well named. -/
def areWellNamed : List FieldDecl → Bool
  | [] => true
  | d :: ds => d.isWellNamed && areWellNamed ds

end

theorem areWellNamed_iff {ds : List FieldDecl} :
    areWellNamed ds = true ↔ ∀ d ∈ ds, d.isWellNamed = true := by
  induction ds with
  | nil => simp [areWellNamed]
  | cons d ds ih => simp [areWellNamed, ih]

theorem FieldDecl.isWellNamed_type {d : FieldDecl} (h : d.isWellNamed = true) :
    d.type.isWellNamed = true := by
  obtain ⟨binding, type, text, tag, line⟩ := d
  simp only [FieldDecl.isWellNamed, Bool.and_eq_true] at h
  exact h.2

def TypeSpec.isWellNamed (s : TypeSpec) : Bool := isIdentifier s.name && s.type.isWellNamed

end StructModel.Go

namespace StructModel

open StructModel.Go StructModel.Extract

/-- Whether every name in the type declarations of a file is an identifier. -/
def SourceFile.isWellNamed (f : SourceFile) : Bool :=
  (f.items.flatMap typeSpecs).all TypeSpec.isWellNamed

/-- The declarations that are extracted have the names of their file. -/
theorem SourceFile.isWellNamed_decl {f : SourceFile} (hf : f.isWellNamed = true) {o : Options}
    {d : AggregateDecl} (hd : d ∈ aggregateDecls o f.items) :
    isIdentifier d.name = true ∧ areWellNamed d.fields = true := by
  obtain ⟨s, hs, hd⟩ := List.mem_filterMap.mp hd
  have hs : s.isWellNamed = true :=
    List.all_eq_true.mp hf s (List.mem_filter.mp (List.mem_filter.mp hs).1).1
  simp only [TypeSpec.isWellNamed, Bool.and_eq_true] at hs
  unfold aggregateOfSpec? at hd
  split at hd
  · rename_i ds hds
    cases hd
    rw [hds, TypeExpr.isWellNamed] at hs
    exact hs
  · cases hd

/-- So have those that are left out as generic. -/
theorem SourceFile.isIdentifier_selected {f : SourceFile} (hf : f.isWellNamed = true)
    {o : Options} {s : TypeSpec} (hs : s ∈ selectedSpecs o f.items) :
    isIdentifier s.name = true := by
  have hs := List.all_eq_true.mp hf s (List.mem_filter.mp hs).1
  simp only [TypeSpec.isWellNamed, Bool.and_eq_true] at hs
  exact hs.1

/-- The fields of a struct: a struct within a slice, whose fields clash, an embedded pointer, and a
field that is left out. -/
def orderFields : List FieldDecl := [
  ⟨.named "Lines" [], .slice (.struct [
      ⟨.named "SKU" ["Name"], .paren (.name "string"), "(string)", none, 5⟩,
      ⟨.named "Raw" [], .array (.paren (.name "byte")), "[4](byte)", some "`msg:\"Name\"`", 6⟩,
      ⟨.named "More" [], .map (.name "string") (.name "any"), "map[string]any", none, 7⟩]),
    "", some "`json:\"l\" msg:\"lines\"`", 4⟩,
  ⟨.embedded true, .name "Audit", "Audit", some "`msg:\"\"`", 9⟩,
  ⟨.named "Hidden" [], .other .channel, "chan int", some "`msg:\"-\"`", 10⟩]

/-- A well named file with one declaration. -/
def orderFile : SourceFile where
  name := "order.go"
  text := ""
  items := [.package, .types [⟨"Order", 3, false, false, .struct orderFields, ""⟩]]

theorem orderFile_isWellNamed : orderFile.isWellNamed = true := by
  decide

end StructModel
