import StructModel.Proofs.Go.Names
import StructModel.Proofs.Go.Outline
import StructModel.Proofs.Go.Soundness

/-!
# Names in parsed files

Every name in the declarations of a tree is that of an identifier in it, and the identifiers in the
tree of a text are spelled as such. So a parsed file is well named.
-/

namespace StructModel.Go

open StructModel.Grammar StructModel.Extract

/-- The identifiers in a tree are spelled as such. -/
def IsSpelled (t : SyntaxTree) : Prop := ∀ x ∈ t.leaves, x.IsSpelled

section Trees

variable {t : SyntaxTree} {ts : List SyntaxTree}

theorem IsSpelled.children {r : Rule} (h : IsSpelled (.node r ts)) : ∀ u ∈ ts, IsSpelled u := by
  intro u hu x hx
  apply h
  exact mem_leavesAll_iff.mpr ⟨u, hu, hx⟩

theorem IsSpelled.isIdentifier (h : IsSpelled t) {name : String}
    (hname : identifier? t = some name) : isIdentifier name = true := by
  unfold identifier? at hname
  split at hname
  · cases hname
    exact h _ (List.mem_singleton_self _)
  · cases hname

theorem isIdentifier_declaredName (h : ∀ u ∈ ts, IsSpelled u) {name : String}
    (hname : declaredName? ts = some name) : isIdentifier name = true := by
  obtain ⟨u, hu, hname⟩ := List.exists_of_findSome?_eq_some hname
  exact (h u hu).isIdentifier hname

end Trees

/-- The names in a part of a node, and in the type that it would be, are identifiers. -/
structure Part.IsWellNamed (p : Part) : Prop where
  tree : IsSpelled p.tree
  type : p.type.isWellNamed = true

section Parts

variable {parts : List Part} {p : Part}

theorem mem_of_childAt? {n : Nat} (h : childAt? parts n = some p) : p ∈ parts := by
  fun_induction childAt? parts n with
  | case1 => cases h
  | case2 q ps hq ih => exact List.mem_cons_of_mem q (ih h)
  | case3 q ps hq =>
      cases h
      exact List.mem_cons_self
  | case4 q ps n hq ih => exact List.mem_cons_of_mem q (ih h)
  | case5 q ps n hq ih => exact List.mem_cons_of_mem q (ih h)

theorem mem_of_typeChild? (h : typeChild? parts = some p) : p ∈ parts := by
  induction parts with
  | nil => cases h
  | cons q qs ih =>
      rw [typeChild?] at h
      cases hqs : typeChild? qs with
      | some r =>
          rw [hqs] at h
          exact List.mem_cons_of_mem q (ih (hqs.trans h))
      | none =>
          rw [hqs] at h
          dsimp only at h
          split at h
          · cases h
          · cases h
            exact List.mem_cons_self

theorem isWellNamed_typeOf {o : Option Part} (h : ∀ p, o = some p → p.IsWellNamed) :
    (typeOf o).isWellNamed = true := by
  cases o with
  | none => rfl
  | some p => exact (h p rfl).type

variable (h : ∀ p ∈ parts, p.IsWellNamed)

include h

theorem isWellNamed_typeOfParts (r : Rule) : (typeOfParts r parts).isWellNamed = true := by
  have hnamed : (typeOf (firstNamed? parts)).isWellNamed = true := by
    apply isWellNamed_typeOf
    intro p hp
    exact h p (List.mem_of_find?_eq_some hp)
  have hat : ∀ n, (typeOf (childAt? parts n)).isWellNamed = true := by
    intro n
    apply isWellNamed_typeOf
    intro p hp
    exact h p (mem_of_childAt? hp)
  unfold typeOfParts
  split <;> simp only [TypeExpr.isWellNamed, hnamed, hat, Bool.and_self]

theorem isIdentifier_fieldNames : ∀ name ∈ fieldNames parts, isIdentifier name = true := by
  induction parts with
  | nil => exact fun name hname => nomatch hname
  | cons p ps ih =>
      obtain ⟨hp, hps⟩ := List.forall_mem_cons.mp h
      intro name hname
      rw [fieldNames] at hname
      split at hname
      · rename_i own hown
        split at hname
        · rcases List.mem_cons.mp hname with rfl | hname
          · exact hp.tree.isIdentifier hown
          · exact ih hps name hname
        · exact ih hps name hname
      · exact ih hps name hname

theorem isWellNamed_ofParts? {line : Nat} {d : FieldDecl}
    (hd : FieldDecl.ofParts? parts line = some d) : d.isWellNamed = true := by
  have hnames := isIdentifier_fieldNames h
  unfold FieldDecl.ofParts? at hd
  split at hd
  · cases hd
  · rename_i p hp
    cases hd
    rw [FieldDecl.isWellNamed, (h p (mem_of_typeChild? hp)).type, Bool.and_true]
    cases hbinding : fieldNames parts with
    | nil => rfl
    | cons name others =>
        rw [hbinding] at hnames
        exact List.all_eq_true.mpr hnames

end Parts

section Walk

theorem areWellNamed_append {ds es : List FieldDecl} (hds : areWellNamed ds = true)
    (hes : areWellNamed es = true) : areWellNamed (ds ++ es) = true := by
  rw [areWellNamed_iff] at hds hes ⊢
  exact List.forall_mem_append.mpr ⟨hds, hes⟩

theorem areWellNamed_toList {d : Option FieldDecl} (h : ∀ e, d = some e → e.isWellNamed = true) :
    areWellNamed d.toList = true := by
  rw [areWellNamed_iff]
  intro e he
  exact h e (Option.mem_toList.mp he)

mutual

theorem IsSpelled.isWellNamed_typeOfTree : ∀ {t : SyntaxTree}, IsSpelled t →
    (typeOfTree t).isWellNamed = true
  | .leaf x, h => by
      cases x with
      | comment l => rfl
      | token u l =>
          cases u with
          | identifier => exact h _ (List.mem_singleton_self _)
          | _ => rfl
  | .node r children, h => by
      by_cases hr : r = .structType
      · rw [hr, typeOfTree_struct]
        exact areWellNamed_structFields h.children
      · rw [typeOfTree_node hr]
        exact isWellNamed_typeOfParts (isWellNamed_partsOfTrees h.children) r

theorem isWellNamed_partsOfTrees : ∀ {ts : List SyntaxTree}, (∀ t ∈ ts, IsSpelled t) →
    ∀ p ∈ partsOfTrees ts, p.IsWellNamed
  | [], _ => fun p hp => nomatch hp
  | t :: ts, h => by
      obtain ⟨ht, hts⟩ := List.forall_mem_cons.mp h
      have hpart : Part.IsWellNamed ⟨t, typeOfTree t⟩ := ⟨ht, ht.isWellNamed_typeOfTree⟩
      rw [partsOfTrees]
      exact List.forall_mem_cons.mpr ⟨hpart, isWellNamed_partsOfTrees hts⟩

theorem areWellNamed_structFields : ∀ {ts : List SyntaxTree}, (∀ t ∈ ts, IsSpelled t) →
    areWellNamed (structFields ts) = true
  | [], _ => rfl
  | .leaf x :: ts, h => by
      rw [structFields_cons (by simp)]
      exact areWellNamed_structFields (List.forall_mem_cons.mp h).2
  | .node r children :: ts, h => by
      obtain ⟨ht, hts⟩ := List.forall_mem_cons.mp h
      by_cases hr : r = .fieldDeclarationList
      · rw [hr, structFields_list]
        exact areWellNamed_fieldsOfTrees ht.children
      · rw [structFields_cons (by simp [hr])]
        exact areWellNamed_structFields hts

theorem areWellNamed_fieldsOfTrees : ∀ {ts : List SyntaxTree}, (∀ t ∈ ts, IsSpelled t) →
    areWellNamed (fieldsOfTrees ts) = true
  | [], _ => rfl
  | .leaf x :: ts, h => by
      rw [fieldsOfTrees_cons (by simp)]
      exact areWellNamed_fieldsOfTrees (List.forall_mem_cons.mp h).2
  | .node r children :: ts, h => by
      obtain ⟨ht, hts⟩ := List.forall_mem_cons.mp h
      by_cases hr : r = .fieldDeclaration
      · rw [hr, fieldsOfTrees]
        apply areWellNamed_append
        · apply areWellNamed_toList
          intro d hd
          exact isWellNamed_ofParts? (isWellNamed_partsOfTrees ht.children) hd
        · exact areWellNamed_fieldsOfTrees hts
      · rw [fieldsOfTrees_cons (by simp [hr])]
        exact areWellNamed_fieldsOfTrees hts

end

end Walk

section Files

theorem isWellNamed_typeSpecOfNode {ts : List SyntaxTree} (h : ∀ t ∈ ts, IsSpelled t)
    {isAlias : Bool} {line : Nat} {s : TypeSpec} (hs : typeSpecOfNode isAlias ts line = some s) :
    s.isWellNamed = true := by
  unfold typeSpecOfNode at hs
  split at hs
  · rename_i name p hname hp
    cases hs
    have hpart := isWellNamed_partsOfTrees h p (mem_of_typeChild? hp)
    exact Bool.and_eq_true_iff.mpr ⟨isIdentifier_declaredName h hname, hpart.type⟩
  · cases hs

theorem IsSpelled.isWellNamed_typeSpecOfTree {t : SyntaxTree} (h : IsSpelled t) {s : TypeSpec}
    (hs : typeSpecOfTree t = some s) : s.isWellNamed = true := by
  unfold typeSpecOfTree at hs
  split at hs
  · exact isWellNamed_typeSpecOfNode h.children hs
  · exact isWellNamed_typeSpecOfNode h.children hs
  · cases hs

theorem IsSpelled.isWellNamed_topLevelOfTree {t : SyntaxTree} (h : IsSpelled t)
    {specs : List TypeSpec} (hi : topLevelOfTree t = some (.types specs)) :
    ∀ s ∈ specs, s.isWellNamed = true := by
  cases t with
  | leaf x => cases hi
  | node r children =>
      cases r with
      | typeDeclaration =>
          cases hi
          intro s hs
          obtain ⟨u, hu, hs⟩ := List.mem_filterMap.mp hs
          exact (h.children u hu).isWellNamed_typeSpecOfTree hs
      | functionDeclaration | methodDeclaration =>
          obtain ⟨name, -, heq⟩ := Option.map_eq_some_iff.mp hi
          cases heq
      | _ => cases hi

theorem IsSpelled.isWellNamed_topLevel {t : SyntaxTree} (h : IsSpelled t) :
    ∀ i ∈ topLevel t, ∀ s ∈ typeSpecs i, s.isWellNamed = true := by
  intro i hi s hs
  cases t with
  | leaf x => cases hi
  | node r children =>
      obtain ⟨u, hu, hi⟩ := List.mem_filterMap.mp hi
      cases i with
      | types specs => exact (h.children u hu).isWellNamed_topLevelOfTree hi s hs
      | _ => cases hs

end Files

end StructModel.Go

namespace StructModel

open StructModel.Go StructModel.Extract

/-- All names in the type declarations of a parsed file are identifiers. -/
theorem SourceFile.isWellNamed_of_parse {text name : String} {f : SourceFile}
    (h : SourceFile.parse text name = .ok f) : f.isWellNamed = true := by
  unfold SourceFile.parse at h
  split at h
  · cases h
  · rename_i tree htree
    have hspelled : IsSpelled tree := isSpelled_of_parse htree
    unfold SourceFile.ofTree at h
    simp only at h
    split at h
    · cases h
      apply List.all_eq_true.mpr
      intro s hs
      obtain ⟨i, hi, hspec⟩ := List.mem_flatMap.mp hs
      exact hspelled.isWellNamed_topLevel i hi s hspec
    · cases h

end StructModel
