import StructModel.Proofs.Go.Comments
import StructModel.Proofs.Go.Relocation

/-!
# Walks past comments

Each search among the children of a node finds what it would find without the comments there, so
comments show in the texts and lines of declarations alone. This needs no grammar: it holds of every
tree. In particular the declarations of a tree are those of its skeleton.
-/

namespace StructModel.Go

open StructModel.Grammar

section Kinds

variable {t t' : SyntaxTree}

theorem AddsComments.isComment_eq (h : AddsComments t t') : isComment t' = isComment t := by
  cases h <;> rfl

theorem AddsComments.isNamed_eq (h : AddsComments t t') : isNamed t' = isNamed t := by
  cases h <;> rfl

theorem AddsComments.isToken_eq (h : AddsComments t t') (token : Token) :
    isToken token t' = isToken token t := by
  cases h <;> rfl

theorem AddsComments.isStringLiteral_eq (h : AddsComments t t') :
    isStringLiteral t' = isStringLiteral t := by
  rw [isStringLiteral, isStringLiteral, h.isToken_eq, h.isToken_eq]

theorem AddsComments.isTypeParameters_eq (h : AddsComments t t') :
    isTypeParameters t' = isTypeParameters t := by
  cases h with
  | token | comment => rfl
  | node r h => cases r <;> rfl

theorem AddsComments.identifier?_eq (h : AddsComments t t') : identifier? t' = identifier? t := by
  cases h with
  | token t => cases t <;> rfl
  | comment | node => rfl

/-- A literal is a token, whose text has no comments. -/
theorem AddsComments.sourceText_eq (h : AddsComments t t') (ht : isStringLiteral t = true) :
    sourceText t' = sourceText t := by
  cases h with
  | token | comment => rfl
  | node => cases ht

end Kinds

/-- Comments are put in among the parts of a node and deeper, where types stay as they are but for
texts and lines. -/
inductive AddsParts : List Part → List Part → Prop
  | nil : AddsParts [] []
  | cons {p p' : Part} {ps ps' : List Part} (htree : AddsComments p.tree p'.tree)
      (htype : p'.type.relocate .forget = p.type.relocate .forget) (tail : AddsParts ps ps') :
      AddsParts (p :: ps) (p' :: ps')
  | insert (l : Lexeme) (type : TypeExpr) {ps ps' : List Part} (tail : AddsParts ps ps') :
      AddsParts ps (⟨.leaf (.comment l), type⟩ :: ps')

namespace AddsParts

/-- The type of a part without its texts and lines. -/
def outline (p : Part) : TypeExpr := p.type.relocate .forget

variable {ps ps' : List Part}

theorem outline_firstNamed? (h : AddsParts ps ps') :
    (firstNamed? ps').map outline = (firstNamed? ps).map outline := by
  unfold firstNamed?
  induction h with
  | nil => rfl
  | cons htree htype tail ih =>
      rw [List.find?_cons, List.find?_cons, htree.isNamed_eq, htree.isComment_eq]
      split
      · exact congrArg some htype
      · exact ih
  | insert l type tail ih => exact ih

theorem namedCount_eq (h : AddsParts ps ps') : namedCount ps' = namedCount ps := by
  unfold namedCount
  induction h with
  | nil => rfl
  | cons htree htype tail ih =>
      rw [List.countP_cons, List.countP_cons, ih, htree.isNamed_eq, htree.isComment_eq]
  | insert l type tail ih => exact ih

theorem outline_childAt? (h : AddsParts ps ps') (n : Nat) :
    (childAt? ps' n).map outline = (childAt? ps n).map outline := by
  induction h generalizing n with
  | nil => rfl
  | cons htree htype tail ih =>
      cases n with
      | zero =>
          rw [childAt?, childAt?, htree.isComment_eq]
          split
          · exact ih 0
          · exact congrArg some htype
      | succ n =>
          rw [childAt?, childAt?, htree.isComment_eq]
          split
          · exact ih (n + 1)
          · exact ih n
  | insert l type tail ih => cases n <;> exact ih _

theorem outline_typeChild? (h : AddsParts ps ps') :
    (typeChild? ps').map outline = (typeChild? ps).map outline := by
  induction h with
  | nil => rfl
  | @cons p p' ps ps' htree htype tail ih =>
      rw [typeChild?, typeChild?, htree.isComment_eq, htree.isStringLiteral_eq]
      cases hps : typeChild? ps <;> cases hps' : typeChild? ps' <;> simp only [hps, hps'] at ih ⊢
      · split
        · rfl
        · exact congrArg some htype
      · cases ih
      · cases ih
      · exact ih
  | @insert l type ps ps' tail ih =>
      rw [typeChild?, ← ih]
      cases typeChild? ps' <;> rfl

theorem fieldNames_eq (h : AddsParts ps ps') : fieldNames ps' = fieldNames ps := by
  induction h with
  | nil => rfl
  | @cons p p' ps ps' htree htype tail ih =>
      have htype : (typeChild? ps').isSome = (typeChild? ps).isSome := by
        simpa using congrArg Option.isSome tail.outline_typeChild?
      rw [fieldNames, fieldNames, htree.identifier?_eq, htype, ih]
  | insert l type tail ih => exact ih

theorem any_star_eq (h : AddsParts ps ps') :
    (ps'.any fun p => isToken (.op .star) p.tree) = ps.any fun p => isToken (.op .star) p.tree := by
  induction h with
  | nil => rfl
  | cons htree htype tail ih => rw [List.any_cons, List.any_cons, ih, htree.isToken_eq]
  | insert l type tail ih => exact ih

theorem tag_eq (h : AddsParts ps ps') :
    ((ps'.find? fun p => isStringLiteral p.tree).map fun p => sourceText p.tree) =
      (ps.find? fun p => isStringLiteral p.tree).map fun p => sourceText p.tree := by
  induction h with
  | nil => rfl
  | cons htree htype tail ih =>
      rw [List.find?_cons, List.find?_cons, htree.isStringLiteral_eq]
      split
      · rename_i hliteral
        exact congrArg some (htree.sourceText_eq hliteral)
      · exact ih
  | insert l type tail ih => exact ih

theorem relocate_typeOf {o o' : Option Part} (h : o'.map outline = o.map outline) :
    (typeOf o').relocate .forget = (typeOf o).relocate .forget := by
  match o, o', h with
  | none, none, _ => rfl
  | some p, some p', h => exact Option.some.inj h

theorem relocate_typeOfParts (r : Rule) (h : AddsParts ps ps') :
    (typeOfParts r ps').relocate .forget = (typeOfParts r ps).relocate .forget := by
  have hnamed := relocate_typeOf h.outline_firstNamed?
  have hat : ∀ n, (typeOf (childAt? ps' n)).relocate .forget =
      (typeOf (childAt? ps n)).relocate .forget := fun n => relocate_typeOf (h.outline_childAt? n)
  unfold typeOfParts
  split <;> simp only [TypeExpr.relocate, hnamed, hat, h.namedCount_eq]

theorem relocate_ofParts? (h : AddsParts ps ps') (line line' : Nat) :
    (FieldDecl.ofParts? ps' line').map (FieldDecl.relocate .forget) =
      (FieldDecl.ofParts? ps line).map (FieldDecl.relocate .forget) := by
  have htypes := h.outline_typeChild?
  unfold FieldDecl.ofParts?
  rw [h.fieldNames_eq, h.any_star_eq, h.tag_eq]
  cases hps : typeChild? ps <;> cases hps' : typeChild? ps' <;> simp only [hps, hps'] at htypes
  · rfl
  · cases htypes
  · cases htypes
  · simp only [Option.map_some, Option.some.injEq] at htypes ⊢
    rw [FieldDecl.relocate, FieldDecl.relocate]
    exact congrArg (FieldDecl.mk _ · _ _ _) htypes

end AddsParts

section Walk

theorem typeOfTree_struct (children : List SyntaxTree) :
    typeOfTree (.node .structType children) = .struct (structFields children) := by
  rw [typeOfTree]

theorem typeOfTree_node {r : Rule} (hr : r ≠ .structType) (children : List SyntaxTree) :
    typeOfTree (.node r children) = typeOfParts r (partsOfTrees children) := by
  rw [typeOfTree]
  exact hr

theorem structFields_list (items ts : List SyntaxTree) :
    structFields (.node .fieldDeclarationList items :: ts) = fieldsOfTrees items := by
  rw [structFields]

theorem structFields_cons {t : SyntaxTree} (ht : ∀ items, t ≠ .node .fieldDeclarationList items)
    (ts : List SyntaxTree) : structFields (t :: ts) = structFields ts := by
  rw [structFields]
  exact ht

theorem fieldsOfTrees_cons {t : SyntaxTree} (ht : ∀ children, t ≠ .node .fieldDeclaration children)
    (ts : List SyntaxTree) : fieldsOfTrees (t :: ts) = fieldsOfTrees ts := by
  rw [fieldsOfTrees]
  exact ht

theorem relocateFields_append (r : Relocation) (ds es : List FieldDecl) :
    relocateFields r (ds ++ es) = relocateFields r ds ++ relocateFields r es := by
  induction ds with
  | nil => rfl
  | cons d ds ih => rw [List.cons_append, relocateFields, relocateFields, ih, List.cons_append]

theorem relocateFields_toList (r : Relocation) (d : Option FieldDecl) :
    relocateFields r d.toList = (d.map (FieldDecl.relocate r)).toList := by
  cases d <;> rfl

-- The recursions are on the tree with the comments put in, of which each step takes something away.
mutual

theorem AddsComments.relocate_typeOfTree : ∀ {t t' : SyntaxTree}, AddsComments t t' →
    (typeOfTree t').relocate .forget = (typeOfTree t).relocate .forget
  | _, .leaf _, h => by
      cases h with
      | token t => cases t <;> rfl
      | comment => rfl
  | _, .node r _, h => by
      cases h with
      | node _ h =>
          by_cases hr : r = .structType
          · rw [hr, typeOfTree_struct, typeOfTree_struct, TypeExpr.relocate, TypeExpr.relocate,
              h.relocate_structFields]
          · rw [typeOfTree_node hr, typeOfTree_node hr]
            exact h.parts.relocate_typeOfParts r

theorem AddsCommentsAmong.parts : ∀ {ts ts' : List SyntaxTree}, AddsCommentsAmong ts ts' →
    AddsParts (partsOfTrees ts) (partsOfTrees ts')
  | _, [], h => by
      cases h
      exact .nil
  | _, t' :: ts', h => by
      cases h with
      | cons head tail => exact .cons head head.relocate_typeOfTree tail.parts
      | insert l tail => exact .insert l _ tail.parts

theorem AddsCommentsAmong.relocate_structFields : ∀ {ts ts' : List SyntaxTree},
    AddsCommentsAmong ts ts' →
      relocateFields .forget (structFields ts') = relocateFields .forget (structFields ts)
  | _, [], h => by
      cases h
      rfl
  | _, .leaf _ :: ts', h => by
      cases h with
      | cons head tail =>
          cases head <;> exact tail.relocate_structFields
      | insert l tail => exact tail.relocate_structFields
  | _, .node r children' :: ts', h => by
      cases h with
      | cons head tail =>
          cases head with
          | node _ h =>
              by_cases hr : r = .fieldDeclarationList
              · rw [hr, structFields_list, structFields_list]
                exact h.relocate_fieldsOfTrees
              · rw [structFields_cons (by simp [hr]), structFields_cons (by simp [hr])]
                exact tail.relocate_structFields

theorem AddsCommentsAmong.relocate_fieldsOfTrees : ∀ {ts ts' : List SyntaxTree},
    AddsCommentsAmong ts ts' →
      relocateFields .forget (fieldsOfTrees ts') = relocateFields .forget (fieldsOfTrees ts)
  | _, [], h => by
      cases h
      rfl
  | _, .leaf _ :: ts', h => by
      cases h with
      | cons head tail =>
          cases head <;> exact tail.relocate_fieldsOfTrees
      | insert l tail => exact tail.relocate_fieldsOfTrees
  | _, .node r children' :: ts', h => by
      cases h with
      | cons head tail =>
          cases head with
          | node _ h =>
              by_cases hr : r = .fieldDeclaration
              · rw [hr, fieldsOfTrees, fieldsOfTrees, relocateFields_append, relocateFields_append,
                  relocateFields_toList, relocateFields_toList, h.parts.relocate_ofParts?,
                  tail.relocate_fieldsOfTrees]
              · rw [fieldsOfTrees_cons (by simp [hr]), fieldsOfTrees_cons (by simp [hr])]
                exact tail.relocate_fieldsOfTrees

end

end Walk

section Declarations

variable {t t' : SyntaxTree} {ts ts' : List SyntaxTree}

theorem AddsCommentsAmong.declaredName?_eq (h : AddsCommentsAmong ts ts') :
    declaredName? ts' = declaredName? ts := by
  unfold declaredName?
  induction h using AddsCommentsAmong.induction with
  | nil => rfl
  | cons head tail ih => rw [List.findSome?_cons, List.findSome?_cons, head.identifier?_eq, ih]
  | insert l tail ih => exact ih

theorem AddsCommentsAmong.any_isTypeParameters (h : AddsCommentsAmong ts ts') :
    ts'.any isTypeParameters = ts.any isTypeParameters := by
  induction h using AddsCommentsAmong.induction with
  | nil => rfl
  | cons head tail ih => rw [List.any_cons, List.any_cons, head.isTypeParameters_eq, ih]
  | insert l tail ih => exact ih

/-- The names at the head and those behind a comma. -/
theorem AddsCommentsAmong.names_eq (h : AddsCommentsAmong ts ts') :
    leadingNames ts' = leadingNames ts ∧ furtherNames ts' = furtherNames ts := by
  induction h using AddsCommentsAmong.induction with
  | nil => exact ⟨rfl, rfl⟩
  | cons head tail ih =>
      cases head with
      | token t text =>
          constructor
          · rw [leadingNames, leadingNames, ih.2]
          · rw [furtherNames, furtherNames, ih.1]
      | comment => exact ih
      | node r h => simp only [leadingNames, furtherNames, and_self]
  | insert l tail ih => exact ih

/-- What is taken from each child stays as it is when nothing is taken from comments. -/
theorem AddsCommentsAmong.map_filterMap {α β : Type} {f : SyntaxTree → Option α} (g : α → β)
    (hcomment : ∀ l, f (.leaf (.comment l)) = none)
    (hf : ∀ {t t'}, AddsComments t t' → (f t').map g = (f t).map g)
    (h : AddsCommentsAmong ts ts') : (ts'.filterMap f).map g = (ts.filterMap f).map g := by
  rw [List.map_filterMap, List.map_filterMap]
  induction h using AddsCommentsAmong.induction with
  | nil => rfl
  | cons head tail ih => rw [List.filterMap_cons, List.filterMap_cons, hf head, ih]
  | insert l tail ih => rw [List.filterMap_cons, hcomment, Option.map_none, ih]

theorem AddsCommentsAmong.relocate_typeSpecOfNode (h : AddsCommentsAmong ts ts') (isAlias : Bool)
    (line line' : Nat) :
    (typeSpecOfNode isAlias ts' line').map (TypeSpec.relocate .forget) =
      (typeSpecOfNode isAlias ts line).map (TypeSpec.relocate .forget) := by
  have htypes := h.parts.outline_typeChild?
  unfold typeSpecOfNode
  rw [h.declaredName?_eq, h.any_isTypeParameters]
  cases declaredName? ts with
  | none => rfl
  | some name =>
      match typeChild? (partsOfTrees ts), typeChild? (partsOfTrees ts'), htypes with
      | none, none, _ => rfl
      | some p, some p', heq =>
          have htype : p'.type.relocate .forget = p.type.relocate .forget := Option.some.inj heq
          simp only [Option.map_some, TypeSpec.relocate, htype]
          rfl

theorem AddsComments.relocate_typeSpecOfTree (h : AddsComments t t') :
    (typeSpecOfTree t').map (TypeSpec.relocate .forget) =
      (typeSpecOfTree t).map (TypeSpec.relocate .forget) := by
  cases h with
  | token | comment => rfl
  | node r h =>
      cases r with
      | typeSpec => exact h.relocate_typeSpecOfNode false _ _
      | typeAlias => exact h.relocate_typeSpecOfNode true _ _
      | _ => rfl

theorem AddsComments.namesOfSpec_eq (h : AddsComments t t') (r : Rule) :
    namesOfSpec r t' = namesOfSpec r t := by
  cases h with
  | token | comment => rfl
  | node q h => rw [namesOfSpec, namesOfSpec, h.names_eq.1]

theorem AddsCommentsAmong.filterMap_namesOfSpec (h : AddsCommentsAmong ts ts') (r : Rule) :
    ts'.filterMap (namesOfSpec r) = ts.filterMap (namesOfSpec r) := by
  simpa using h.map_filterMap id (f := namesOfSpec r) (fun _ => rfl) fun head => by
    rw [head.namesOfSpec_eq]

theorem variableSpecs_cons {t : SyntaxTree} (ht : ∀ specs, t ≠ .node .varSpecList specs)
    (ts : List SyntaxTree) :
    variableSpecs (t :: ts) = (variableNames t).toList ++ variableSpecs ts := by
  rw [variableSpecs]
  exact ht

theorem AddsCommentsAmong.variableSpecs_eq (h : AddsCommentsAmong ts ts') :
    variableSpecs ts' = variableSpecs ts := by
  induction h using AddsCommentsAmong.induction with
  | nil => rfl
  | @cons t t' ts ts' head tail ih =>
      have hnames : variableNames t' = variableNames t := head.namesOfSpec_eq .varSpec
      cases head with
      | token | comment => exact ih
      | node r h =>
          by_cases hr : r = .varSpecList
          · have hspecs := h.filterMap_namesOfSpec .varSpec
            rw [hr, variableSpecs, variableSpecs, ih]
            exact congrArg (· ++ variableSpecs ts) hspecs
          · rw [variableSpecs_cons (by simp [hr]), variableSpecs_cons (by simp [hr]), hnames, ih]
  | insert l tail ih => exact ih

/-- Only the declarations of types tell where they are written. -/
def TopLevel.relocate (r : Relocation) : TopLevel → TopLevel
  | .types specs => .types (specs.map (TypeSpec.relocate r))
  | i => i

@[simp] theorem TopLevel.declaredNames_relocate (r : Relocation) (i : TopLevel) :
    (i.relocate r).declaredNames = i.declaredNames := by
  cases i with
  | types specs =>
      rw [relocate, declaredNames, declaredNames, List.map_map]
      rfl
  | _ => rfl

theorem AddsComments.relocate_topLevelOfTree (h : AddsComments t t') :
    (topLevelOfTree t').map (TopLevel.relocate .forget) =
      (topLevelOfTree t).map (TopLevel.relocate .forget) := by
  cases h with
  | token | comment => rfl
  | node r h =>
      have hspecs := h.map_filterMap (TypeSpec.relocate .forget) (fun _ => rfl)
        AddsComments.relocate_typeSpecOfTree
      cases r with
      | functionDeclaration | methodDeclaration =>
          rw [topLevelOfTree, topLevelOfTree, h.declaredName?_eq]
      | typeDeclaration =>
          simp only [topLevelOfTree, Option.map_some, TopLevel.relocate, hspecs]
      | constDeclaration =>
          rw [topLevelOfTree, topLevelOfTree, constantNames, h.filterMap_namesOfSpec]
      | varDeclaration => rw [topLevelOfTree, topLevelOfTree, h.variableSpecs_eq]
      | _ => rfl

/-- Comments leave the top level of a tree as it is but for texts and lines. -/
theorem AddsComments.relocate_topLevel (h : AddsComments t t') :
    (topLevel t').map (TopLevel.relocate .forget) =
      (topLevel t).map (TopLevel.relocate .forget) := by
  cases h with
  | token | comment => rfl
  | node r h =>
      exact h.map_filterMap (TopLevel.relocate .forget) (fun _ => rfl)
        AddsComments.relocate_topLevelOfTree

/-- So the top level of a tree is that of its skeleton, which has no comments. -/
theorem relocate_topLevel_skeleton {v : TokenTree} (h : skeleton t = [v]) :
    (topLevel t).map (TopLevel.relocate .forget) =
      (topLevel (ofSkeleton v)).map (TopLevel.relocate .forget) :=
  (addsComments_ofSkeleton h).relocate_topLevel

end Declarations

end StructModel.Go
