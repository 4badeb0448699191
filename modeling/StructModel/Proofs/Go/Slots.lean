import StructModel.Proofs.Go.Induction
import StructModel.Proofs.Go.Outline

/-!
# Slots of struct types

A struct type has a slot for each name of its field declarations and one for each embedded field, in
source order. The listing here goes by the rows of the grammar and not by the searches of a walk. In
a tree without errors every struct type has one, and the walk keeps to it: the entries of the
declarations that it finds are the slots of the tree.
-/

namespace StructModel.Go

open StructModel.Grammar

/-- A slot of a struct type. The type, its text, the tag and the line are those of the declaration
that the slot is in. -/
structure FieldSlot where
  name : String
  isEmbedded : Bool
  type : TypeExpr
  text : String
  tag : Option String
  line : Nat

section Listing

/-- The children of a node but for comments. -/
def uncommented (ts : List SyntaxTree) : List SyntaxTree := ts.filter fun t => !isComment t

/-- Names with commas between them. -/
inductive NameRow : List SyntaxTree → List String → Prop
  | last (l : Lexeme) : NameRow [.leaf (.token .identifier l)] [l.text]
  | more (l c : Lexeme) {ts : List SyntaxTree} {names : List String} (h : NameRow ts names) :
      NameRow (.leaf (.token .identifier l) :: .leaf (.token (.op .comma) c) :: ts)
        (l.text :: names)

/-- A tag as it is written, or none. -/
inductive TagRow : List SyntaxTree → Option String → Prop
  | absent : TagRow [] none
  | interpreted (l : Lexeme) : TagRow [.leaf (.token .stringLiteral l)] (some l.text)
  | raw (l : Lexeme) : TagRow [.leaf (.token .rawStringLiteral l)] (some l.text)

/-- A type is an identifier or a node. -/
inductive IsTypeTree : SyntaxTree → Prop
  | identifier (l : Lexeme) : IsTypeTree (.leaf (.token .identifier l))
  | node (r : Rule) (children : List SyntaxTree) : IsTypeTree (.node r children)

/-- A slot of the given name in a field declaration. -/
def slotIn (children : List SyntaxTree) (isEmbedded : Bool) (type : SyntaxTree)
    (tag : Option String) (name : String) : FieldSlot where
  name := name
  isEmbedded := isEmbedded
  type := typeOfTree type
  text := sourceText type
  tag := tag
  line := firstLine (.node .fieldDeclaration children)

/-- The slots of a field declaration with the given children: each of its names is one, and an
embedded field is one under the text of its type. -/
inductive DeclarationSlots (children : List SyntaxTree) : List FieldSlot → Prop
  | named {front tags : List SyntaxTree} {names : List String} {type : SyntaxTree}
      {tag : Option String} (hrow : uncommented children = front ++ type :: tags)
      (hfront : NameRow front names) (htype : IsTypeTree type) (htags : TagRow tags tag) :
      DeclarationSlots children (names.map (slotIn children false type tag))
  | embedded {tags : List SyntaxTree} {type : SyntaxTree} {tag : Option String}
      (hrow : uncommented children = type :: tags) (htype : IsTypeTree type)
      (htags : TagRow tags tag) :
      DeclarationSlots children [slotIn children true type tag (sourceText type)]
  | pointer {tags : List SyntaxTree} {type : SyntaxTree} {tag : Option String} {star : Lexeme}
      (hrow : uncommented children = .leaf (.token (.op .star) star) :: type :: tags)
      (htype : IsTypeTree type) (htags : TagRow tags tag) :
      DeclarationSlots children [slotIn children true type tag (sourceText type)]

/-- The slots of all field declarations among some trees. -/
inductive SlotsAmong : List SyntaxTree → List FieldSlot → Prop
  | nil : SlotsAmong [] []
  | declaration {children ts : List SyntaxTree} {slots rest : List FieldSlot}
      (head : DeclarationSlots children slots) (tail : SlotsAmong ts rest) :
      SlotsAmong (.node .fieldDeclaration children :: ts) (slots ++ rest)
  | other {t : SyntaxTree} {ts : List SyntaxTree} {rest : List FieldSlot}
      (head : ∀ children, t ≠ .node .fieldDeclaration children) (tail : SlotsAmong ts rest) :
      SlotsAmong (t :: ts) rest

/-- The slots of a struct type with the given children: a keyword and a list of declarations. -/
inductive StructSlots (children : List SyntaxTree) : List FieldSlot → Prop
  | list {keyword : Lexeme} {items : List SyntaxTree} {slots : List FieldSlot}
      (hrow : uncommented children =
        [.leaf (.token (.word .kwStruct) keyword), .node .fieldDeclarationList items])
      (hitems : SlotsAmong items slots) : StructSlots children slots

end Listing

/-- A tree stands somewhere in another one. -/
inductive OccursIn (t : SyntaxTree) : SyntaxTree → Prop
  | self : OccursIn t t
  | within {u : SyntaxTree} {r : Rule} {children : List SyntaxTree} (hu : u ∈ children)
      (h : OccursIn t u) : OccursIn t (.node r children)

section Uncommented

variable {ts : List SyntaxTree}

theorem uncommented_cons_comment (l : Lexeme) (ts : List SyntaxTree) :
    uncommented (.leaf (.comment l) :: ts) = uncommented ts := rfl

theorem uncommented_cons {t : SyntaxTree} (h : isComment t = false) (ts : List SyntaxTree) :
    uncommented (t :: ts) = t :: uncommented ts := by
  rw [uncommented, List.filter_cons_of_pos (by rw [h]; rfl), uncommented]

theorem isComment_of_mem_uncommented {t : SyntaxTree} (h : t ∈ uncommented ts) :
    isComment t = false := by
  simpa using (List.mem_filter.mp h).2

theorem eq_comment_of_isComment {t : SyntaxTree} (h : isComment t = true) :
    ∃ l, t = .leaf (.comment l) := by
  match t with
  | .leaf (.comment l) => exact ⟨l, rfl⟩
  | .leaf (.token ..) => cases h
  | .node .. => cases h

/-- What passes over a comment does not depend on comments. -/
theorem eq_uncommented {α : Type} {f : List SyntaxTree → α}
    (hcomment : ∀ l ts, f (.leaf (.comment l) :: ts) = f ts)
    (hcons : ∀ t ts us, f ts = f us → f (t :: ts) = f (t :: us)) (ts : List SyntaxTree) :
    f ts = f (uncommented ts) := by
  induction ts with
  | nil => rfl
  | cons t ts ih =>
      by_cases ht : isComment t = true
      · obtain ⟨l, rfl⟩ := eq_comment_of_isComment ht
        rw [hcomment, ih, uncommented_cons_comment]
      · rw [uncommented_cons (Bool.eq_false_iff.mpr ht)]
        exact hcons t ts (uncommented ts) ih

theorem skeletonAll_uncommented (ts : List SyntaxTree) :
    skeletonAll ts = skeletonAll (uncommented ts) :=
  eq_uncommented (fun l ts => rfl) (fun t ts us h => by rw [skeletonAll, skeletonAll, h]) ts

theorem structFields_uncommented (ts : List SyntaxTree) :
    structFields ts = structFields (uncommented ts) := by
  refine eq_uncommented (fun l ts => rfl) (fun t ts us h => ?_) ts
  by_cases ht : ∃ items, t = .node .fieldDeclarationList items
  · obtain ⟨items, rfl⟩ := ht
    rw [structFields_list, structFields_list]
  · rw [structFields_cons fun items heq => ht ⟨items, heq⟩,
      structFields_cons fun items heq => ht ⟨items, heq⟩, h]

theorem typeChild?_uncommented (ts : List SyntaxTree) :
    typeChild? (partsOfTrees ts) = typeChild? (partsOfTrees (uncommented ts)) := by
  refine eq_uncommented (f := fun ts => typeChild? (partsOfTrees ts)) (fun l ts => ?_)
    (fun t ts us h => ?_) ts
  · simp only [partsOfTrees, typeChild?]
    cases typeChild? (partsOfTrees ts) <;> rfl
  · simp only [partsOfTrees, typeChild?, h]

/-- The names are those before a type, so they come with the type. -/
theorem fieldNames_uncommented (ts : List SyntaxTree) :
    fieldNames (partsOfTrees ts) = fieldNames (partsOfTrees (uncommented ts)) := by
  have hboth := eq_uncommented
    (f := fun ts => (fieldNames (partsOfTrees ts), typeChild? (partsOfTrees ts)))
    (fun l ts => ?_) (fun t ts us h => ?_) ts
  · exact congrArg Prod.fst hboth
  · simp only [partsOfTrees, fieldNames, typeChild?]
    cases typeChild? (partsOfTrees ts) <;> rfl
  · obtain ⟨hnames, htype⟩ := Prod.mk.inj h
    simp only [partsOfTrees, fieldNames, typeChild?, hnames, htype]

theorem tag_uncommented (ts : List SyntaxTree) :
    ((partsOfTrees ts).find? fun p => isStringLiteral p.tree) =
      (partsOfTrees (uncommented ts)).find? fun p => isStringLiteral p.tree := by
  refine eq_uncommented (f := fun ts => (partsOfTrees ts).find? fun p => isStringLiteral p.tree)
    (fun l ts => rfl) (fun t ts us h => ?_) ts
  simp only [partsOfTrees, List.find?_cons, h]

end Uncommented

section Rows

variable {front tags : List SyntaxTree} {names : List String} {type : SyntaxTree}
  {tag : Option String}

theorem TagRow.typeChild?_eq (h : TagRow tags tag) : typeChild? (partsOfTrees tags) = none := by
  cases h <;> rfl

theorem TagRow.fieldNames_eq (h : TagRow tags tag) : fieldNames (partsOfTrees tags) = [] := by
  cases h <;> rfl

theorem TagRow.tag_eq (h : TagRow tags tag) :
    ((partsOfTrees tags).find? fun p => isStringLiteral p.tree).map (fun p => sourceText p.tree) =
      tag := by
  cases h <;> rfl

theorem IsTypeTree.typeChild?_cons (h : IsTypeTree type) (htags : TagRow tags tag) :
    typeChild? (partsOfTrees (type :: tags)) = some ⟨type, typeOfTree type⟩ := by
  rw [partsOfTrees, typeChild?, htags.typeChild?_eq]
  cases h <;> rfl

theorem IsTypeTree.fieldNames_cons (h : IsTypeTree type) (htags : TagRow tags tag) :
    fieldNames (partsOfTrees (type :: tags)) = [] := by
  rw [partsOfTrees, fieldNames, htags.typeChild?_eq, htags.fieldNames_eq]
  cases h <;> rfl

theorem IsTypeTree.find?_cons (h : IsTypeTree type) :
    ((partsOfTrees (type :: tags)).find? fun p => isStringLiteral p.tree) =
      (partsOfTrees tags).find? fun p => isStringLiteral p.tree := by
  rw [partsOfTrees, List.find?_cons]
  cases h <;> rfl

theorem typeChild?_append {rest : List SyntaxTree} {p : Part}
    (h : typeChild? (partsOfTrees rest) = some p) (front : List SyntaxTree) :
    typeChild? (partsOfTrees (front ++ rest)) = some p := by
  induction front with
  | nil => exact h
  | cons t ts ih => rw [List.cons_append, partsOfTrees, typeChild?, ih]

theorem NameRow.fieldNames_append (h : NameRow front names) {rest : List SyntaxTree} {p : Part}
    (htype : typeChild? (partsOfTrees rest) = some p)
    (hnames : fieldNames (partsOfTrees rest) = []) :
    fieldNames (partsOfTrees (front ++ rest)) = names := by
  induction h with
  | last l =>
      rw [List.singleton_append, partsOfTrees, fieldNames, htype, hnames]
      rfl
  | @more l c ts names h ih =>
      have hbehind := typeChild?_append htype (.leaf (.token (.op .comma) c) :: ts)
      rw [List.cons_append, partsOfTrees, fieldNames, hbehind, List.cons_append, partsOfTrees,
        fieldNames, ih]
      rfl

theorem NameRow.ne_nil (h : NameRow front names) : names ≠ [] := by
  cases h <;> exact List.cons_ne_nil _ _

theorem NameRow.find?_append (h : NameRow front names) (rest : List SyntaxTree) :
    ((partsOfTrees (front ++ rest)).find? fun p => isStringLiteral p.tree) =
      (partsOfTrees rest).find? fun p => isStringLiteral p.tree := by
  induction h with
  | last l => rfl
  | more l c h ih => exact ih

end Rows

/-- The slot of an entry. -/
def Entry.slot (e : Entry) : FieldSlot where
  name := e.leaf
  isEmbedded := match e.decl.binding with
    | .named _ _ => false
    | .embedded _ => true
  type := e.decl.type
  text := e.decl.text
  tag := e.decl.tag
  line := e.decl.line

/-- The slots of a struct with the given declarations. -/
def fieldSlots (ds : List FieldDecl) : List FieldSlot := (entries ds).map Entry.slot

section Walk

variable {children : List SyntaxTree} {slots : List FieldSlot}

theorem typeOfTree_ne_name (r : Rule) (children : List SyntaxTree) (n : String) :
    typeOfTree (.node r children) ≠ .name n := by
  intro heq
  by_cases hr : r = .structType
  · rw [hr, typeOfTree_struct] at heq
    cases heq
  · rw [typeOfTree_node hr] at heq
    unfold typeOfParts at heq
    split at heq <;> cases heq

theorem fieldSlots_named {type : SyntaxTree} {tag : Option String}
    (htype : typeChild? (partsOfTrees children) = some ⟨type, typeOfTree type⟩)
    (htag : ((partsOfTrees children).find? fun p => isStringLiteral p.tree).map
      (fun p => sourceText p.tree) = tag)
    (hnames : fieldNames (partsOfTrees children) ≠ []) :
    fieldSlots (FieldDecl.ofParts? (partsOfTrees children)
      (firstLine (.node .fieldDeclaration children))).toList =
        (fieldNames (partsOfTrees children)).map (slotIn children false type tag) := by
  rw [FieldDecl.ofParts?, htype, htag]
  cases hparts : fieldNames (partsOfTrees children) with
  | nil => exact absurd hparts hnames
  | cons name others =>
      simp only [Option.toList_some, fieldSlots, entries, List.flatMap_singleton,
        FieldDecl.entries, List.map_map]
      rfl

theorem fieldSlots_embedded {type : SyntaxTree} {tag : Option String}
    (htype : typeChild? (partsOfTrees children) = some ⟨type, typeOfTree type⟩)
    (htag : ((partsOfTrees children).find? fun p => isStringLiteral p.tree).map
      (fun p => sourceText p.tree) = tag)
    (hnames : fieldNames (partsOfTrees children) = []) (htree : IsTypeTree type) :
    fieldSlots (FieldDecl.ofParts? (partsOfTrees children)
      (firstLine (.node .fieldDeclaration children))).toList =
        [slotIn children true type tag (sourceText type)] := by
  rw [FieldDecl.ofParts?, htype, htag, hnames]
  cases htree with
  | identifier l => rfl
  | node r cs =>
      rw [Option.toList_some, fieldSlots, entries, List.flatMap_singleton,
        FieldDecl.entries_unnamed (typeOfTree_ne_name r cs)]
      rfl

/-- The walk finds the slots of a field declaration. -/
theorem DeclarationSlots.fieldSlots_eq (h : DeclarationSlots children slots) :
    fieldSlots (FieldDecl.ofParts? (partsOfTrees children)
      (firstLine (.node .fieldDeclaration children))).toList = slots := by
  cases h with
  | @named front tags names type tag hrow hfront htype htags =>
      have hchild : typeChild? (partsOfTrees children) = some ⟨type, typeOfTree type⟩ := by
        rw [typeChild?_uncommented, hrow]
        exact typeChild?_append (htype.typeChild?_cons htags) front
      have hnames : fieldNames (partsOfTrees children) = names := by
        rw [fieldNames_uncommented, hrow]
        exact hfront.fieldNames_append (htype.typeChild?_cons htags) (htype.fieldNames_cons htags)
      rw [← hnames]
      refine fieldSlots_named hchild ?_ ?_
      · rw [tag_uncommented, hrow, hfront.find?_append, htype.find?_cons, htags.tag_eq]
      · rw [hnames]
        exact hfront.ne_nil
  | @embedded tags type tag hrow htype htags =>
      refine fieldSlots_embedded ?_ ?_ ?_ htype
      · rw [typeChild?_uncommented, hrow, htype.typeChild?_cons htags]
      · rw [tag_uncommented, hrow, htype.find?_cons, htags.tag_eq]
      · rw [fieldNames_uncommented, hrow, htype.fieldNames_cons htags]
  | @pointer tags type tag star hrow htype htags =>
      refine fieldSlots_embedded ?_ ?_ ?_ htype
      · rw [typeChild?_uncommented, hrow]
        exact typeChild?_append (htype.typeChild?_cons htags) [.leaf (.token (.op .star) star)]
      · rw [tag_uncommented, hrow, partsOfTrees, List.find?_cons, htype.find?_cons]
        exact htags.tag_eq
      · rw [fieldNames_uncommented, hrow, partsOfTrees, fieldNames, htype.fieldNames_cons htags]
        rfl

theorem fieldSlots_append (ds es : List FieldDecl) :
    fieldSlots (ds ++ es) = fieldSlots ds ++ fieldSlots es := by
  rw [fieldSlots, fieldSlots, fieldSlots, entries, entries, entries, List.flatMap_append,
    List.map_append]

theorem SlotsAmong.fieldSlots_eq {items : List SyntaxTree} (h : SlotsAmong items slots) :
    fieldSlots (fieldsOfTrees items) = slots := by
  induction h with
  | nil => rfl
  | declaration head tail ih => rw [fieldsOfTrees, fieldSlots_append, head.fieldSlots_eq, ih]
  | other head tail ih => rw [fieldsOfTrees_cons head, ih]

/-- The walk finds the slots of a struct type. -/
theorem StructSlots.fieldSlots_eq (h : StructSlots children slots) :
    fieldSlots (structFields children) = slots := by
  cases h with
  | list hrow hitems =>
      rw [structFields_uncommented, hrow, structFields_cons (by simp), structFields_list]
      exact hitems.fieldSlots_eq

end Walk

section Existence

variable {ts : List SyntaxTree} {ss : List (Grammar.Symbol Token Rule)}

theorem eq_nil_of_derives (hts : ∀ u ∈ ts, isComment u = false)
    (h : Derives grammar Word.token [] (skeletonAll ts)) : ts = [] := by
  match ts with
  | [] => rfl
  | .leaf (.token ..) :: _ => cases h.eq_nil
  | .leaf (.comment l) :: _ => cases hts _ List.mem_cons_self
  | .node .. :: _ => cases h.eq_nil

theorem exists_tokenLeaf {t : Token} (hts : ∀ u ∈ ts, isComment u = false)
    (h : Derives grammar Word.token (.token t :: ss) (skeletonAll ts)) :
    ∃ l rest, ts = .leaf (.token t l) :: rest ∧
      Derives grammar Word.token ss (skeletonAll rest) := by
  match ts with
  | [] => cases h
  | .leaf (.token u l) :: rest =>
      obtain ⟨w, vs, heq, hw, htail⟩ := h.exists_leaf
      cases heq
      cases hw
      exact ⟨l, rest, rfl, htail⟩
  | .leaf (.comment l) :: rest => cases hts _ List.mem_cons_self
  | .node r children :: rest =>
      obtain ⟨w, vs, heq, -, -⟩ := h.exists_leaf
      cases heq

theorem exists_ruleNode {r : Rule} (hr : grammar.hidden r = false)
    (hts : ∀ u ∈ ts, isComment u = false)
    (h : Derives grammar Word.token (.rule r :: ss) (skeletonAll ts)) :
    ∃ children rest, ts = .node r children :: rest ∧
      Derives grammar Word.token ss (skeletonAll rest) := by
  match ts with
  | [] =>
      obtain ⟨cs, vs, heq, -⟩ := h.exists_node hr
      cases heq
  | .leaf (.token u l) :: rest =>
      obtain ⟨cs, vs, heq, -⟩ := h.exists_node hr
      cases heq
  | .leaf (.comment l) :: rest => cases hts _ List.mem_cons_self
  | .node q children :: rest =>
      obtain ⟨cs, vs, heq, htail⟩ := h.exists_node hr
      cases heq
      exact ⟨children, rest, rfl, htail⟩

/-- The symbols that the type of a field declaration comes from. -/
def typeSymbols : List (Grammar.Symbol Token Rule) :=
  [.rule .simpleType, .rule .parenthesizedType, .token .identifier, .rule .qualifiedType,
    .rule .genericType]

def tagRows : List (List (Grammar.Symbol Token Rule)) :=
  [[], [.token .stringLiteral], [.token .rawStringLiteral]]

/-- What may stand before the type: names, a star or nothing. -/
def frontRows : List (List (Grammar.Symbol Token Rule)) :=
  [[], [.token (.op .star)], [.token .identifier], [.token .identifier, .rule .moreFieldNames]]

theorem rows_fieldDeclaration : ∀ row ∈ grammar.rows .fieldDeclaration,
    ∃ front ∈ frontRows, ∃ s ∈ typeSymbols, ∃ tag ∈ tagRows, row = front ++ s :: tag := by
  decide

theorem rows_moreFieldNames : ∀ row ∈ grammar.rows .moreFieldNames,
    row = [.token (.op .comma), .token .identifier] ∨
      row = [.rule .moreFieldNames, .token (.op .comma), .token .identifier] := by
  decide

theorem rows_simpleType : ∀ row ∈ grammar.rows .simpleType,
    (match row with
      | [.token t] => t = .identifier
      | [.rule r] => !grammar.hidden r
      | _ => false) = true := by
  decide

theorem exists_typeTree {s : Grammar.Symbol Token Rule} (hs : s ∈ typeSymbols)
    (hts : ∀ u ∈ ts, isComment u = false)
    (h : Derives grammar Word.token (s :: ss) (skeletonAll ts)) :
    ∃ t rest, ts = t :: rest ∧ IsTypeTree t ∧ Derives grammar Word.token ss (skeletonAll rest) := by
  have hnode : ∀ {r}, grammar.hidden r = false →
      Derives grammar Word.token (.rule r :: ss) (skeletonAll ts) →
        ∃ t rest, ts = t :: rest ∧ IsTypeTree t ∧
          Derives grammar Word.token ss (skeletonAll rest) := by
    intro r hr h
    obtain ⟨children, rest, rfl, htail⟩ := exists_ruleNode hr hts h
    exact ⟨_, rest, rfl, .node r children, htail⟩
  have hname : Derives grammar Word.token (.token .identifier :: ss) (skeletonAll ts) →
      ∃ t rest, ts = t :: rest ∧ IsTypeTree t ∧
        Derives grammar Word.token ss (skeletonAll rest) := by
    intro h
    obtain ⟨l, rest, rfl, htail⟩ := exists_tokenLeaf hts h
    exact ⟨_, rest, rfl, .identifier l, htail⟩
  simp only [typeSymbols, List.mem_cons, List.not_mem_nil, or_false] at hs
  rcases hs with rfl | rfl | rfl | rfl | rfl
  · obtain ⟨row, hrow, h⟩ := h.exists_row rfl
    have hshape := rows_simpleType row hrow
    split at hshape
    · rw [of_decide_eq_true hshape] at h
      exact hname h
    · exact hnode (by simpa using hshape) h
    · cases hshape
  · exact hnode rfl h
  · exact hname h
  · exact hnode rfl h
  · exact hnode rfl h

theorem exists_nameRow {n : Nat} (hts : ∀ u ∈ ts, isComment u = false)
    (h : Derives grammar Word.token
      (.token .identifier ::
        ((List.replicate n [.token (.op .comma), .token .identifier]).flatten ++ ss))
      (skeletonAll ts)) :
    ∃ front names rest, ts = front ++ rest ∧ NameRow front names ∧
      Derives grammar Word.token ss (skeletonAll rest) := by
  induction n generalizing ts with
  | zero =>
      obtain ⟨l, rest, rfl, htail⟩ := exists_tokenLeaf hts h
      exact ⟨[.leaf (.token .identifier l)], _, rest, rfl, .last l, htail⟩
  | succ n ih =>
      obtain ⟨l, behind, rfl, hcomma⟩ := exists_tokenLeaf hts h
      have hbehind := (List.forall_mem_cons.mp hts).2
      obtain ⟨c, further, rfl, hfurther⟩ := exists_tokenLeaf hbehind hcomma
      obtain ⟨front, names, rest, rfl, hnames, htail⟩ :=
        ih (List.forall_mem_cons.mp hbehind).2 hfurther
      exact ⟨_, _, rest, rfl, .more l c hnames, htail⟩

theorem exists_tagRow {row : List (Grammar.Symbol Token Rule)} (hrow : row ∈ tagRows)
    (hts : ∀ u ∈ ts, isComment u = false) (h : Derives grammar Word.token row (skeletonAll ts)) :
    ∃ tag, TagRow ts tag := by
  simp only [tagRows, List.mem_cons, List.not_mem_nil, or_false] at hrow
  rcases hrow with rfl | rfl | rfl
  · exact ⟨none, eq_nil_of_derives hts h ▸ TagRow.absent⟩
  · obtain ⟨l, rest, rfl, htail⟩ := exists_tokenLeaf hts h
    rw [eq_nil_of_derives (List.forall_mem_cons.mp hts).2 htail]
    exact ⟨_, .interpreted l⟩
  · obtain ⟨l, rest, rfl, htail⟩ := exists_tokenLeaf hts h
    rw [eq_nil_of_derives (List.forall_mem_cons.mp hts).2 htail]
    exact ⟨_, .raw l⟩

/-- The type of a field declaration and what stands behind it. -/
theorem exists_typeAndTag {s : Grammar.Symbol Token Rule} (hs : s ∈ typeSymbols)
    {row : List (Grammar.Symbol Token Rule)} (hrow : row ∈ tagRows)
    (hts : ∀ u ∈ ts, isComment u = false)
    (h : Derives grammar Word.token (s :: row) (skeletonAll ts)) :
    ∃ type tags tag, ts = type :: tags ∧ IsTypeTree type ∧ TagRow tags tag := by
  obtain ⟨type, tags, rfl, htype, htail⟩ := exists_typeTree hs hts h
  obtain ⟨tag, htag⟩ := exists_tagRow hrow (List.forall_mem_cons.mp hts).2 htail
  exact ⟨type, tags, tag, rfl, htype, htag⟩

/-- Names with commas between them, and a type behind them. -/
theorem exists_namedSlots {children : List SyntaxTree} {n : Nat} {s : Grammar.Symbol Token Rule}
    (hs : s ∈ typeSymbols) {row : List (Grammar.Symbol Token Rule)} (hrow : row ∈ tagRows)
    (h : Derives grammar Word.token
      (.token .identifier ::
        ((List.replicate n [.token (.op .comma), .token .identifier]).flatten ++ s :: row))
      (skeletonAll (uncommented children))) :
    ∃ slots, DeclarationSlots children slots := by
  have hbare : ∀ u ∈ uncommented children, isComment u = false := fun u hu =>
    isComment_of_mem_uncommented hu
  obtain ⟨front, names, rest, hchildren, hnames, htail⟩ := exists_nameRow hbare h
  rw [hchildren] at hbare
  obtain ⟨type, tags, tag, rfl, htype, htag⟩ :=
    exists_typeAndTag hs hrow (List.forall_mem_append.mp hbare).2 htail
  exact ⟨_, .named hchildren hnames htype htag⟩

/-- A field declaration of the grammar has slots. -/
theorem exists_declarationSlots {children : List SyntaxTree}
    (h : IsTreeOf grammar Word.token (.node .fieldDeclaration (skeletonAll children))) :
    ∃ slots, DeclarationSlots children slots := by
  obtain ⟨row, hrow, h⟩ := h
  obtain ⟨front, hfront, s, hs, tag, htag, rfl⟩ := rows_fieldDeclaration row hrow
  rw [skeletonAll_uncommented] at h
  have hbare : ∀ u ∈ uncommented children, isComment u = false := fun u hu =>
    isComment_of_mem_uncommented hu
  simp only [frontRows, List.mem_cons, List.not_mem_nil, or_false] at hfront
  rcases hfront with rfl | rfl | rfl | rfl
  · obtain ⟨type, tags, tag', hchildren, htype, htag'⟩ := exists_typeAndTag hs htag hbare h
    exact ⟨_, .embedded hchildren htype htag'⟩
  · obtain ⟨star, rest, hrest, htail⟩ := exists_tokenLeaf hbare h
    rw [hrest] at hbare
    obtain ⟨type, tags, tag', rfl, htype, htag'⟩ :=
      exists_typeAndTag hs htag (List.forall_mem_cons.mp hbare).2 htail
    exact ⟨_, .pointer hrest htype htag'⟩
  · exact exists_namedSlots (n := 0) hs htag h
  · obtain ⟨l, rest, hrest, htail⟩ := exists_tokenLeaf hbare h
    obtain ⟨n, hn⟩ := htail.exists_replicate rfl rows_moreFieldNames
    refine exists_namedSlots (n := n) hs htag ?_
    rw [hrest]
    exact .token rfl hn

theorem rows_structType :
    grammar.rows .structType = [[.token (.word .kwStruct), .rule .fieldDeclarationList]] := by
  decide

theorem exists_slotsAmong {items : List SyntaxTree}
    (h : ∀ v ∈ skeletonAll items, IsTreeOf grammar Word.token v) :
    ∃ slots, SlotsAmong items slots := by
  induction items with
  | nil => exact ⟨[], .nil⟩
  | cons t ts ih =>
      rw [skeletonAll, List.forall_mem_append] at h
      obtain ⟨rest, hrest⟩ := ih h.2
      by_cases ht : ∃ children, t = .node .fieldDeclaration children
      · obtain ⟨children, rfl⟩ := ht
        rw [skeleton] at h
        obtain ⟨slots, hslots⟩ :=
          exists_declarationSlots (h.1 _ (List.mem_singleton_self _))
        exact ⟨slots ++ rest, .declaration hslots hrest⟩
      · exact ⟨rest, .other (fun children heq => ht ⟨children, heq⟩) hrest⟩

/-- A struct type of the grammar has slots. -/
theorem exists_structSlots {children : List SyntaxTree}
    (h : IsTreeOf grammar Word.token (.node .structType (skeletonAll children))) :
    ∃ slots, StructSlots children slots := by
  have hitems := h.children
  obtain ⟨row, hrow, h⟩ := h
  rw [rows_structType, List.mem_singleton] at hrow
  subst hrow
  rw [skeletonAll_uncommented] at h hitems
  have hbare : ∀ u ∈ uncommented children, isComment u = false := fun u hu =>
    isComment_of_mem_uncommented hu
  obtain ⟨keyword, rest, hkeyword, hlist⟩ := exists_tokenLeaf hbare h
  rw [hkeyword] at hbare hitems
  obtain ⟨items, rest, rfl, hend⟩ :=
    exists_ruleNode rfl (List.forall_mem_cons.mp hbare).2 hlist
  obtain rfl := eq_nil_of_derives (fun u hu => hbare u (by simp [hu])) hend
  obtain ⟨slots, hslots⟩ :=
    exists_slotsAmong (hitems (.node .fieldDeclarationList (skeletonAll items))
      (by simp [skeleton])).children
  exact ⟨slots, .list hkeyword hslots⟩

/-- The skeletons of what stands in a tree of the grammar are such trees. -/
theorem OccursIn.isTreeOf {t u : SyntaxTree} (h : OccursIn t u)
    (hu : ∀ v ∈ skeleton u, IsTreeOf grammar Word.token v) :
    ∀ v ∈ skeleton t, IsTreeOf grammar Word.token v := by
  induction h with
  | self => exact hu
  | @within u r children hmem h ih =>
      refine ih fun v hv => ?_
      rw [skeleton_node] at hu
      exact (hu _ (List.mem_singleton_self _)).children v (List.mem_flatMap.mpr ⟨u, hmem, hv⟩)

/-- Every struct type in a tree without errors has slots. -/
theorem IsErrorFree.exists_structSlots {t : SyntaxTree} (ht : IsErrorFree t)
    {children : List SyntaxTree} (h : OccursIn (.node .structType children) t) :
    ∃ slots, StructSlots children slots := by
  refine StructModel.Go.exists_structSlots ?_
  refine h.isTreeOf (Derives.isTreeOf ht) _ ?_
  rw [skeleton]
  exact List.mem_singleton_self _

end Existence

end StructModel.Go
