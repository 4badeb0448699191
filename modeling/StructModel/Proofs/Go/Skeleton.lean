import StructModel.Go.File
import StructModel.Proofs.Grammar.Derivation

/-!
# Skeletons of syntax trees

The skeleton of a tree has no comments, and its tokens have neither blanks nor places. It is what
the grammar is about: a tree is free of errors when the grammar derives its skeleton. No walk over a
tree goes by its skeleton.
-/

namespace StructModel.Go

open StructModel.Grammar

/-- A token in its place in the text. -/
structure Word where
  token : Token
  lexeme : Lexeme
  deriving DecidableEq, Repr

/-- A syntax tree without comments. -/
abbrev TokenTree := Tree Rule Word

mutual

/-- The tokens of a tree in their nodes; of a comment nothing is left. -/
def skeleton : SyntaxTree → List TokenTree
  | .leaf (.comment _) => []
  | .leaf (.token t l) => [.leaf ⟨t, "", l.text, 0⟩]
  | .node r children => [.node r (skeletonAll children)]

def skeletonAll : List SyntaxTree → List TokenTree
  | [] => []
  | t :: ts => skeleton t ++ skeletonAll ts

end

/-- The nodes directly below the root. -/
def skeletonItems : SyntaxTree → List TokenTree
  | .leaf l => skeleton (.leaf l)
  | .node _ children => skeletonAll children

def IsErrorFree (t : SyntaxTree) : Prop :=
  Derives grammar Word.token [.rule .sourceFile] (skeleton t)

@[simp] theorem skeletonAll_eq (ts : List SyntaxTree) : skeletonAll ts = ts.flatMap skeleton := by
  induction ts with
  | nil => rfl
  | cons t ts ih => rw [skeletonAll, ih, List.flatMap_cons]

theorem skeleton_node (r : Rule) (children : List SyntaxTree) :
    skeleton (.node r children) = [.node r (children.flatMap skeleton)] := by
  rw [skeleton, skeletonAll_eq]

/-- The skeleton of a tree without errors is a source file. -/
theorem IsErrorFree.exists_skeleton {t : SyntaxTree} (h : IsErrorFree t) :
    ∃ items, skeleton t = [.node .sourceFile items] := by
  obtain ⟨items, rest, heq, htail⟩ := Derives.exists_node rfl h
  exact ⟨items, by rw [heq, htail.eq_nil]⟩

theorem skeletonItems_eq {t : SyntaxTree} {r : Rule} {items : List TokenTree}
    (h : skeleton t = [.node r items]) : skeletonItems t = items := by
  match t with
  | .leaf (.token ..) => cases h
  | .leaf (.comment _) => cases h
  | .node q children =>
      rw [skeleton] at h
      cases h
      rfl

/-- Below the root of a tree without errors there are trees of the grammar. -/
theorem IsErrorFree.items {t : SyntaxTree} (h : IsErrorFree t) :
    ∀ i ∈ skeletonItems t, IsTreeOf grammar Word.token i := by
  have htree := Derives.isTreeOf h
  cases t with
  | leaf l => exact htree
  | node r children => exact (htree (.node r (skeletonAll children)) (by simp [skeleton])).children

section Samples

/-- A token as it stands in a text. -/
def tokenLeaf (t : Token) (text : String) : SyntaxTree := .leaf (.token t ⟨" ", text, 1⟩)

def newlineLeaf : SyntaxTree := tokenLeaf .newline "\n"

/-- A package with the given declarations, each on a line of its own. -/
def packageTree (declarations : List SyntaxTree) : SyntaxTree :=
  .node .sourceFile
    (.node .packageClause [tokenLeaf (.word .kwPackage) "package", tokenLeaf .identifier "p"] ::
      newlineLeaf :: declarations.flatMap fun d => [d, newlineLeaf])

/-- The children of a struct type with the given trees between its braces. -/
def structChildren (fields : List SyntaxTree) : List SyntaxTree :=
  [tokenLeaf (.word .kwStruct) "struct",
    .node .fieldDeclarationList
      (tokenLeaf (.op .lbrace) "\x7b" :: fields ++ [tokenLeaf (.op .rbrace) "\x7d"])]

def structTree (name : String) (fields : List SyntaxTree) : SyntaxTree :=
  .node .typeDeclaration [tokenLeaf (.word .kwType) "type",
    .node .typeSpec [tokenLeaf .identifier name, .node .structType (structChildren fields)]]

def fieldTree (name type : String) : SyntaxTree :=
  .node .fieldDeclaration [tokenLeaf .identifier name, tokenLeaf .identifier type]

/-- Two variables in a group. -/
def variableTree (name other : String) : SyntaxTree :=
  .node .varDeclaration [tokenLeaf (.word .kwVar) "var",
    .node .varSpecList [tokenLeaf (.op .lparen) "(",
      .node .varSpec [tokenLeaf .identifier name, tokenLeaf (.op .comma) ",",
        tokenLeaf .identifier other, tokenLeaf .identifier "int"],
      newlineLeaf, tokenLeaf (.op .rparen) ")"]]

theorem derives_tokenLeaf (t : Token) (text : String) :
    Derives grammar Word.token [.token t] (skeleton (tokenLeaf t text)) :=
  .token rfl .nil

/-- The items of a source file are repeated from the left. -/
theorem derives_sourceItems {declarations : List SyntaxTree}
    (h : ∀ d ∈ declarations, Derives grammar Word.token [.rule .declaration] (skeleton d)) :
    ∀ {items}, Derives grammar Word.token [.rule .sourceItems] items →
      Derives grammar Word.token [.rule .sourceItems]
        (items ++ skeletonAll (declarations.flatMap fun d => [d, newlineLeaf])) := by
  induction declarations with
  | nil =>
      intro items hitems
      rw [List.flatMap_nil, skeletonAll, List.append_nil]
      exact hitems
  | cons d ds ih =>
      intro items hitems
      obtain ⟨hd, hds⟩ := List.forall_mem_cons.mp h
      have hstatement : Derives grammar Word.token [.rule .statement] (skeleton d) :=
        .hidden rfl (show [.rule .declaration] ∈ _ by decide) hd
      have hline : Derives grammar Word.token [.rule .sourceItems]
          (items ++ (skeleton d ++ skeleton newlineLeaf)) :=
        .hidden rfl (show [.rule .sourceItems, .rule .statement, .token .newline] ∈ _ by decide)
          (hitems.append (hstatement.append (.token rfl .nil)))
      have hrest := ih hds hline
      simpa using hrest

theorem isErrorFree_packageTree {declarations : List SyntaxTree}
    (h : ∀ d ∈ declarations, Derives grammar Word.token [.rule .declaration] (skeleton d)) :
    IsErrorFree (packageTree declarations) := by
  have hclause : Derives grammar Word.token [.rule .sourceItems]
      [.node .packageClause [.leaf ⟨.word .kwPackage, "", "package", 0⟩,
        .leaf ⟨.identifier, "", "p", 0⟩], .leaf ⟨.newline, "", "\n", 0⟩] :=
    .hidden rfl (show [.rule .packageClause, .token .newline] ∈ _ by decide)
      (.node rfl (show [.token (.word .kwPackage), .token .identifier] ∈ _ by decide)
        (.token rfl (.token rfl .nil)) (.token rfl .nil))
  exact .node rfl (show [.rule .sourceItems] ∈ _ by decide) (derives_sourceItems h hclause) .nil

theorem derives_structType (row : List (Grammar.Symbol Token Rule)) {fields : List SyntaxTree}
    (hrow : .token (.op .lbrace) :: row ++ [.token (.op .rbrace)] ∈
      grammar.rows .fieldDeclarationList)
    (h : Derives grammar Word.token row (skeletonAll fields)) :
    Derives grammar Word.token [.rule .simpleType]
      (skeleton (.node .structType (structChildren fields))) := by
  have hbraces : Derives grammar Word.token (.token (.op .lbrace) :: row ++ [.token (.op .rbrace)])
      (skeletonAll
        (tokenLeaf (.op .lbrace) "\x7b" :: fields ++ [tokenLeaf (.op .rbrace) "\x7d"])) := by
    have hclosed := h.append (derives_tokenLeaf (.op .rbrace) "\x7d")
    simpa using (derives_tokenLeaf (.op .lbrace) "\x7b").append hclosed
  refine .hidden rfl (show [.rule .structType] ∈ _ by decide) ?_
  refine .node rfl (show [.token (.word .kwStruct), .rule .fieldDeclarationList] ∈ _ by decide)
    (.token rfl ?_) .nil
  exact .node rfl hrow hbraces .nil

theorem derives_structTree (name : String) (row : List (Grammar.Symbol Token Rule))
    {fields : List SyntaxTree}
    (hrow : .token (.op .lbrace) :: row ++ [.token (.op .rbrace)] ∈
      grammar.rows .fieldDeclarationList)
    (h : Derives grammar Word.token row (skeletonAll fields)) :
    Derives grammar Word.token [.rule .declaration] (skeleton (structTree name fields)) := by
  refine .hidden rfl (show [.rule .typeDeclaration] ∈ _ by decide) ?_
  refine .node rfl (show [.token (.word .kwType), .rule .typeSpec] ∈ _ by decide)
    (.token rfl ?_) .nil
  exact .node rfl (show [.token .identifier, .rule .simpleType] ∈ _ by decide)
    (.token rfl (derives_structType row hrow h)) .nil

theorem derives_fieldTree (name type : String) :
    Derives grammar Word.token [.rule .fieldDeclaration] (skeleton (fieldTree name type)) := by
  refine .node rfl (show [.token .identifier, .rule .simpleType] ∈ _ by decide) (.token rfl ?_) .nil
  exact .hidden rfl (show [.token .identifier] ∈ _ by decide) (.token rfl .nil)

theorem derives_variableTree (name other : String) :
    Derives grammar Word.token [.rule .declaration] (skeleton (variableTree name other)) := by
  refine .hidden rfl (show [.rule .varDeclaration] ∈ _ by decide) ?_
  refine .node rfl (show [.token (.word .kwVar), .rule .varSpecList] ∈ _ by decide)
    (.token rfl ?_) .nil
  refine .node rfl
    (show [.token (.op .lparen), .rule .varSpecs, .token (.op .rparen)] ∈ _ by decide)
    (.token rfl ?_) .nil
  refine .hidden rfl (show [.rule .varSpec, .token .newline] ∈ _ by decide) ?_
  refine .node rfl (show [.token .identifier, .rule .moreNames, .rule .simpleType] ∈ _ by decide)
    (.token rfl ?_) (.token rfl (.token rfl .nil))
  refine .hidden rfl (show [.token (.op .comma), .token .identifier] ∈ _ by decide) ?_
  refine .token rfl (.token rfl (.hidden rfl (show [.token .identifier] ∈ _ by decide) ?_))
  exact .token rfl .nil

/-- A package with variables in a group and a struct type, each under a name that is given. -/
def groupTree (name : String) : SyntaxTree :=
  packageTree [variableTree "a" name, structTree name [fieldTree "F" "int"]]

theorem isErrorFree_groupTree (name : String) : IsErrorFree (groupTree name) := by
  have hstruct : Derives grammar Word.token [.rule .declaration]
      (skeleton (structTree name [fieldTree "F" "int"])) :=
    derives_structTree name [.rule .fieldDeclaration] (by decide) (derives_fieldTree "F" "int")
  refine isErrorFree_packageTree ?_
  simpa using ⟨derives_variableTree "a" name, hstruct⟩

end Samples

end StructModel.Go
