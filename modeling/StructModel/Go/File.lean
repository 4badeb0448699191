import StructModel.Go.Parse
import StructModel.Go.TypeExpr

/-!
# From syntax trees to declarations

A syntax tree holds comments as leaves wherever they stand, so each search among the children of a
node passes over them on its own: the search by kind, that for the first named child, and that for
the child with a part to play, which is told by its place among the children that are no comments.
-/

namespace StructModel.Go

open StructModel.Grammar

def Leaf.lexeme : Leaf → Lexeme
  | .token _ l => l
  | .comment l => l

mutual

def lexemes : SyntaxTree → List Lexeme
  | .leaf x => [x.lexeme]
  | .node _ children => lexemesAll children

def lexemesAll : List SyntaxTree → List Lexeme
  | [] => []
  | t :: ts => lexemes t ++ lexemesAll ts

end

/-- The source text from the first to the last leaf. -/
def sourceText (t : SyntaxTree) : String :=
  match lexemes t with
  | [] => ""
  | l :: ls => ls.foldl (fun s m => s ++ m.leading ++ m.text) l.text

def firstLine (t : SyntaxTree) : Nat :=
  match lexemes t with
  | [] => 1
  | l :: _ => l.line

section Kinds

def isComment : SyntaxTree → Bool
  | .leaf (.comment _) => true
  | _ => false

def isToken (token : Token) : SyntaxTree → Bool
  | .leaf (.token t _) => t == token
  | _ => false

def isStringLiteral (t : SyntaxTree) : Bool :=
  isToken .stringLiteral t || isToken .rawStringLiteral t

/-- Tokens that are always spelled alike have no name of their own. -/
def Token.isNamed : Token → Bool
  | .op _ | .newline | .semicolon | .nul => false
  | .word k => !Keyword.reserved.contains k
  | _ => true

/-- Nodes are named, and so are comments. -/
def isNamed : SyntaxTree → Bool
  | .leaf (.token t _) => t.isNamed
  | _ => true

def isTypeParameters : SyntaxTree → Bool
  | .node .typeParameterList _ => true
  | _ => false

def identifier? : SyntaxTree → Option String
  | .leaf (.token .identifier l) => some l.text
  | _ => none

end Kinds

/-- A child of a node with the type that it would be. -/
structure Part where
  tree : SyntaxTree
  type : TypeExpr

section Searches

/-- The first named child that is no comment. -/
def firstNamed? (parts : List Part) : Option Part :=
  parts.find? fun p => isNamed p.tree && !isComment p.tree

/-- The number of named children that are no comments. -/
def namedCount (parts : List Part) : Nat :=
  parts.countP fun p => isNamed p.tree && !isComment p.tree

/-- The child in a place. Comments have none. -/
def childAt? : List Part → Nat → Option Part
  | [], _ => none
  | p :: ps, 0 => if isComment p.tree then childAt? ps 0 else some p
  | p :: ps, n + 1 => if isComment p.tree then childAt? ps (n + 1) else childAt? ps n

/-- The child that is the type: the last one but for comments and a tag. -/
def typeChild? : List Part → Option Part
  | [] => none
  | p :: ps =>
    match typeChild? ps with
    | some q => some q
    | none => if isComment p.tree || isStringLiteral p.tree then none else some p

/-- The type that a child stands for. The type that a missing one stands for is incomplete. -/
def typeOf : Option Part → TypeExpr
  | some p => p.type
  | none => .other .incomplete

/-- The identifiers before the type of a field declaration. -/
def fieldNames : List Part → List String
  | [] => []
  | p :: ps =>
    match identifier? p.tree with
    | some name => if (typeChild? ps).isSome then name :: fieldNames ps else fieldNames ps
    | none => fieldNames ps

mutual

/-- The names, separated by commas, at the head of a specification. -/
def leadingNames : List SyntaxTree → List String
  | [] => []
  | .leaf (.comment _) :: ts => leadingNames ts
  | .leaf (.token _ l) :: ts => l.text :: furtherNames ts
  | .node _ _ :: _ => []

def furtherNames : List SyntaxTree → List String
  | [] => []
  | .leaf (.comment _) :: ts => furtherNames ts
  | .leaf (.token t _) :: ts => if t = .op .comma then leadingNames ts else []
  | .node _ _ :: _ => []

end

end Searches

section Types

/-- The type of a node other than that of a struct. -/
def typeOfParts (r : Rule) (parts : List Part) : TypeExpr :=
  match r with
  | .pointerType => .pointer (typeOf (firstNamed? parts))
  | .sliceType => .slice (typeOf (childAt? parts 2))
  | .arrayType => .array (typeOf (childAt? parts 3))
  | .mapType => .map (typeOf (childAt? parts 2)) (typeOf (childAt? parts 4))
  | .interfaceType => .interface (namedCount parts)
  | .parenthesizedType => .paren (typeOf (firstNamed? parts))
  | .qualifiedType => .other .qualified
  | .genericType => .other .generic
  | .channelType => .other .channel
  | .functionType => .other .function
  | .negatedType => .other .negated
  | _ => .other .incomplete

/-- A field declaration from its children. It is none without a type. -/
def FieldDecl.ofParts? (parts : List Part) (line : Nat) : Option FieldDecl :=
  match typeChild? parts with
  | none => none
  | some p =>
    let binding := match fieldNames parts with
      | [] => .embedded (parts.any fun q => isToken (.op .star) q.tree)
      | name :: others => .named name others
    let tag := (parts.find? fun q => isStringLiteral q.tree).map fun q => sourceText q.tree
    some (.mk binding p.type (sourceText p.tree) tag line)

mutual

def typeOfTree : SyntaxTree → TypeExpr
  | .leaf (.token .identifier l) => .name l.text
  | .leaf _ => .other .incomplete
  | .node .structType children => .struct (structFields children)
  | .node r children => typeOfParts r (partsOfTrees children)

/-- The field declarations of a struct type, which stand in the first list among its children. -/
def structFields : List SyntaxTree → List FieldDecl
  | [] => []
  | .node .fieldDeclarationList items :: _ => fieldsOfTrees items
  | _ :: ts => structFields ts

def fieldsOfTrees : List SyntaxTree → List FieldDecl
  | [] => []
  | .node .fieldDeclaration children :: ts =>
    let line := firstLine (.node .fieldDeclaration children)
    (FieldDecl.ofParts? (partsOfTrees children) line).toList ++ fieldsOfTrees ts
  | _ :: ts => fieldsOfTrees ts

def partsOfTrees : List SyntaxTree → List Part
  | [] => []
  | t :: ts => ⟨t, typeOfTree t⟩ :: partsOfTrees ts

end

end Types

section Declarations

/-- The name that a declaration gives, which is the first identifier in it. -/
def declaredName? (children : List SyntaxTree) : Option String := children.findSome? identifier?

/-- A specification with a name and a type. -/
def typeSpecOfNode (isAlias : Bool) (children : List SyntaxTree) (line : Nat) : Option TypeSpec :=
  match declaredName? children, typeChild? (partsOfTrees children) with
  | some name, some p =>
    some ⟨name, line, isAlias, children.any isTypeParameters, p.type, sourceText p.tree⟩
  | _, _ => none

def typeSpecOfTree (t : SyntaxTree) : Option TypeSpec :=
  match t with
  | .node .typeSpec children => typeSpecOfNode false children (firstLine t)
  | .node .typeAlias children => typeSpecOfNode true children (firstLine t)
  | _ => none

/-- The names of a specification of a kind, constants or variables. -/
def namesOfSpec (r : Rule) : SyntaxTree → Option (List String)
  | .leaf _ => none
  | .node q children => if q = r then some (leadingNames children) else none

def constantNames : SyntaxTree → Option (List String) := namesOfSpec .constSpec

def variableNames : SyntaxTree → Option (List String) := namesOfSpec .varSpec

/-- The variable specifications of a declaration: one alone, or those of its list. -/
def variableSpecs : List SyntaxTree → List (List String)
  | [] => []
  | .node .varSpecList specs :: ts => specs.filterMap variableNames ++ variableSpecs ts
  | t :: ts => (variableNames t).toList ++ variableSpecs ts

/-- An item of the top level; terminators and comments are none. -/
def topLevelOfTree : SyntaxTree → Option TopLevel
  | .leaf _ => none
  | .node .packageClause _ => some .package
  | .node .importDeclaration _ => some .imports
  | .node .functionDeclaration children => (declaredName? children).map .function
  | .node .methodDeclaration children => (declaredName? children).map .method
  | .node .typeDeclaration children => some (.types (children.filterMap typeSpecOfTree))
  | .node .constDeclaration children => some (.constants (children.filterMap constantNames))
  | .node .varDeclaration children => some (.variables (variableSpecs children))
  | .node _ _ => some .statement

/-- The top level of a file. -/
def topLevel : SyntaxTree → List TopLevel
  | .leaf _ => []
  | .node _ children => children.filterMap topLevelOfTree

end Declarations

end StructModel.Go
