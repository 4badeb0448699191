import StructModel.Proofs.Go.Skeleton

/-!
# Comments in syntax trees

Comments may stand between the children of any node. Putting some in moves what comes behind them,
and changes nothing else: the skeleton stays as it is. Any tree is its skeleton with comments put
in.
-/

namespace StructModel.Go

open StructModel.Grammar

mutual

/-- The second tree is the first one with comments put in, while what was there may have moved. -/
inductive AddsComments : SyntaxTree → SyntaxTree → Prop
  | token (t : Token) (text leading leading' : String) (line line' : Nat) :
      AddsComments (.leaf (.token t ⟨leading, text, line⟩))
        (.leaf (.token t ⟨leading', text, line'⟩))
  | comment (text leading leading' : String) (line line' : Nat) :
      AddsComments (.leaf (.comment ⟨leading, text, line⟩))
        (.leaf (.comment ⟨leading', text, line'⟩))
  | node (r : Rule) {children children' : List SyntaxTree}
      (h : AddsCommentsAmong children children') :
      AddsComments (.node r children) (.node r children')

/-- Comments may be put in before each of the children and behind the last one. -/
inductive AddsCommentsAmong : List SyntaxTree → List SyntaxTree → Prop
  | nil : AddsCommentsAmong [] []
  | cons {t t' : SyntaxTree} {ts ts' : List SyntaxTree} (head : AddsComments t t')
      (tail : AddsCommentsAmong ts ts') : AddsCommentsAmong (t :: ts) (t' :: ts')
  | insert (l : Lexeme) {ts ts' : List SyntaxTree} (tail : AddsCommentsAmong ts ts') :
      AddsCommentsAmong ts (.leaf (.comment l) :: ts')

end

mutual

theorem AddsComments.skeleton_eq {t t' : SyntaxTree} : AddsComments t t' → skeleton t' = skeleton t
  | .token .. => rfl
  | .comment .. => rfl
  | .node r h => by rw [skeleton, skeleton, h.skeletonAll_eq]

theorem AddsCommentsAmong.skeletonAll_eq {ts ts' : List SyntaxTree} :
    AddsCommentsAmong ts ts' → skeletonAll ts' = skeletonAll ts
  | .nil => rfl
  | .cons head tail => by rw [skeletonAll, skeletonAll, head.skeleton_eq, tail.skeletonAll_eq]
  | .insert l tail => by rw [skeletonAll, skeleton, List.nil_append, tail.skeletonAll_eq]

end

mutual

/-- The tree with a comment before each of its nodes and tokens, and at the end of each node. -/
def strewn (l : Lexeme) : SyntaxTree → SyntaxTree
  | .leaf x => .leaf x
  | .node r children => .node r (strewnAll l children)

def strewnAll (l : Lexeme) : List SyntaxTree → List SyntaxTree
  | [] => [.leaf (.comment l)]
  | t :: ts => .leaf (.comment l) :: strewn l t :: strewnAll l ts

end

mutual

theorem addsComments_strewn (l : Lexeme) : ∀ t, AddsComments t (strewn l t)
  | .leaf (.token t m) => by
      rw [strewn]
      exact .token t m.text m.leading m.leading m.line m.line
  | .leaf (.comment m) => by
      rw [strewn]
      exact .comment m.text m.leading m.leading m.line m.line
  | .node r children => by
      rw [strewn]
      exact .node r (addsCommentsAmong_strewnAll l children)

theorem addsCommentsAmong_strewnAll (l : Lexeme) : ∀ ts, AddsCommentsAmong ts (strewnAll l ts)
  | [] => by
      rw [strewnAll]
      exact .insert l .nil
  | t :: ts => by
      rw [strewnAll]
      exact .insert l (.cons (addsComments_strewn l t) (addsCommentsAmong_strewnAll l ts))

end

/-- Induction on the children alone. -/
@[elab_as_elim]
theorem AddsCommentsAmong.induction
    {motive : ∀ ts ts' : List SyntaxTree, AddsCommentsAmong ts ts' → Prop}
    (nil : motive [] [] .nil)
    (cons : ∀ {t t' ts ts'} (head : AddsComments t t') (tail : AddsCommentsAmong ts ts'),
      motive ts ts' tail → motive (t :: ts) (t' :: ts') (.cons head tail))
    (insert : ∀ (l : Lexeme) {ts ts'} (tail : AddsCommentsAmong ts ts'),
      motive ts ts' tail → motive ts (.leaf (.comment l) :: ts') (.insert l tail))
    {ts ts' : List SyntaxTree} (h : AddsCommentsAmong ts ts') : motive ts ts' h :=
  AddsCommentsAmong.rec (motive_1 := fun _ _ _ => True) (motive_2 := motive)
    (fun _ _ _ _ _ _ => trivial) (fun _ _ _ _ _ => trivial) (fun _ _ _ _ _ => trivial) nil
    (fun head tail _ ih => cons head tail ih) (fun l _ _ tail ih => insert l tail ih) h

section Skeletons

mutual

/-- The syntax tree of a skeleton, which has no comments. -/
def ofSkeleton : TokenTree → SyntaxTree
  | .leaf w => .leaf (.token w.token w.lexeme)
  | .node r children => .node r (ofSkeletonAll children)

def ofSkeletonAll : List TokenTree → List SyntaxTree
  | [] => []
  | t :: ts => ofSkeleton t :: ofSkeletonAll ts

end

@[simp] theorem ofSkeletonAll_eq (ts : List TokenTree) : ofSkeletonAll ts = ts.map ofSkeleton := by
  induction ts with
  | nil => rfl
  | cons t ts ih => rw [ofSkeletonAll, ih, List.map_cons]

theorem ofSkeleton_node (r : Rule) (children : List TokenTree) :
    ofSkeleton (.node r children) = .node r (children.map ofSkeleton) := by
  rw [ofSkeleton, ofSkeletonAll_eq]

mutual

theorem addsComments_ofSkeleton : ∀ {t : SyntaxTree} {v : TokenTree}, skeleton t = [v] →
    AddsComments (ofSkeleton v) t
  | .leaf (.token t l), v, h => by
      cases h
      exact .token t l.text "" l.leading 0 l.line
  | .leaf (.comment l), v, h => nomatch h
  | .node r children, v, h => by
      cases h
      rw [ofSkeleton]
      exact .node r (addsCommentsAmong_ofSkeletonAll children)

theorem addsCommentsAmong_ofSkeletonAll : ∀ ts : List SyntaxTree,
    AddsCommentsAmong (ofSkeletonAll (skeletonAll ts)) ts
  | [] => .nil
  | .leaf (.comment l) :: ts => .insert l (addsCommentsAmong_ofSkeletonAll ts)
  | .leaf (.token t l) :: ts =>
      .cons (addsComments_ofSkeleton rfl) (addsCommentsAmong_ofSkeletonAll ts)
  | .node r children :: ts => by
      rw [skeletonAll, skeleton, List.singleton_append, ofSkeletonAll]
      exact .cons (addsComments_ofSkeleton (by rw [skeleton])) (addsCommentsAmong_ofSkeletonAll ts)

end

end Skeletons

section Trees

variable {t t' : SyntaxTree}

theorem AddsComments.isErrorFree (h : AddsComments t t') (ht : IsErrorFree t) : IsErrorFree t' := by
  rw [IsErrorFree, h.skeleton_eq]
  exact ht

theorem AddsComments.skeletonItems_eq (h : AddsComments t t') :
    skeletonItems t' = skeletonItems t := by
  cases h with
  | token => rfl
  | comment => rfl
  | node r h => exact h.skeletonAll_eq

end Trees

end StructModel.Go
