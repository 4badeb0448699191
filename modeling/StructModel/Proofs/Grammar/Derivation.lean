import StructModel.Grammar.Reading

/-!
# Trees of a grammar

A row of symbols derives some trees when each token of it is a leaf and each rule a node, whose
children are derived from a row that the rule stands for. A hidden rule has no node: what its row
derives stands in its place.
-/

namespace StructModel.Grammar

variable {τ ρ α : Type}

/-- Induction on a tree, with all the children of a node at once. -/
@[elab_as_elim]
theorem Tree.induction {motive : Tree ρ α → Prop} (leaf : ∀ a, motive (.leaf a))
    (node : ∀ r children, (∀ t ∈ children, motive t) → motive (.node r children)) :
    ∀ t, motive t :=
  Tree.rec (motive_1 := motive) (motive_2 := fun ts => ∀ t ∈ ts, motive t) leaf node
    (fun _ ht => nomatch ht) fun _ _ hhead htail => List.forall_mem_cons.mpr ⟨hhead, htail⟩

/-- The rows of symbols that a rule can stand for. -/
def RuleSet.rows (g : RuleSet τ ρ) (r : ρ) : List (List (Symbol τ ρ)) :=
  (g.alternatives r).flatMap fun a => a.phrase.expand.map (List.map Step.symbol)

inductive Derives (g : RuleSet τ ρ) (tokenOf : α → τ) :
    List (Symbol τ ρ) → List (Tree ρ α) → Prop
  | nil : Derives g tokenOf [] []
  | token {t : τ} {a : α} {ss : List (Symbol τ ρ)} {ts : List (Tree ρ α)} (ha : tokenOf a = t)
      (tail : Derives g tokenOf ss ts) : Derives g tokenOf (.token t :: ss) (.leaf a :: ts)
  | node {r : ρ} {row ss : List (Symbol τ ρ)} {children ts : List (Tree ρ α)}
      (hr : g.hidden r = false) (hrow : row ∈ g.rows r) (inner : Derives g tokenOf row children)
      (tail : Derives g tokenOf ss ts) :
      Derives g tokenOf (.rule r :: ss) (.node r children :: ts)
  | hidden {r : ρ} {row ss : List (Symbol τ ρ)} {ts : List (Tree ρ α)}
      (hr : g.hidden r = true) (hrow : row ∈ g.rows r) (tail : Derives g tokenOf (row ++ ss) ts) :
      Derives g tokenOf (.rule r :: ss) ts

/-- The children of a node are derived from a row of its rule. -/
def IsTreeOf (g : RuleSet τ ρ) (tokenOf : α → τ) : Tree ρ α → Prop
  | .leaf _ => True
  | .node r children => ∃ row ∈ g.rows r, Derives g tokenOf row children

/-- Whether all the symbols are among the given ones that a hidden one of these stands for. -/
def RuleSet.isClosed [DecidableEq τ] [DecidableEq ρ] (g : RuleSet τ ρ)
    (symbols : List (Symbol τ ρ)) : Bool :=
  symbols.all fun
    | .token _ => true
    | .rule r => !g.hidden r || (g.rows r).all fun row => row.all fun s => s ∈ symbols

theorem RuleSet.mem_of_isClosed [DecidableEq τ] [DecidableEq ρ] {g : RuleSet τ ρ}
    {symbols : List (Symbol τ ρ)} (h : g.isClosed symbols = true) {r : ρ} (hr : g.hidden r = true)
    (hmem : .rule r ∈ symbols) : ∀ row ∈ g.rows r, ∀ s ∈ row, s ∈ symbols := by
  have hrule := List.all_eq_true.mp h _ hmem
  simpa [hr] using hrule

namespace Derives

variable {g : RuleSet τ ρ} {tokenOf : α → τ} {ss : List (Symbol τ ρ)} {ts : List (Tree ρ α)}

theorem eq_nil (h : Derives g tokenOf [] ts) : ts = [] := by
  cases h
  rfl

/-- A token derives a leaf. -/
theorem exists_leaf {t : τ} (h : Derives g tokenOf (.token t :: ss) ts) :
    ∃ a rest, ts = .leaf a :: rest ∧ tokenOf a = t ∧ Derives g tokenOf ss rest := by
  cases h with
  | token ha tail => exact ⟨_, _, rfl, ha, tail⟩

/-- A rule that is not hidden derives a node. -/
theorem exists_node {r : ρ} (hr : g.hidden r = false) (h : Derives g tokenOf (.rule r :: ss) ts) :
    ∃ children rest, ts = .node r children :: rest ∧ Derives g tokenOf ss rest := by
  cases h with
  | node _ _ _ tail => exact ⟨_, _, rfl, tail⟩
  | hidden hr' => simp [hr] at hr'

/-- A hidden rule derives what one of its rows does. -/
theorem exists_row {r : ρ} (hr : g.hidden r = true) (h : Derives g tokenOf (.rule r :: ss) ts) :
    ∃ row ∈ g.rows r, Derives g tokenOf (row ++ ss) ts := by
  cases h with
  | node hr' => simp [hr] at hr'
  | hidden _ hrow tail => exact ⟨_, hrow, tail⟩

theorem append {us : List (Symbol τ ρ)} {vs : List (Tree ρ α)} (h : Derives g tokenOf ss ts)
    (h' : Derives g tokenOf us vs) : Derives g tokenOf (ss ++ us) (ts ++ vs) := by
  induction h with
  | nil => exact h'
  | token ha _ ih => exact .token ha ih
  | node hr hrow inner _ _ ih => exact .node hr hrow inner ih
  | @hidden r row ss ts hr hrow _ ih => exact .hidden hr hrow (List.append_assoc row ss us ▸ ih)

/-- All trees that are derived are trees of the grammar. -/
theorem isTreeOf (h : Derives g tokenOf ss ts) : ∀ t ∈ ts, IsTreeOf g tokenOf t := by
  induction h with
  | nil => exact fun t ht => nomatch ht
  | token ha tail ih => exact List.forall_mem_cons.mpr ⟨trivial, ih⟩
  | node hr hrow inner tail _ ih => exact List.forall_mem_cons.mpr ⟨⟨_, hrow, inner⟩, ih⟩
  | hidden hr hrow tail ih => exact ih

/-- What a rule derives that repeats a row comes from so many of the rows. -/
theorem exists_replicate {r : ρ} {part : List (Symbol τ ρ)} (hr : g.hidden r = true)
    (hrows : ∀ row ∈ g.rows r, row = part ∨ row = .rule r :: part)
    (h : Derives g tokenOf (.rule r :: ss) ts) :
    ∃ n, Derives g tokenOf ((List.replicate n part).flatten ++ ss) ts := by
  generalize hstart : Symbol.rule r :: ss = start at h
  induction h generalizing ss with
  | nil => cases hstart
  | token => cases hstart
  | node hr' =>
      cases hstart
      simp [hr] at hr'
  | @hidden _ row _ ts _ hrow tail ih =>
      cases hstart
      rcases hrows row hrow with rfl | rfl
      · exact ⟨1, by simpa using tail⟩
      · obtain ⟨n, hn⟩ := ih rfl
        refine ⟨n + 1, ?_⟩
        rw [List.replicate_succ', List.flatten_concat, List.append_assoc]
        exact hn

/-- The tokens of the leaves are among the symbols, when these are closed. -/
theorem token_mem [DecidableEq τ] [DecidableEq ρ] (symbols : List (Symbol τ ρ))
    (hclosed : g.isClosed symbols = true) (h : Derives g tokenOf ss ts)
    (hss : ∀ s ∈ ss, s ∈ symbols) {a : α} (ha : .leaf a ∈ ts) :
    .token (tokenOf a) ∈ symbols := by
  induction h with
  | nil => cases ha
  | token hb tail ih =>
      obtain ⟨hs, hss⟩ := List.forall_mem_cons.mp hss
      rcases List.mem_cons.mp ha with heq | ha
      · cases heq
        rw [hb]
        exact hs
      · exact ih hss ha
  | node hr hrow inner tail _ ih =>
      rcases List.mem_cons.mp ha with heq | ha
      · cases heq
      · exact ih (List.forall_mem_cons.mp hss).2 ha
  | @hidden r row ss ts hr hrow tail ih =>
      obtain ⟨hs, hss⟩ := List.forall_mem_cons.mp hss
      have hrow := RuleSet.mem_of_isClosed hclosed hr hs row hrow
      exact ih (List.forall_mem_append.mpr ⟨hrow, hss⟩) ha

end Derives

theorem IsTreeOf.children {g : RuleSet τ ρ} {tokenOf : α → τ} {r : ρ} {children : List (Tree ρ α)}
    (h : IsTreeOf g tokenOf (.node r children)) : ∀ t ∈ children, IsTreeOf g tokenOf t := by
  obtain ⟨row, -, h⟩ := h
  exact h.isTreeOf

end StructModel.Grammar
