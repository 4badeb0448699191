import StructModel.Grammar.Basic
import Std.Data.HashMap

/-!
# The automaton of viable prefixes

A state is a set of items: productions with a dot before the part that is still to come. The
automaton keeps the items only, not what may follow them; what may follow is read off the stack
of a reading, which knows the whole left context.
-/

namespace StructModel.Grammar

/-- A production, named by its index, with its first `dot` symbols read. -/
structure Item where
  production : Nat
  dot : Nat
  deriving DecidableEq, Hashable, Repr

variable {τ ρ : Type} [DecidableEq τ] [Hashable τ] [DecidableEq ρ] [Hashable ρ]

/-- The kernel holds the items whose dot has moved, `complete` the productions whose dot is at the
end. -/
structure State (τ ρ : Type) [DecidableEq τ] [Hashable τ] [DecidableEq ρ] [Hashable ρ] where
  kernel : List Item
  moves : Std.HashMap (Symbol τ ρ) Nat := {}
  complete : List Nat := []

instance : Inhabited (State τ ρ) := ⟨{ kernel := [] }⟩

structure Automaton (τ ρ : Type) [DecidableEq τ] [Hashable τ] [DecidableEq ρ] [Hashable ρ] where
  productions : Array (Production τ ρ)
  hidden : ρ → Bool
  /-- The tokens that can begin each rule. -/
  firsts : Std.HashMap ρ (List τ)
  states : Array (State τ ρ)

/-- Add to a list what it does not hold yet. -/
def insertNew {α : Type} [BEq α] (xs : List α) (x : α) : List α :=
  if xs.contains x then xs else xs ++ [x]

/-- The symbols at the left end of the productions of a rule. -/
def leftSymbols (productions : Array (Production τ ρ)) (own : List Nat) : List (Symbol τ ρ) :=
  own.foldl (fun syms i =>
    match productions[i]? with
    | some p => match p.rhs with
      | s :: _ => insertNew syms s.symbol
      | [] => syms
    | none => syms) []

/-- The rules that can stand at the left end of a rule, the rule itself included. -/
def leftRules (left : Std.HashMap ρ (List (Symbol τ ρ))) : Nat → List ρ → List ρ → List ρ
  | 0, seen, _ => seen
  | _ + 1, seen, [] => seen
  | fuel + 1, seen, r :: rest =>
    let new := (left.getD r []).filterMap fun
      | .rule q => if seen.contains q then none else some q
      | .token _ => none
    let new := new.foldl insertNew []
    leftRules left fuel (seen ++ new) (rest ++ new)

/-- What the states of an automaton are made from. -/
structure Plan (τ ρ : Type) [DecidableEq τ] [Hashable τ] [DecidableEq ρ] [Hashable ρ] where
  productions : Array (Production τ ρ)
  byRule : Std.HashMap ρ (List Nat)
  leftRules : Std.HashMap ρ (List ρ)
  firsts : Std.HashMap ρ (List τ)

def Plan.next? (plan : Plan τ ρ) (i : Item) : Option (Symbol τ ρ) := do
  let p ← plan.productions[i.production]?
  let s ← p.rhs[i.dot]?
  return s.symbol

/-- The items of a kernel with all the items at whose dot a rule begins that they wait for. -/
def Plan.closure (plan : Plan τ ρ) (kernel : List Item) : List Item :=
  let waiting := kernel.foldl (fun rs i =>
    match plan.next? i with
    | some (.rule r) => (plan.leftRules.getD r []).foldl insertNew rs
    | _ => rs) []
  kernel ++ waiting.flatMap fun r => (plan.byRule.getD r []).map fun p => ⟨p, 0⟩

/-- The kernels that a list of items leads to, one for each symbol after a dot. -/
def Plan.successors (plan : Plan τ ρ) (items : List Item) : List (Symbol τ ρ × List Item) :=
  let start : List (Symbol τ ρ) × Std.HashMap (Symbol τ ρ) (List Item) := ([], {})
  let (order, groups) := items.foldl (fun (order, groups) i =>
    match plan.next? i with
    | none => (order, groups)
    | some s =>
      let old := groups.getD s []
      (if old.isEmpty then s :: order else order,
        groups.insert s (⟨i.production, i.dot + 1⟩ :: old))) start
  order.reverse.map fun s =>
    (s, (groups.getD s []).mergeSort fun i j =>
      i.production < j.production || (i.production == j.production && i.dot ≤ j.dot))

/-- The states found so far, each with its number by kernel. -/
structure Growth (τ ρ : Type) [DecidableEq τ] [Hashable τ] [DecidableEq ρ] [Hashable ρ] where
  states : Array (State τ ρ)
  numbers : Std.HashMap (List Item) Nat

def Growth.number (g : Growth τ ρ) (kernel : List Item) : Nat × Growth τ ρ :=
  match g.numbers[kernel]? with
  | some n => (n, g)
  | none =>
    let n := g.states.size
    (n, ⟨g.states.push { kernel := kernel }, g.numbers.insert kernel n⟩)

/-- Give state `n` its moves, adding the states they lead to. -/
def Growth.fill (plan : Plan τ ρ) (g : Growth τ ρ) (n : Nat) (kernel : List Item) : Growth τ ρ :=
  let items := plan.closure kernel
  let complete := items.filterMap fun i =>
    if (plan.next? i).isNone then some i.production else none
  let (moves, g) := (plan.successors items).foldl
    (fun ((moves : Std.HashMap (Symbol τ ρ) Nat), (g : Growth τ ρ)) (s, k) =>
      let (m, g) := g.number k
      (moves.insert s m, g)) ({}, g)
  { g with states := g.states.setIfInBounds n ⟨kernel, moves, complete⟩ }

def grow (plan : Plan τ ρ) : Nat → Nat → Growth τ ρ → Growth τ ρ
  | 0, _, g => g
  | fuel + 1, n, g =>
    match g.states[n]? with
    | none => g
    | some s => grow plan fuel (n + 1) (g.fill plan n s.kernel)

/-- No more states than this are built. -/
def stateLimit : Nat := 65536

def RuleSet.plan (g : RuleSet τ ρ) : Plan τ ρ :=
  let productions := g.productions.toArray
  let byRule := (List.range productions.size).foldl (fun (m : Std.HashMap ρ (List Nat)) i =>
    if i = 0 then m else
      match productions[i]? with
      | some p => m.insert p.lhs (m.getD p.lhs [] ++ [i])
      | none => m) {}
  let left := g.rules.foldl (fun (m : Std.HashMap ρ (List (Symbol τ ρ))) r =>
    m.insert r (leftSymbols productions (byRule.getD r []))) {}
  let rules := g.rules.foldl (fun (m : Std.HashMap ρ (List ρ)) r =>
    m.insert r (leftRules left (g.rules.length + 1) [r] [r])) {}
  let firsts := g.rules.foldl (fun (m : Std.HashMap ρ (List τ)) r =>
    m.insert r ((rules.getD r []).foldl (fun ts q =>
      (left.getD q []).foldl (fun ts s =>
        match s with
        | .token t => insertNew ts t
        | .rule _ => ts) ts) [])) {}
  ⟨productions, byRule, rules, firsts⟩

def RuleSet.automaton (g : RuleSet τ ρ) : Automaton τ ρ :=
  let plan := g.plan
  let kernel : List Item := [⟨0, 0⟩]
  let grown := grow plan stateLimit 0 ⟨#[{ kernel := kernel }], {(kernel, 0)}⟩
  ⟨plan.productions, g.hidden, plan.firsts, grown.states⟩

end StructModel.Grammar
