import StructModel.Grammar.Automaton

/-!
# Readings of a text

A reading is what one way of understanding the text read so far has on its stack. A token is viable
after a reading when some reductions lead to a state that can shift it; since the whole stack takes
part, this is exact. Where several actions are possible, levels and associativity decide as far as
they can, and what they leave open splits the reading.
-/

namespace StructModel.Grammar

/-- A syntax tree over the rules `ρ` with leaves in `α`. -/
inductive Tree (ρ α : Type) where
  | leaf (content : α)
  | node (rule : ρ) (children : List (Tree ρ α))

/-- A state with the trees of the symbol that led to it and those that were passed before this
symbol, both with the last one first. -/
structure Frame (ρ α : Type) where
  state : Nat
  before : List (Tree ρ α) := []
  forest : List (Tree ρ α) := []

/-- The weight is the sum of the weights of the productions that were used. -/
structure Reading (ρ α : Type) where
  stack : List (Frame ρ α)
  weight : Int

def Reading.initial {ρ α : Type} : Reading ρ α := ⟨[{ state := 0 }], 0⟩

variable {τ ρ α : Type} [DecidableEq τ] [Hashable τ] [DecidableEq ρ] [Hashable ρ]

namespace Automaton

def state (a : Automaton τ ρ) (stack : List (Frame ρ α)) : State τ ρ :=
  match stack with
  | [] => default
  | f :: _ => a.states.getD f.state default

/-- The state after a reduction and the frames below it. -/
def unwind? (a : Automaton τ ρ) (stack : List (Frame ρ α)) (p : Production τ ρ) :
    Option (Nat × List (Frame ρ α)) :=
  let rest := stack.drop p.rhs.length
  ((a.state rest).moves[Symbol.rule (τ := τ) p.lhs]?).map fun n => (n, rest)

/-- The productions that the top of a stack has read to the end. The production of the whole text is
not among them. -/
def reductions (a : Automaton τ ρ) (stack : List (Frame ρ α)) : List (Production τ ρ) :=
  (a.state stack).complete.filterMap fun i => if i = 0 then none else a.productions[i]?

def isFinal (a : Automaton τ ρ) (stack : List (Frame ρ α)) : Bool :=
  (a.state stack).complete.contains 0

/-- The state that shifting a token leads to. -/
def shift? (a : Automaton τ ρ) (stack : List (Frame ρ α)) (t : τ) : Option Nat :=
  (a.state stack).moves[Symbol.token (ρ := ρ) t]?

/-- Whether a token, or the end of the text for `none`, can follow what is on the stack. -/
def accepts (a : Automaton τ ρ) (t : Option τ) : Nat → List (Frame ρ α) → Bool
  | 0, _ => false
  | fuel + 1, stack =>
    (match t with
      | none => a.isFinal stack
      | some t => (a.shift? stack t).isSome) ||
    (a.reductions stack).any fun p =>
      match a.unwind? stack p with
      | none => false
      | some (n, rest) => a.accepts t fuel ({ state := n } :: rest)

/-- The reductions after which a token can follow. -/
def viableReductions (a : Automaton τ ρ) (t : Option τ) (fuel : Nat) (stack : List (Frame ρ α)) :
    List (Production τ ρ) :=
  (a.reductions stack).filter fun p =>
    match a.unwind? stack p with
    | none => false
    | some (n, rest) => a.accepts t fuel ({ state := n } :: rest)

/-- The levels of the items that wait for a token in the midst of their production. -/
def shiftLevels (a : Automaton τ ρ) (stack : List (Frame ρ α)) (t : τ) : List Int :=
  (a.state stack).kernel.filterMap fun i =>
    match a.productions[i.production]? with
    | none => none
    | some p =>
      match p.rhs[i.dot]? with
      | none => none
      | some ⟨.token u, _⟩ => if u == t then some p.level else none
      | some ⟨.rule r, _⟩ => if (a.firsts.getD r []).contains t then some p.level else none

end Automaton

/-- The reductions of the highest level. -/
def strongest (ps : List (Production τ ρ)) : List (Production τ ρ) :=
  ps.filter fun p => ps.all fun q => q.level ≤ p.level

/-- Which of a shift and some reductions of one level stay. A shift that is stronger than the
reductions excludes them and one that is weaker gives way. Between equals, left association is
for the reductions and right association for the shift. -/
def settle (shiftLevels : List Int) (ps : List (Production τ ρ)) : Bool × List (Production τ ρ) :=
  match ps with
  | [] => (true, [])
  | p :: _ =>
    let weaker := shiftLevels.any fun l => l < p.level
    let stronger := shiftLevels.any fun l => p.level < l
    if stronger && !weaker then (true, [])
    else if weaker && !stronger then (false, ps)
    else if weaker && stronger then (true, ps)
    else if ps.all fun q => q.assoc == some .left then (false, ps)
    else if ps.all fun q => q.assoc == some .right then (true, [])
    else (true, ps)

namespace Automaton

/-- The trees of some frames, with what was passed between them. -/
def joined : List (Frame ρ α) → List (Tree ρ α)
  | [] => []
  | [f] => f.forest
  | f :: fs => f.forest ++ f.before ++ joined fs

/-- The frame of a rule from the frames of the symbols of a production. What was passed before the
first of them stays outside of the node. -/
def assemble (a : Automaton τ ρ) (p : Production τ ρ) (state : Nat) (frames : List (Frame ρ α)) :
    Frame ρ α where
  state := state
  before := frames.getLast?.elim [] Frame.before
  forest := if a.hidden p.lhs then joined frames else [.node p.lhs (joined frames).reverse]

/-- The state that a token leads to and the reductions that come before it. -/
def actions (a : Automaton τ ρ) (t : Option τ) (fuel : Nat) (stack : List (Frame ρ α)) :
    Option Nat × List (Production τ ρ) :=
  let ps := strongest (a.viableReductions t fuel stack)
  match t with
  | none => (none, ps)
  | some t =>
    match a.shift? stack t with
    | none => (none, ps)
    | some n =>
      let (keep, ps) := settle (a.shiftLevels stack t) ps
      (if keep then some n else none, ps)

/-- All readings after a token with the given trees, or, for the end of the text, all complete
readings. -/
def advance (a : Automaton τ ρ) (t : Option τ) (before forest : List (Tree ρ α)) :
    Nat → Reading ρ α → List (Reading ρ α)
  | 0, _ => []
  | fuel + 1, r =>
    let (shift, ps) := a.actions t fuel r.stack
    let shifted :=
      match shift with
      | some n => [⟨⟨n, before, forest⟩ :: r.stack, r.weight⟩]
      | none => if t.isNone && a.isFinal r.stack then [r] else []
    shifted ++ ps.flatMap fun p =>
      match a.unwind? r.stack p with
      | none => []
      | some (n, rest) =>
        let frame := a.assemble p n (r.stack.take p.rhs.length)
        a.advance t before forest fuel ⟨frame :: rest, r.weight + p.weight⟩

/-- The most reductions that can follow one another on a stack of the given depth: each one that
keeps the depth leads to another rule. -/
def reductionBound (a : Automaton τ ρ) (depth : Nat) : Nat :=
  (depth + 2) * (a.firsts.size + 1)

end Automaton

/-- Readings with equal states stand for the same future; the one of the greatest weight stays,
of equals the first. -/
def Reading.sameFuture (r s : Reading ρ α) : Bool :=
  r.stack.map Frame.state == s.stack.map Frame.state

end StructModel.Grammar
