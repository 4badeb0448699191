/-!
# Grammars with precedences

A grammar gives each rule a list of alternatives. The phrase of an alternative may leave parts out
or choose between parts; `productions` writes all the choices out, so that a production is a plain
list of symbols. A rule that repeats is written with the rule itself at the left end.

An alternative may carry a level with an associativity, which settle conflicts while parsing, and a
weight, which tells two complete readings of one text apart.
-/

namespace StructModel.Grammar

inductive Assoc where
  | left
  | right
  deriving DecidableEq, Repr

inductive Symbol (τ ρ : Type) where
  | token (t : τ)
  | rule (r : ρ)
  deriving DecidableEq, Hashable, Repr

/-- A symbol in its place in a production. The label is the name of a token in that place. -/
structure Step (τ ρ : Type) where
  symbol : Symbol τ ρ
  label : String

inductive Phrase (τ ρ : Type) where
  | step (s : Step τ ρ)
  | seq (parts : List (Phrase τ ρ))
  | oneOf (choices : List (Phrase τ ρ))
  | opt (part : Phrase τ ρ)

structure Alternative (τ ρ : Type) where
  phrase : Phrase τ ρ
  level : Int := 0
  assoc : Option Assoc := none
  weight : Int := 0

structure Production (τ ρ : Type) where
  lhs : ρ
  rhs : List (Step τ ρ)
  level : Int
  assoc : Option Assoc
  weight : Int

/-- A grammar over the tokens `τ` with the rules `ρ`. A hidden rule makes no node of its own: its
children stand among those of the rule that uses it. -/
structure RuleSet (τ ρ : Type) where
  rules : List ρ
  start : ρ
  alternatives : ρ → List (Alternative τ ρ)
  hidden : ρ → Bool

variable {τ ρ : Type}

mutual

/-- All the plain sequences of steps that a phrase stands for. -/
def Phrase.expand : Phrase τ ρ → List (List (Step τ ρ))
  | .step s => [[s]]
  | .seq parts => expandSeq parts
  | .oneOf choices => expandChoices choices
  | .opt part => part.expand ++ [[]]

def expandSeq : List (Phrase τ ρ) → List (List (Step τ ρ))
  | [] => [[]]
  | p :: ps =>
    let tails := expandSeq ps
    p.expand.flatMap fun s => tails.map fun t => s ++ t

def expandChoices : List (Phrase τ ρ) → List (List (Step τ ρ))
  | [] => []
  | p :: ps => p.expand ++ expandChoices ps

end

def Alternative.productions (lhs : ρ) (a : Alternative τ ρ) : List (Production τ ρ) :=
  a.phrase.expand.map fun rhs => ⟨lhs, rhs, a.level, a.assoc, a.weight⟩

/-- The productions of all rules. The first one is the start rule alone, for the whole text. -/
def RuleSet.productions (g : RuleSet τ ρ) : List (Production τ ρ) :=
  ⟨g.start, [⟨.rule g.start, ""⟩], 0, none, 0⟩ ::
    g.rules.flatMap fun r => (g.alternatives r).flatMap (Alternative.productions r)

end StructModel.Grammar
