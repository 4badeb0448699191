import StructModel.Grammar.Reading
import StructModel.Go.Rules
import StructModel.Go.Scan

/-!
# Parsing Go

All readings of a text advance together, the one that is furthest behind first, each with its own
view of where the next token ends. A text without a complete reading is reported at the place no
reading gets past: either the token there is a stray one, or one token is missing before it. Of
the two remedies the one after which more of the text can be read is the likelier.
-/

namespace StructModel.Go

open StructModel.Grammar

abbrev SyntaxTree := Tree Rule Leaf

def automaton : Automaton Token Rule := grammar.automaton

inductive Problem where
  | unexpected
  | missing (name : String)
  deriving DecidableEq, Repr

/-- Lines and columns count from 1, columns in bytes. -/
structure SyntaxError where
  line : Nat
  column : Nat
  problem : Problem
  deriving DecidableEq, Repr

/-- A reading with the place that it has reached. -/
structure Thread where
  cursor : Cursor
  reading : Reading Rule Leaf

/-- A thread that nothing viable follows, with the place where something viable was looked for. -/
structure Impasse where
  thread : Thread
  place : Cursor

namespace Thread

/-- Every frame of a stack but the lowest two covers a character. -/
def fuel (t : Thread) : Nat := automaton.reductionBound (t.cursor.offset + 2)

def accepts (t : Thread) (token : Option Token) : Bool :=
  automaton.accepts token t.fuel t.reading.stack

def advance (t : Thread) (token : Option Token) (before forest : List SyntaxTree)
    (after : Cursor) : List Thread :=
  (automaton.advance token before forest t.fuel t.reading).map fun r => ⟨after, r⟩

end Thread

/-- What a round of steps leads to. -/
structure Front where
  threads : List Thread := []
  complete : List (Reading Rule Leaf) := []
  impasses : List Impasse := []

def Front.step (f : Front) (t : Thread) : Front :=
  match scan t.accepts t.cursor [] [] with
  | .token comments token lexeme after =>
    let next := t.advance (some token) (comments.map .leaf) [.leaf (.token token lexeme)] after
    { f with threads := f.threads ++ next }
  | .finish =>
    { f with complete := f.complete ++ (t.advance none [] [] t.cursor).map Thread.reading }
  | .stuck place => { f with impasses := f.impasses ++ [⟨t, place⟩] }

/-- Add a thread unless another one at the same place has the same future and at least its
weight. -/
def mergeThread : List Thread → Thread → List Thread
  | [], t => [t]
  | s :: rest, t =>
    if s.cursor.offset == t.cursor.offset && s.reading.sameFuture t.reading then
      (if s.reading.weight < t.reading.weight then t else s) :: rest
    else s :: mergeThread rest t

def merge : List Thread → List Thread
  | [] => []
  | [t] => [t]
  | ts => ts.foldl mergeThread []

/-- The impasses that are furthest on. -/
def furthest (old new : List Impasse) : List Impasse :=
  let all := old ++ new
  all.filter fun i => all.all fun j => j.place.offset ≤ i.place.offset

/-- The first of the readings with the greatest weight. -/
def heaviest : Reading Rule Leaf → List (Reading Rule Leaf) → Reading Rule Leaf
  | best, [] => best
  | best, r :: rest => heaviest (if best.weight < r.weight then r else best) rest

/-- Advance the threads that are furthest behind until a reading is complete or none is left. -/
def run : Nat → List Thread → List Impasse → Except (List Impasse) (Reading Rule Leaf)
  | 0, _, impasses => .error impasses
  | _ + 1, [], impasses => .error impasses
  | fuel + 1, t :: ts, impasses =>
    let low := ts.foldl (fun low s => min low s.cursor.offset) t.cursor.offset
    let (now, later) := (t :: ts).partition fun s => s.cursor.offset == low
    let front := now.foldl Front.step {}
    match front.complete with
    | r :: rest => .ok (heaviest r rest)
    | [] => run fuel (merge (later ++ front.threads)) (furthest impasses front.impasses)

/-- The tree of a complete reading, with the comments before its first token. Those behind its last
one are in no node. -/
def rootTree (r : Reading Rule Leaf) : SyntaxTree :=
  match r.stack with
  | ⟨_, comments, [.node rule children]⟩ :: _ => .node rule (comments.reverse ++ children)
  | _ => .node .sourceFile []

/-- How far the rest of a text can be read from a thread; `none` is to the end. -/
def reach (fuel : Nat) (t : Thread) : Option Nat :=
  match run fuel [t] [] with
  | .ok _ => none
  | .error impasses => some (impasses.foldl (fun n i => max n i.place.offset) 0)

/-- All the stacks that reductions lead to, whatever may follow. -/
def reducedStacks : Nat → List (Frame Rule Leaf) → List (List (Frame Rule Leaf))
  | 0, stack => [stack]
  | fuel + 1, stack =>
    stack :: (automaton.reductions stack).flatMap fun p =>
      match automaton.unwind? stack p with
      | none => []
      | some (n, rest) => reducedStacks fuel ({ state := n } :: rest)

/-- The tokens whose absence is recognised. -/
def neededTokens : List Token := [.identifier, .op .rparen, .op .rbrack]

/-- A token that makes up for an impasse when it is put in: it must complete a production that the
text after it can follow. The name is the one that the production gives the token. -/
def insertion? (i : Impasse) : Option (String × Thread) :=
  (reducedStacks i.thread.fuel i.thread.reading.stack).findSome? fun stack =>
    neededTokens.findSome? fun token => do
      let n ← automaton.shift? stack token
      let t : Thread := { i.thread with reading := ⟨{ state := n } :: stack, 0⟩ }
      match scan t.accepts t.cursor [] [] with
      | .token _ next _ _ =>
        let p ← (automaton.viableReductions (some next) t.fuel t.reading.stack).head?
        let s ← p.rhs.getLast?
        return (s.label, t)
      | _ => none

/-- The thread of an impasse behind the stray token. -/
def skipStray (i : Impasse) : Nat × Thread :=
  let width := match candidates i.place.rest with
    | (_, n) :: _ => n
    | [] => 1
  (width, { i.thread with cursor := i.place.move width })

/-- A missing token weighs as much as a stray one of this many characters. -/
def missingWidth : Nat := 10

/-- Whether the second remedy reaches further than the first. -/
def reachesFurther : Option Nat → Option Nat → Bool
  | some _, none => true
  | some m, some n => m < n
  | none, _ => false

def diagnose (fuel : Nat) (i : Impasse) : SyntaxError :=
  let (width, skipped) := skipStray i
  let stray : SyntaxError := ⟨i.place.line, i.place.column + 1, .unexpected⟩
  match insertion? i with
  | none => stray
  | some (name, inserted) =>
    let missing : SyntaxError :=
      ⟨i.thread.cursor.line, i.thread.cursor.column + 1, .missing name⟩
    let a := reach fuel skipped
    let b := reach fuel inserted
    if reachesFurther a b then missing
    else if reachesFurther b a then stray
    else if width < missingWidth then stray
    else missing

/-- The syntax tree of a text. Each round passes a character or is one of the last two. -/
def parse (text : String) : Except SyntaxError SyntaxTree :=
  let start := Cursor.ofText text
  let fuel := start.rest.length + 3
  match run fuel [⟨start, Reading.initial⟩] [] with
  | .ok r => .ok (rootTree r)
  | .error [] => .error ⟨1, 1, .unexpected⟩
  | .error (i :: _) => .error (diagnose fuel i)

end StructModel.Go
