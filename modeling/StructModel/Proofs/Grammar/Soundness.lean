import StructModel.Proofs.Grammar.Automaton
import StructModel.Proofs.Grammar.Derivation
import StructModel.Proofs.Grammar.Steps

/-!
# Readings derive their trees

The frames on the stack of a reading stand for symbols, each of which derives the trees of its
frame. A reduction takes a whole production from the stack, because its item has come a long way:
the symbols before the dot of an item are those on top of the stack. So a complete reading has a
tree that the start rule derives.

The trees of a reading may hold more than the grammar knows of, as a function tells that maps each
of them to what the grammar derives.
-/

namespace StructModel.Grammar

variable {τ ρ α β : Type} [DecidableEq τ] [Hashable τ] [DecidableEq ρ] [Hashable ρ]

section Productions

variable {g : RuleSet τ ρ}

theorem productions_automaton (g : RuleSet τ ρ) :
    g.automaton.productions = g.plan.productions := by
  simp only [RuleSet.automaton]

theorem hidden_automaton (g : RuleSet τ ρ) : g.automaton.hidden = g.hidden := by
  simp only [RuleSet.automaton]

theorem productions_plan (g : RuleSet τ ρ) : g.plan.productions = g.productions.toArray := by
  simp only [RuleSet.plan]

theorem next?_of_production {plan : Plan τ ρ} {i : Item} {p : Production τ ρ}
    (hp : plan.productions[i.production]? = some p) :
    plan.next? i = p.rhs[i.dot]?.map Step.symbol := by
  rw [Plan.next?, hp, Option.map_eq_bind]
  rfl

/-- All productions but the first one are rows of their rules. -/
theorem row_of_production {i : Nat} {p : Production τ ρ} (hi : i ≠ 0)
    (h : g.plan.productions[i]? = some p) : p.rhs.map Step.symbol ∈ g.rows p.lhs := by
  obtain ⟨n, rfl⟩ := Nat.exists_eq_succ_of_ne_zero hi
  rw [productions_plan, List.getElem?_toArray, RuleSet.productions, List.getElem?_cons_succ] at h
  obtain ⟨r, -, hp⟩ := List.mem_flatMap.mp (List.mem_of_getElem? h)
  obtain ⟨a, ha, hp⟩ := List.mem_flatMap.mp hp
  obtain ⟨rhs, hrhs, rfl⟩ := List.mem_map.mp hp
  exact List.mem_flatMap.mpr ⟨a, ha, List.mem_map_of_mem hrhs⟩

end Productions

/-- The frames of a stack over its first state, with the symbols that they stand for, the last one
first. The grammar knows nothing of what was passed between the symbols. -/
inductive IsRun (g : RuleSet τ ρ) (tokenOf : β → τ) (view : Tree ρ α → List (Tree ρ β)) :
    List (Frame ρ α) → List (Symbol τ ρ) → Prop
  | start : IsRun g tokenOf view [{ state := 0 }] []
  | push {f : Frame ρ α} {stack : List (Frame ρ α)} {s : Symbol τ ρ} {symbols : List (Symbol τ ρ)}
      (hmove : (g.automaton.state stack).moves[s]? = some f.state)
      (hbefore : ∀ t ∈ f.before, view t = [])
      (hforest : Derives g tokenOf [s] (f.forest.reverse.flatMap view))
      (below : IsRun g tokenOf view stack symbols) :
      IsRun g tokenOf view (f :: stack) (s :: symbols)

namespace IsRun

variable {g : RuleSet τ ρ} {tokenOf : β → τ} {view : Tree ρ α → List (Tree ρ β)}
  {stack : List (Frame ρ α)} {symbols : List (Symbol τ ρ)}

theorem state_eq (f : Frame ρ α) {kernel : List Item} (h : g.kernel? f.state = some kernel) :
    g.automaton.state (f :: stack) ∈ g.automaton.states ∧
      (g.automaton.state (f :: stack)).kernel = kernel := by
  obtain ⟨s, hs, rfl⟩ := Option.map_eq_some_iff.mp h
  have hstate : g.automaton.state (f :: stack) = s := by
    rw [Automaton.state, Array.getD_eq_getD_getElem?, hs, Option.getD_some]
  rw [hstate]
  exact ⟨Array.mem_of_getElem? hs, rfl⟩

/-- The top of a stack is a state of the automaton. -/
theorem state_mem (h : IsRun g tokenOf view stack symbols) :
    g.automaton.state stack ∈ g.automaton.states := by
  obtain ⟨hfirst, hsound⟩ := isSound_automaton g
  induction h with
  | start => exact (state_eq { state := 0 } hfirst).1
  | @push f stack s symbols hmove hbefore hforest below ih =>
      obtain ⟨kernel, hkernel, -⟩ := (hsound _ ih).moves s f.state hmove
      exact (state_eq f hkernel).1

/-- The symbols before the dot of an item are those on top of the stack. -/
theorem before_dot (h : IsRun g tokenOf view stack symbols) {i : Item}
    (hi : i ∈ g.plan.closure (g.automaton.state stack).kernel) {p : Production τ ρ}
    (hp : g.plan.productions[i.production]? = some p) :
    i.dot ≤ symbols.length ∧ i.dot ≤ p.rhs.length ∧
      symbols.take i.dot = ((p.rhs.take i.dot).map Step.symbol).reverse := by
  obtain ⟨hfirst, hsound⟩ := isSound_automaton g
  have hnone : ∀ {i : Item} {symbols : List (Symbol τ ρ)}, i.dot = 0 →
      i.dot ≤ symbols.length ∧ i.dot ≤ p.rhs.length ∧
        symbols.take i.dot = ((p.rhs.take i.dot).map Step.symbol).reverse := by
    intro i symbols hdot
    simp [hdot]
  induction h generalizing i with
  | start =>
      rcases Plan.mem_closure hi with hi | hdot
      · rw [(state_eq { state := 0 } hfirst).2] at hi
        rw [List.mem_singleton.mp hi]
        exact hnone rfl
      · exact hnone hdot
  | @push f stack s symbols hmove hbefore hforest below ih =>
      rcases Plan.mem_closure hi with hi | hdot
      · obtain ⟨kernel, hkernel, hreach⟩ := (hsound _ below.state_mem).moves s f.state hmove
        rw [(state_eq f hkernel).2] at hi
        obtain ⟨j, hj, hnext, rfl⟩ := hreach i hi
        obtain ⟨hsymbols, hrhs, htake⟩ := ih hj hp
        rw [next?_of_production (i := j) hp] at hnext
        obtain ⟨step, hstep, rfl⟩ := Option.map_eq_some_iff.mp hnext
        obtain ⟨hlt, -⟩ := List.getElem?_eq_some_iff.mp hstep
        refine ⟨Nat.succ_le_succ hsymbols, hlt, ?_⟩
        have hrow : p.rhs.take (j.dot + 1) = p.rhs.take j.dot ++ [step] := by
          rw [List.take_add_one, hstep, Option.toList_some]
        change (step.symbol :: symbols).take (j.dot + 1) = ((p.rhs.take (j.dot + 1)).map _).reverse
        rw [hrow, List.take_succ_cons, htake, List.map_append, List.reverse_append]
        rfl
      · exact hnone hdot

/-- A production that is complete has its symbols on top of the stack. -/
theorem take_of_reduction (h : IsRun g tokenOf view stack symbols) {n : Nat} {p : Production τ ρ}
    (hn : n ∈ (g.automaton.state stack).complete) (hp : g.plan.productions[n]? = some p) :
    p.rhs.length ≤ symbols.length ∧
      (symbols.take p.rhs.length).reverse = p.rhs.map Step.symbol := by
  obtain ⟨i, hi, rfl, hnext⟩ := ((isSound_automaton g).2 _ h.state_mem).complete n hn
  obtain ⟨hsymbols, hrhs, htake⟩ := h.before_dot hi hp
  rw [next?_of_production hp, Option.map_eq_none_iff, List.getElem?_eq_none_iff] at hnext
  have hdot : i.dot = p.rhs.length := Nat.le_antisymm hrhs hnext
  rw [hdot] at hsymbols htake
  rw [htake, List.take_length, List.reverse_reverse]
  exact ⟨hsymbols, rfl⟩

/-- The frames on top of a stack derive their trees, and what is below them is a stack again. -/
theorem split (h : IsRun g tokenOf view stack symbols) {n : Nat} (hn : n ≤ symbols.length) :
    IsRun g tokenOf view (stack.drop n) (symbols.drop n) ∧
      Derives g tokenOf (symbols.take n).reverse
        (((stack.take n).flatMap Frame.forest).reverse.flatMap view) := by
  induction h generalizing n with
  | start =>
      obtain rfl := Nat.le_zero.mp hn
      exact ⟨.start, .nil⟩
  | @push f stack s symbols hmove hbefore hforest below ih =>
      cases n with
      | zero => exact ⟨.push hmove hbefore hforest below, .nil⟩
      | succ n =>
          obtain ⟨hbelow, hderives⟩ := ih (Nat.le_of_succ_le_succ hn)
          refine ⟨hbelow, ?_⟩
          rw [List.take_succ_cons, List.take_succ_cons, List.reverse_cons, List.flatMap_cons,
            List.reverse_append, List.flatMap_append]
          exact hderives.append hforest

theorem mem_reductions {p : Production τ ρ} (hp : p ∈ g.automaton.reductions stack) :
    ∃ n ∈ (g.automaton.state stack).complete, n ≠ 0 ∧ g.plan.productions[n]? = some p := by
  obtain ⟨n, hn, hp⟩ := List.mem_filterMap.mp hp
  split at hp
  · cases hp
  · rename_i hzero
    rw [productions_automaton] at hp
    exact ⟨n, hn, hzero, hp⟩

theorem view_before (h : IsRun g tokenOf view stack symbols) :
    ∀ f ∈ stack, ∀ t ∈ f.before, view t = [] := by
  induction h with
  | start => simp
  | push hmove hbefore hforest below ih => exact List.forall_mem_cons.mpr ⟨hbefore, ih⟩

omit [DecidableEq ρ] [Hashable ρ] in
/-- What was passed between some frames is not seen among their trees. -/
theorem flatMap_joined {frames : List (Frame ρ α)} (h : ∀ f ∈ frames, ∀ t ∈ f.before, view t = []) :
    (Automaton.joined frames).reverse.flatMap view =
      (frames.flatMap Frame.forest).reverse.flatMap view := by
  fun_induction Automaton.joined frames with
  | case1 => rfl
  | case2 f => simp
  | case3 f fs hfs ih =>
      obtain ⟨hf, hfs⟩ := List.forall_mem_cons.mp h
      have hbefore : f.before.reverse.flatMap view = [] :=
        List.flatMap_eq_nil_iff.mpr fun t ht => hf t (List.mem_reverse.mp ht)
      rw [List.flatMap_cons, List.reverse_append, List.reverse_append, List.reverse_append,
        List.flatMap_append, List.flatMap_append, List.flatMap_append, ih hfs, hbefore,
        List.nil_append]

theorem view_before_assemble {frames : List (Frame ρ α)}
    (h : ∀ f ∈ frames, ∀ t ∈ f.before, view t = []) (p : Production τ ρ) (n : Nat) :
    ∀ t ∈ (g.automaton.assemble p n frames).before, view t = [] := by
  rw [Automaton.assemble]
  cases hlast : frames.getLast? with
  | none => exact fun t ht => absurd ht List.not_mem_nil
  | some f => exact h f (List.mem_of_getLast? hlast)

/-- After a reduction the new frame derives its trees. -/
theorem reduce (hview : ∀ r children, view (.node r children) = [.node r (children.flatMap view)])
    (h : IsRun g tokenOf view stack symbols) {p : Production τ ρ}
    (hp : p ∈ g.automaton.reductions stack) {n : Nat} {rest : List (Frame ρ α)}
    (hrest : g.automaton.unwind? stack p = some (n, rest)) :
    ∃ symbols', IsRun g tokenOf view
      (g.automaton.assemble p n (stack.take p.rhs.length) :: rest) symbols' := by
  obtain ⟨i, hi, hzero, hp⟩ := mem_reductions hp
  obtain ⟨hlength, htake⟩ := h.take_of_reduction hi hp
  obtain ⟨hbelow, hderives⟩ := h.split hlength
  rw [htake] at hderives
  obtain ⟨m, hm, heq⟩ := Option.map_eq_some_iff.mp hrest
  cases heq
  have htop : ∀ f ∈ stack.take p.rhs.length, ∀ t ∈ f.before, view t = [] := fun f hf =>
    h.view_before f (List.mem_of_mem_take hf)
  refine ⟨.rule p.lhs :: symbols.drop p.rhs.length,
    .push hm (view_before_assemble htop p n) ?_ hbelow⟩
  have hrow := row_of_production hzero hp
  rw [← flatMap_joined htop] at hderives
  rw [Automaton.assemble, hidden_automaton]
  by_cases hhidden : g.hidden p.lhs = true
  · simp only [if_pos hhidden]
    exact Derives.hidden hhidden hrow (by rwa [List.append_nil])
  · simp only [if_neg hhidden, List.reverse_singleton, List.flatMap_singleton, hview]
    exact Derives.node (Bool.eq_false_iff.mpr hhidden) hrow hderives .nil

/-- The symbol of the whole text is on top of a stack that is final. -/
theorem of_isFinal (h : IsRun g tokenOf view stack symbols)
    (hfinal : g.automaton.isFinal stack = true) :
    ∃ f rest, stack = f :: rest ∧ (∀ t ∈ f.before, view t = []) ∧
      Derives g tokenOf [.rule g.start] (f.forest.reverse.flatMap view) := by
  have hzero : g.plan.productions[0]? = some ⟨g.start, [⟨.rule g.start, ""⟩], 0, none, 0⟩ := by
    rw [productions_plan, List.getElem?_toArray, RuleSet.productions, List.getElem?_cons_zero]
  obtain ⟨hlength, htake⟩ := h.take_of_reduction (List.contains_iff_mem.mp hfinal) hzero
  cases h with
  | start => simp at hlength
  | @push f stack s symbols hmove hbefore hforest below =>
      obtain ⟨rfl, -⟩ := List.cons.inj htake
      exact ⟨f, stack, rfl, hbefore, hforest⟩

end IsRun

section Advancing

variable {g : RuleSet τ ρ} {tokenOf : β → τ} {view : Tree ρ α → List (Tree ρ β)}

/-- What a reading has on its stack derives its trees. -/
def Reading.IsSound (g : RuleSet τ ρ) (tokenOf : β → τ) (view : Tree ρ α → List (Tree ρ β))
    (r : Reading ρ α) : Prop :=
  ∃ symbols, IsRun g tokenOf view r.stack symbols

theorem Reading.isSound_initial : (Reading.initial : Reading ρ α).IsSound g tokenOf view :=
  ⟨[], .start⟩

/-- Readings stay sound when a token is read whose trees it derives. At the end of the text they are
final. -/
theorem Reading.IsSound.advance
    (hview : ∀ r children, view (.node r children) = [.node r (children.flatMap view)])
    {t : Option τ} {before forest : List (Tree ρ α)} (hbefore : ∀ u ∈ before, view u = [])
    (hforest : ∀ t', t = some t' → Derives g tokenOf [.token t'] (forest.reverse.flatMap view))
    (fuel : Nat) {r : Reading ρ α} (h : r.IsSound g tokenOf view) :
    ∀ r' ∈ g.automaton.advance t before forest fuel r,
      r'.IsSound g tokenOf view ∧ (t = none → g.automaton.isFinal r'.stack = true) := by
  induction fuel generalizing r with
  | zero => exact fun r' hr' => nomatch hr'
  | succ fuel ih =>
      obtain ⟨symbols, hrun⟩ := h
      intro r' hr'
      obtain ⟨u, n, rfl, hmove, rfl⟩ | ⟨-, hfinal, rfl⟩ | ⟨p, hp, n, rest, hrest, hr'⟩ :=
        g.automaton.advance_cases hr'
      · exact ⟨⟨_, .push hmove hbefore (hforest u rfl) hrun⟩, fun h => nomatch h⟩
      · exact ⟨⟨symbols, hrun⟩, fun _ => hfinal⟩
      · exact ih (r := ⟨_, _⟩) (hrun.reduce hview hp hrest) r' hr'

end Advancing

end StructModel.Grammar
