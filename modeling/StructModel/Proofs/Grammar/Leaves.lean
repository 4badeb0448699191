import StructModel.Proofs.Grammar.Steps

/-!
# Leaves of readings

A reading makes up no leaves: those of the trees on its stack are the ones that it was advanced
with. So what holds of every leaf that is read holds of every leaf of a tree.
-/

namespace StructModel.Grammar

variable {τ ρ α : Type}

mutual

def Tree.leaves : Tree ρ α → List α
  | .leaf content => [content]
  | .node _ children => leavesAll children

/-- The leaves of some trees, one tree after the other. -/
def leavesAll : List (Tree ρ α) → List α
  | [] => []
  | t :: ts => t.leaves ++ leavesAll ts

end

theorem leavesAll_eq (ts : List (Tree ρ α)) : leavesAll ts = ts.flatMap Tree.leaves := by
  induction ts with
  | nil => rfl
  | cons t ts ih => rw [leavesAll, ih, List.flatMap_cons]

theorem mem_leavesAll_iff {ts : List (Tree ρ α)} {x : α} :
    x ∈ leavesAll ts ↔ ∃ t ∈ ts, x ∈ t.leaves := by
  rw [leavesAll_eq, List.mem_flatMap]

theorem leavesAll_append (ts us : List (Tree ρ α)) :
    leavesAll (ts ++ us) = leavesAll ts ++ leavesAll us := by
  rw [leavesAll_eq, leavesAll_eq, leavesAll_eq, List.flatMap_append]

def Frame.leaves (f : Frame ρ α) : List α := leavesAll f.before ++ leavesAll f.forest

def Reading.leaves (r : Reading ρ α) : List α := r.stack.flatMap Frame.leaves

namespace Automaton

theorem leaves_joined_subset (frames : List (Frame ρ α)) :
    leavesAll (joined frames) ⊆ frames.flatMap Frame.leaves := by
  induction frames with
  | nil => exact List.Subset.refl _
  | cons f fs ih =>
      intro x hx
      rw [List.flatMap_cons, Frame.leaves]
      cases fs with
      | nil => exact List.mem_append_left _ (List.mem_append_right _ hx)
      | cons f' fs =>
          rw [joined, leavesAll_append, leavesAll_append] at hx
          · rcases List.mem_append.mp hx with hx | hx
            · exact List.mem_append_left _ (List.mem_append.mpr (List.mem_append.mp hx).symm)
            · exact List.mem_append_right _ (ih hx)
          · exact List.cons_ne_nil f' fs

variable [DecidableEq τ] [Hashable τ] [DecidableEq ρ] [Hashable ρ] (a : Automaton τ ρ)

/-- The frame of a rule has the leaves of the frames that it is made of. -/
theorem leaves_assemble_subset (p : Production τ ρ) (n : Nat) (frames : List (Frame ρ α)) :
    (a.assemble p n frames).leaves ⊆ frames.flatMap Frame.leaves := by
  intro x hx
  rcases List.mem_append.mp hx with hx | hx
  · rw [assemble] at hx
    cases hlast : frames.getLast? with
    | none =>
        rw [hlast] at hx
        cases hx
    | some f =>
        rw [hlast] at hx
        exact List.mem_flatMap.mpr ⟨f, List.mem_of_getLast? hlast, List.mem_append_left _ hx⟩
  · apply leaves_joined_subset frames
    rw [assemble] at hx
    split at hx
    · exact hx
    · simpa [mem_leavesAll_iff, leavesAll, Tree.leaves] using hx

theorem leaves_reduce_subset {stack rest : List (Frame ρ α)} {p : Production τ ρ} {n : Nat}
    (h : a.unwind? stack p = some (n, rest)) :
    (a.assemble p n (stack.take p.rhs.length) :: rest).flatMap Frame.leaves ⊆
      stack.flatMap Frame.leaves := by
  obtain ⟨m, -, heq⟩ := Option.map_eq_some_iff.mp h
  cases heq
  intro x hx
  rw [← List.take_append_drop p.rhs.length stack, List.flatMap_append]
  rw [List.flatMap_cons] at hx
  rcases List.mem_append.mp hx with hx | hx
  · exact List.mem_append_left _ (a.leaves_assemble_subset p n _ hx)
  · exact List.mem_append_right _ hx

/-- When a reading advances, its leaves are its own and those that it advances with. -/
theorem leaves_advance_subset (t : Option τ) (before forest : List (Tree ρ α)) (fuel : Nat)
    (r : Reading ρ α) : ∀ r' ∈ a.advance t before forest fuel r,
      r'.leaves ⊆ leavesAll before ++ leavesAll forest ++ r.leaves := by
  induction fuel generalizing r with
  | zero => exact fun r' hr' => nomatch hr'
  | succ fuel ih =>
      intro r' hr'
      obtain ⟨u, n, -, -, rfl⟩ | ⟨-, -, rfl⟩ | ⟨p, -, n, rest, hrest, hr'⟩ := a.advance_cases hr'
      · exact List.Subset.refl _
      · exact List.subset_append_right _ _
      · apply List.Subset.trans (ih _ r' hr')
        apply List.append_subset.mpr
        constructor
        · exact List.subset_append_left _ _
        · exact List.Subset.trans (a.leaves_reduce_subset hrest) (List.subset_append_right _ _)

end Automaton

end StructModel.Grammar
