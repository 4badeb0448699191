import StructModel.Grammar.Reading

/-!
# Steps of readings

A reading advances in steps. Each step is a reduction, and the last one shifts the token or finds
the text at its end complete.
-/

namespace StructModel.Grammar

variable {τ ρ α : Type} [DecidableEq τ] [Hashable τ] [DecidableEq ρ] [Hashable ρ]

omit [DecidableEq τ] [Hashable τ] [DecidableEq ρ] [Hashable ρ] in
theorem mem_of_mem_settle {levels : List Int} {ps : List (Production τ ρ)} {p : Production τ ρ}
    (h : p ∈ (settle levels ps).2) : p ∈ ps := by
  unfold settle at h
  split at h
  · exact h
  · grind

namespace Automaton

variable (a : Automaton τ ρ)

/-- What comes before a token are reductions, and the state that it leads to is that of a move. -/
theorem actions_spec (t : Option τ) (fuel : Nat) (stack : List (Frame ρ α)) :
    (∀ p ∈ (a.actions t fuel stack).2, p ∈ a.reductions stack) ∧
      ∀ n, (a.actions t fuel stack).1 = some n → ∃ u, t = some u ∧ a.shift? stack u = some n := by
  have hviable : ∀ p ∈ strongest (a.viableReductions t fuel stack), p ∈ a.reductions stack := by
    intro p hp
    exact (List.mem_filter.mp (List.mem_filter.mp hp).1).1
  unfold actions
  cases t with
  | none => exact ⟨hviable, fun n hn => nomatch hn⟩
  | some t =>
      cases hshift : a.shift? stack t with
      | none => exact ⟨by simpa only [hshift] using hviable, fun n hn => by simp [hshift] at hn⟩
      | some m =>
          simp only [hshift]
          refine ⟨fun p hp => hviable p (mem_of_mem_settle hp), fun n hn => ?_⟩
          split at hn
          · cases hn
            exact ⟨t, rfl, hshift⟩
          · cases hn

/-- The first step of a reading that advances: it shifts the token, or it is complete at the end of
the text, or it makes a reduction and goes on from there. -/
theorem advance_cases {t : Option τ} {before forest : List (Tree ρ α)} {fuel : Nat}
    {r r' : Reading ρ α} (h : r' ∈ a.advance t before forest (fuel + 1) r) :
    (∃ u n, t = some u ∧ a.shift? r.stack u = some n ∧
      r' = ⟨⟨n, before, forest⟩ :: r.stack, r.weight⟩) ∨
    (t = none ∧ a.isFinal r.stack = true ∧ r' = r) ∨
    ∃ p ∈ a.reductions r.stack, ∃ n rest, a.unwind? r.stack p = some (n, rest) ∧
      r' ∈ a.advance t before forest fuel
        ⟨a.assemble p n (r.stack.take p.rhs.length) :: rest, r.weight + p.weight⟩ := by
  obtain ⟨hreductions, hshift⟩ := a.actions_spec t fuel r.stack
  rw [advance] at h
  generalize a.actions t fuel r.stack = actions at h hreductions hshift
  obtain ⟨shift, ps⟩ := actions
  rcases List.mem_append.mp h with h | h
  · cases shift with
    | some n =>
        obtain ⟨u, hu, hmove⟩ := hshift n rfl
        exact .inl ⟨u, n, hu, hmove, List.mem_singleton.mp h⟩
    | none =>
        have hmem : r' ∈ if t.isNone && a.isFinal r.stack then [r] else [] := h
        split at hmem
        · rename_i hfinal
          obtain ⟨hnone, hfinal⟩ := Bool.and_eq_true_iff.mp hfinal
          exact .inr (.inl ⟨Option.isNone_iff_eq_none.mp hnone, hfinal, List.mem_singleton.mp hmem⟩)
        · cases hmem
  · obtain ⟨p, hp, h⟩ := List.mem_flatMap.mp h
    cases hrest : a.unwind? r.stack p with
    | none =>
        simp only [hrest] at h
        cases h
    | some next =>
        obtain ⟨n, rest⟩ := next
        simp only [hrest] at h
        exact .inr (.inr ⟨p, hreductions p hp, n, rest, hrest, h⟩)

end Automaton

end StructModel.Grammar
