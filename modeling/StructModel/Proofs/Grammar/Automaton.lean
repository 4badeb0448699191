import Mathlib.Data.List.Basic
import StructModel.Grammar.Automaton

/-!
# What the states of an automaton stand for

Every item of a state has come about by moving the dot of an item that the state before it waits
with, over the symbol that leads from the one state to the other. A production is complete in a
state when one of these items has its dot at the end. Both are kept while the states are built.
-/

namespace StructModel.Grammar

variable {τ ρ : Type} [DecidableEq τ] [Hashable τ] [DecidableEq ρ] [Hashable ρ]

/-- The item with its dot one symbol further on. -/
def Item.next (i : Item) : Item := ⟨i.production, i.dot + 1⟩

/-- All items of a kernel come from some items by moving their dots over a symbol. -/
def Plan.Reaches (plan : Plan τ ρ) (items : List Item) (s : Symbol τ ρ) (kernel : List Item) :
    Prop :=
  ∀ i ∈ kernel, ∃ j ∈ items, plan.next? j = some s ∧ i = j.next

/-- The moves of a state lead to kernels that it reaches, and what is complete in it is the
production of an item with nothing behind its dot. -/
structure Plan.IsSound (plan : Plan τ ρ) (kernels : Nat → Option (List Item)) (s : State τ ρ) :
    Prop where
  moves : ∀ (symbol : Symbol τ ρ) (n : Nat), s.moves[symbol]? = some n →
    ∃ kernel, kernels n = some kernel ∧ plan.Reaches (plan.closure s.kernel) symbol kernel
  complete : ∀ p ∈ s.complete, ∃ i ∈ plan.closure s.kernel, i.production = p ∧ plan.next? i = none

def Growth.kernel? (g : Growth τ ρ) (n : Nat) : Option (List Item) := g.states[n]?.map State.kernel

structure Growth.IsSound (plan : Plan τ ρ) (g : Growth τ ρ) : Prop where
  numbers : ∀ (kernel : List Item) (n : Nat), g.numbers[kernel]? = some n →
    g.kernel? n = some kernel
  states : ∀ s ∈ g.states, plan.IsSound g.kernel? s

variable {plan : Plan τ ρ}

theorem Plan.IsSound.mono {kernels kernels' : Nat → Option (List Item)} {s : State τ ρ}
    (hk : ∀ n kernel, kernels n = some kernel → kernels' n = some kernel)
    (h : plan.IsSound kernels s) : plan.IsSound kernels' s where
  moves symbol n hn := by
    obtain ⟨kernel, hkernel, hreach⟩ := h.moves symbol n hn
    exact ⟨kernel, hk n kernel hkernel, hreach⟩
  complete := h.complete

/-- The closure adds only items that have read nothing yet. -/
theorem Plan.mem_closure {kernel : List Item} {i : Item} (h : i ∈ plan.closure kernel) :
    i ∈ kernel ∨ i.dot = 0 := by
  rcases List.mem_append.mp h with h | h
  · exact .inl h
  · obtain ⟨r, -, h⟩ := List.mem_flatMap.mp h
    obtain ⟨p, -, rfl⟩ := List.mem_map.mp h
    exact .inr rfl

theorem Plan.reaches_of_mem_successors {items : List Item} {s : Symbol τ ρ} {kernel : List Item}
    (h : (s, kernel) ∈ plan.successors items) : plan.Reaches items s kernel := by
  unfold Plan.successors at h
  obtain ⟨t, -, heq⟩ := List.mem_map.mp h
  obtain ⟨rfl, rfl⟩ := Prod.mk.inj heq
  intro i hi
  rw [List.mem_mergeSort] at hi
  revert i
  refine List.foldlRecOn
    (motive := fun (groups : List (Symbol τ ρ) × Std.HashMap (Symbol τ ρ) (List Item)) =>
      plan.Reaches items t (groups.2.getD t [])) items _ ?_ ?_
  · simp [Plan.Reaches]
  · rintro ⟨order, groups⟩ hgroups j hj
    cases hnext : plan.next? j with
    | none => exact hgroups
    | some u =>
        intro i hi
        simp only [Std.HashMap.getD_insert] at hi
        split at hi
        · rename_i hu
          obtain rfl := eq_of_beq hu
          rcases List.mem_cons.mp hi with rfl | hi
          · exact ⟨j, hj, hnext, rfl⟩
          · exact hgroups i hi
        · exact hgroups i hi

section Growth

variable {g : Growth τ ρ}

/-- The number of a kernel is that of a state with it, and no kernel loses its number. -/
theorem Growth.IsSound.number (h : g.IsSound plan) (kernel : List Item) :
    (g.number kernel).2.IsSound plan ∧
      (g.number kernel).2.kernel? (g.number kernel).1 = some kernel ∧
      ∀ n k, g.kernel? n = some k → (g.number kernel).2.kernel? n = some k := by
  unfold Growth.number
  cases hnumber : g.numbers[kernel]? with
  | some n => exact ⟨h, h.numbers kernel n hnumber, fun m k hk => hk⟩
  | none =>
      have hpush : ∀ n, (⟨g.states.push { kernel := kernel }, g.numbers.insert kernel g.states.size⟩ :
          Growth τ ρ).kernel? n = if n = g.states.size then some kernel else g.kernel? n := by
        intro n
        simp only [Growth.kernel?, Array.getElem?_push]
        split <;> rfl
      have hkeep : ∀ n k, g.kernel? n = some k →
          (⟨g.states.push { kernel := kernel }, g.numbers.insert kernel g.states.size⟩ :
            Growth τ ρ).kernel? n = some k := by
        intro n k hk
        have hne : n ≠ g.states.size := by
          rintro rfl
          simp [Growth.kernel?] at hk
        rw [hpush, if_neg hne, hk]
      refine ⟨⟨?_, ?_⟩, ?_, hkeep⟩
      · intro k n hn
        rw [Std.HashMap.getElem?_insert] at hn
        split at hn
        · rename_i hkernel
          cases hn
          rw [hpush, if_pos rfl, eq_of_beq hkernel]
        · exact hkeep n k (h.numbers k n hn)
      · intro s hs
        rcases Array.mem_push.mp hs with hs | rfl
        · exact (h.states s hs).mono hkeep
        · exact ⟨fun symbol n hn => by simp at hn, fun p hp => nomatch hp⟩
      · rw [hpush, if_pos rfl]

/-- Moves lead from some items to the kernels that these reach, while the kernels of an earlier
growth keep their numbers. -/
structure Growth.IsFilling (plan : Plan τ ρ) (g : Growth τ ρ) (items : List Item)
    (result : Std.HashMap (Symbol τ ρ) Nat × Growth τ ρ) : Prop where
  sound : result.2.IsSound plan
  keeps : ∀ n k, g.kernel? n = some k → result.2.kernel? n = some k
  reaches : ∀ (s : Symbol τ ρ) (n : Nat), result.1[s]? = some n →
    ∃ k, result.2.kernel? n = some k ∧ plan.Reaches items s k

theorem Growth.IsFilling.insert {items kernel : List Item} {s : Symbol τ ρ}
    {moves : Std.HashMap (Symbol τ ρ) Nat} {g' : Growth τ ρ} (h : g.IsFilling plan items (moves, g'))
    (hreach : plan.Reaches items s kernel) :
    g.IsFilling plan items (moves.insert s (g'.number kernel).1, (g'.number kernel).2) := by
  obtain ⟨hsound, hnumber, hkeep⟩ := h.sound.number kernel
  refine ⟨hsound, fun n k hk => hkeep n k (h.keeps n k hk), ?_⟩
  intro t n hn
  simp only [Std.HashMap.getElem?_insert] at hn
  split at hn
  · rename_i hst
    cases hn
    obtain rfl := eq_of_beq hst
    exact ⟨kernel, hnumber, hreach⟩
  · obtain ⟨k, hk, hreach⟩ := h.reaches t n hn
    exact ⟨k, hkeep n k hk, hreach⟩

theorem Growth.IsSound.fill (h : g.IsSound plan) {n : Nat} {kernel : List Item}
    (hn : g.kernel? n = some kernel) :
    (g.fill plan n kernel).IsSound plan ∧
      ∀ m k, g.kernel? m = some k → (g.fill plan n kernel).kernel? m = some k := by
  unfold Growth.fill
  simp only
  generalize hresult : List.foldl _ _ _ = result
  have hfilling : g.IsFilling plan (plan.closure kernel) result := by
    rw [← hresult]
    refine List.foldlRecOn _ _ ⟨h, fun n k hk => hk, fun s n hn => by simp at hn⟩ ?_
    intro result hresult p hp
    exact hresult.insert (Plan.reaches_of_mem_successors hp)
  obtain ⟨moves, g'⟩ := result
  have hsame : ∀ complete m,
      ({ g' with states := g'.states.setIfInBounds n ⟨kernel, moves, complete⟩ } :
        Growth τ ρ).kernel? m = g'.kernel? m := by
    intro complete m
    simp only [Growth.kernel?, Array.getElem?_setIfInBounds]
    split
    · rename_i hm
      subst hm
      have hkernel := hfilling.keeps n kernel hn
      split
      · exact hkernel.symm
      · rename_i hsize
        obtain ⟨s, hs, -⟩ := Option.map_eq_some_iff.mp hkernel
        exact absurd (Array.getElem?_eq_some_iff.mp hs).1 hsize
    · rfl
  refine ⟨⟨?_, ?_⟩, ?_⟩
  · intro k m hm
    rw [hsame]
    exact hfilling.sound.numbers k m hm
  · intro s hs
    rw [funext (hsame _)]
    rcases Array.mem_or_eq_of_mem_setIfInBounds hs with hs | rfl
    · exact hfilling.sound.states s hs
    · refine ⟨hfilling.reaches, fun p hp => ?_⟩
      obtain ⟨i, hi, hp⟩ := List.mem_filterMap.mp hp
      split at hp
      · rename_i hnext
        exact ⟨i, hi, Option.some.inj hp, Option.isNone_iff_eq_none.mp hnext⟩
      · cases hp
  · intro m k hk
    rw [hsame]
    exact hfilling.keeps m k hk

end Growth

theorem isSound_grow (fuel n : Nat) {g : Growth τ ρ} (h : g.IsSound plan) :
    (grow plan fuel n g).IsSound plan ∧
      ∀ m k, g.kernel? m = some k → (grow plan fuel n g).kernel? m = some k := by
  induction fuel generalizing n g with
  | zero => exact ⟨h, fun m k hk => hk⟩
  | succ fuel ih =>
      rw [grow]
      cases hn : g.states[n]? with
      | none => exact ⟨h, fun m k hk => hk⟩
      | some s =>
          have hs : g.kernel? n = some s.kernel := by rw [Growth.kernel?, hn, Option.map_some]
          obtain ⟨hfill, hkeep⟩ := h.fill hs
          obtain ⟨hgrow, hkeep'⟩ := ih (n + 1) hfill
          exact ⟨hgrow, fun m k hk => hkeep' m k (hkeep m k hk)⟩

/-- The growth that begins with the item of the whole text. -/
theorem isSound_start (plan : Plan τ ρ) :
    Growth.IsSound plan ⟨#[{ kernel := [⟨0, 0⟩] }], {([⟨0, 0⟩], 0)}⟩ := by
  refine ⟨fun kernel n hn => ?_, fun s hs => ?_⟩
  · rw [Std.HashMap.singleton_eq_insert, Std.HashMap.getElem?_insert] at hn
    split at hn
    · rename_i hkernel
      cases hn
      rw [← eq_of_beq hkernel]
      rfl
    · simp at hn
  · obtain rfl := List.mem_singleton.mp (Array.mem_def.mp hs)
    exact ⟨fun symbol n hn => by simp at hn, fun p hp => nomatch hp⟩

/-- The kernels of the states of an automaton. -/
def RuleSet.kernel? (g : RuleSet τ ρ) (n : Nat) : Option (List Item) :=
  g.automaton.states[n]?.map State.kernel

theorem exists_grow (g : RuleSet τ ρ) :
    ∃ fuel, g.automaton.states =
      (grow g.plan fuel 0 ⟨#[{ kernel := [⟨0, 0⟩] }], {([⟨0, 0⟩], 0)}⟩).states :=
  ⟨stateLimit, by simp only [RuleSet.automaton]⟩

/-- The states of an automaton are sound, and in the first one nothing has been read. -/
theorem isSound_automaton (g : RuleSet τ ρ) :
    g.kernel? 0 = some [⟨0, 0⟩] ∧ ∀ s ∈ g.automaton.states, g.plan.IsSound g.kernel? s := by
  obtain ⟨fuel, hstates⟩ := exists_grow g
  obtain ⟨hgrow, hkeep⟩ := isSound_grow fuel 0 (isSound_start g.plan)
  have hkernel : g.kernel? = Growth.kernel? _ := funext fun n => by
    rw [RuleSet.kernel?, hstates, ← Growth.kernel?]
  rw [hkernel, hstates]
  exact ⟨hkeep 0 [⟨0, 0⟩] rfl, hgrow.states⟩

end StructModel.Grammar
