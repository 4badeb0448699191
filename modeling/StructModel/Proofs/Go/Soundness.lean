import StructModel.Go.Parse
import StructModel.Proofs.Go.Identifiers
import StructModel.Proofs.Go.Skeleton
import StructModel.Proofs.Grammar.Leaves
import StructModel.Proofs.Grammar.Soundness

/-!
# Parsed trees are free of errors

All readings of a text derive the skeletons of their trees while they advance, split and merge. So
the tree of a text that parses is one of the grammar. Its leaves are those that were scanned, so its
identifiers are spelled as such.
-/

namespace StructModel.Go

open StructModel.Grammar

/-- What a thread has read derives the skeletons of its trees, whose identifiers are spelled as
such. -/
structure IsSoundReading (r : Reading Rule Leaf) : Prop where
  derives : r.IsSound grammar Word.token skeleton
  spelled : ∀ x ∈ r.leaves, x.IsSpelled

/-- What a round leads to is sound, and the complete readings are final. -/
structure Front.IsSound (f : Front) : Prop where
  threads : ∀ t ∈ f.threads, IsSoundReading t.reading
  complete : ∀ r ∈ f.complete, IsSoundReading r ∧ grammar.automaton.isFinal r.stack = true

section Threads

/-- Before a token a scan passes nothing but comments. -/
theorem comments_of_scan {viable : Option Token → Bool} {c after : Cursor} {blanks : List Char}
    {comments passed : List Leaf} {t : Token} {l : Lexeme}
    (h : scan viable c blanks comments = .token passed t l after)
    (hcomments : ∀ x ∈ comments, ∃ l, x = .comment l) : ∀ x ∈ passed, ∃ l, x = .comment l := by
  fun_induction scan viable c blanks comments with
  | case1 => cases h
  | case2 =>
      cases h
      exact hcomments
  | case3 => cases h
  | case4 _ _ _ _ _ _ _ ih => exact ih h hcomments
  | case5 _ _ _ _ _ _ _ _ _ ih =>
      exact ih h (List.forall_mem_cons.mpr ⟨⟨_, rfl⟩, hcomments⟩)
  | case6 =>
      cases h
      exact hcomments
  | case7 => cases h

theorem skeleton_comments {comments : List Leaf} (h : ∀ x ∈ comments, ∃ l, x = .comment l) :
    ∀ t ∈ (comments.map .leaf : List SyntaxTree), skeleton t = [] := by
  intro t ht
  obtain ⟨x, hx, rfl⟩ := List.mem_map.mp ht
  obtain ⟨l, rfl⟩ := h x hx
  rfl

theorem isSpelled_leaves {comments : List Leaf} (h : ∀ x ∈ comments, ∃ l, x = .comment l)
    {y : Leaf} (hy : y.IsSpelled) :
    ∀ x ∈ leavesAll (comments.map .leaf : List SyntaxTree) ++ leavesAll [(.leaf y : SyntaxTree)],
      x.IsSpelled := by
  intro x hx
  rcases List.mem_append.mp hx with hx | hx
  · obtain ⟨t, ht, hx⟩ := mem_leavesAll_iff.mp hx
    obtain ⟨c, hc, rfl⟩ := List.mem_map.mp ht
    obtain ⟨l, rfl⟩ := h c hc
    obtain rfl := List.mem_singleton.mp hx
    trivial
  · obtain rfl := List.mem_singleton.mp hx
    exact hy

theorem Thread.isSound_advance {t : Thread} (ht : IsSoundReading t.reading)
    (token : Option Token) (before forest : List SyntaxTree) (after : Cursor)
    (hbefore : ∀ u ∈ before, skeleton u = [])
    (hforest : ∀ u, token = some u → Derives grammar Word.token [.token u]
      (forest.reverse.flatMap skeleton))
    (hleaves : ∀ x ∈ leavesAll before ++ leavesAll forest, x.IsSpelled) :
    ∀ s ∈ t.advance token before forest after, IsSoundReading s.reading ∧
      (token = none → grammar.automaton.isFinal s.reading.stack = true) := by
  intro s hs
  obtain ⟨r, hr, rfl⟩ := List.mem_map.mp hs
  obtain ⟨hderives, hfinal⟩ := ht.derives.advance skeleton_node hbefore hforest t.fuel r hr
  refine ⟨⟨hderives, fun x hx => ?_⟩, hfinal⟩
  have hread := grammar.automaton.leaves_advance_subset token before forest t.fuel t.reading r hr hx
  rcases List.mem_append.mp hread with hread | hown
  · exact hleaves x hread
  · exact ht.spelled x hown

theorem Front.isSound_empty : Front.IsSound {} :=
  ⟨fun _ ht => absurd ht List.not_mem_nil, fun _ hr => absurd hr List.not_mem_nil⟩

theorem Front.IsSound.step {f : Front} (hf : f.IsSound) {t : Thread}
    (ht : IsSoundReading t.reading) : (f.step t).IsSound := by
  unfold Front.step
  split
  · rename_i comments token lexeme after hscan
    have hcomments := comments_of_scan hscan fun x hx => nomatch hx
    have htoken : ∀ u, some token = some u → Derives grammar Word.token [.token u]
        ([.leaf (.token token lexeme)].reverse.flatMap skeleton) := by
      intro u hu
      cases hu
      exact Derives.token rfl .nil
    have hadvance := Thread.isSound_advance ht (some token) (comments.map .leaf)
      [.leaf (.token token lexeme)] after (skeleton_comments hcomments) htoken
      (isSpelled_leaves hcomments (isSpelled_of_scan hscan))
    exact ⟨List.forall_mem_append.mpr ⟨hf.threads, fun s hs => (hadvance s hs).1⟩, hf.complete⟩
  · have hadvance := Thread.isSound_advance ht none [] [] t.cursor (fun u hu => nomatch hu)
      (fun u hu => nomatch hu) fun x hx => nomatch hx
    refine ⟨hf.threads, List.forall_mem_append.mpr ⟨hf.complete, fun r hr => ?_⟩⟩
    obtain ⟨s, hs, rfl⟩ := List.mem_map.mp hr
    exact ⟨(hadvance s hs).1, (hadvance s hs).2 rfl⟩
  · exact ⟨hf.threads, hf.complete⟩

theorem Front.IsSound.foldl {f : Front} (hf : f.IsSound) {ts : List Thread}
    (hts : ∀ t ∈ ts, IsSoundReading t.reading) : (ts.foldl Front.step f).IsSound := by
  induction ts generalizing f with
  | nil => exact hf
  | cons t ts ih =>
      obtain ⟨ht, hts⟩ := List.forall_mem_cons.mp hts
      exact ih (hf.step ht) hts

/-- Merging makes up no threads. -/
theorem mem_mergeThread {ts : List Thread} {t s : Thread} (h : s ∈ mergeThread ts t) :
    s = t ∨ s ∈ ts := by
  induction ts with
  | nil => exact .inl (List.mem_singleton.mp h)
  | cons u us ih =>
      rw [mergeThread] at h
      split at h
      · rcases List.mem_cons.mp h with rfl | h
        · split
          · exact .inl rfl
          · exact .inr List.mem_cons_self
        · exact .inr (List.mem_cons_of_mem u h)
      · rcases List.mem_cons.mp h with rfl | h
        · exact .inr List.mem_cons_self
        · exact (ih h).imp_right (List.mem_cons_of_mem u)

theorem mem_foldl_mergeThread {ts kept : List Thread} {t : Thread}
    (h : t ∈ ts.foldl mergeThread kept) : t ∈ kept ∨ t ∈ ts := by
  induction ts generalizing kept with
  | nil => exact .inl h
  | cons u us ih =>
      rcases ih h with h | h
      · rcases mem_mergeThread h with rfl | h
        · exact .inr List.mem_cons_self
        · exact .inl h
      · exact .inr (List.mem_cons_of_mem u h)

theorem mem_of_mem_merge {ts : List Thread} {t : Thread} (h : t ∈ merge ts) : t ∈ ts := by
  unfold merge at h
  split at h
  · exact h
  · exact h
  · exact (mem_foldl_mergeThread h).resolve_left List.not_mem_nil

theorem heaviest_mem (best : Reading Rule Leaf) (rs : List (Reading Rule Leaf)) :
    heaviest best rs ∈ best :: rs := by
  induction rs generalizing best with
  | nil => exact List.mem_singleton_self best
  | cons r rs ih =>
      rw [heaviest]
      rcases List.mem_cons.mp (ih (if best.weight < r.weight then r else best)) with heq | hmem
      · rw [heq]
        split
        · exact List.mem_cons_of_mem best List.mem_cons_self
        · exact List.mem_cons_self
      · exact List.mem_cons_of_mem best (List.mem_cons_of_mem r hmem)

/-- Rounds keep threads sound, up to a reading that is complete. -/
theorem isSound_of_run {fuel : Nat} {ts : List Thread} {impasses : List Impasse}
    {r : Reading Rule Leaf} (hts : ∀ t ∈ ts, IsSoundReading t.reading)
    (h : run fuel ts impasses = .ok r) :
    IsSoundReading r ∧ grammar.automaton.isFinal r.stack = true := by
  induction fuel generalizing ts impasses with
  | zero => cases h
  | succ fuel ih =>
      cases ts with
      | nil => cases h
      | cons t ts =>
          rw [run] at h
          simp only [List.partition_eq_filter_filter] at h
          have hfront : ∀ p : Thread → Bool,
              (((t :: ts).filter p).foldl Front.step {}).IsSound := fun p =>
            Front.isSound_empty.foldl fun u hu => hts u (List.mem_filter.mp hu).1
          split at h
          · rename_i first rest hcomplete
            cases h
            have hmem := heaviest_mem first rest
            rw [← hcomplete] at hmem
            exact (hfront _).complete _ hmem
          · refine ih (fun u hu => ?_) h
            rcases List.mem_append.mp (mem_of_mem_merge hu) with hu | hu
            · exact hts u (List.mem_filter.mp hu).1
            · exact (hfront _).threads u hu

end Threads

/-- The tree of a complete reading is free of errors. -/
theorem isErrorFree_rootTree {r : Reading Rule Leaf} (h : IsSoundReading r)
    (hfinal : grammar.automaton.isFinal r.stack = true) : IsErrorFree (rootTree r) := by
  obtain ⟨symbols, hrun⟩ := h.derives
  obtain ⟨f, rest, hstack, hbefore, hderives⟩ := hrun.of_isFinal hfinal
  unfold rootTree
  rw [hstack]
  split
  · rename_i comments rule children _ heq
    cases heq
    have hcomments : comments.reverse.flatMap skeleton = [] :=
      List.flatMap_eq_nil_iff.mpr fun t ht => hbefore t (List.mem_reverse.mp ht)
    rw [List.reverse_singleton, List.flatMap_singleton, skeleton_node] at hderives
    rw [IsErrorFree, skeleton_node, List.flatMap_append, hcomments]
    exact hderives
  · have hrow : [] ∈ grammar.rows .sourceFile := by decide
    exact Derives.node rfl hrow .nil .nil

/-- It has no leaves but those of the reading. -/
theorem leaves_rootTree_subset (r : Reading Rule Leaf) : (rootTree r).leaves ⊆ r.leaves := by
  intro x hx
  unfold rootTree at hx
  split at hx
  · rename_i state comments rule children below hstack
    have hframe : x ∈ Frame.leaves ⟨state, comments, [.node rule children]⟩ := by
      rw [Tree.leaves, leavesAll_append] at hx
      rw [Frame.leaves]
      simpa [mem_leavesAll_iff, leavesAll, Tree.leaves] using hx
    rw [Reading.leaves, hstack]
    exact List.mem_append_left _ hframe
  · cases hx

/-- The tree of a text that parses is that of a complete reading. -/
theorem exists_reading_of_parse {text : String} {t : SyntaxTree} (h : parse text = .ok t) :
    ∃ r, IsSoundReading r ∧ grammar.automaton.isFinal r.stack = true ∧ t = rootTree r := by
  unfold parse at h
  simp only at h
  split at h
  · rename_i r hrun
    cases h
    have hstart : ∀ t ∈ [(⟨Cursor.ofText text, Reading.initial⟩ : Thread)],
        IsSoundReading t.reading := by
      intro t ht
      rw [List.mem_singleton.mp ht]
      exact ⟨Reading.isSound_initial, fun x hx => nomatch hx⟩
    obtain ⟨hsound, hfinal⟩ := isSound_of_run hstart hrun
    exact ⟨r, hsound, hfinal, rfl⟩
  · cases h
  · cases h

/-- The tree of a text that parses is free of errors. -/
theorem isErrorFree_of_parse {text : String} {t : SyntaxTree} (h : parse text = .ok t) :
    IsErrorFree t := by
  obtain ⟨r, hsound, hfinal, rfl⟩ := exists_reading_of_parse h
  exact isErrorFree_rootTree hsound hfinal

/-- The identifiers in it are spelled as such. -/
theorem isSpelled_of_parse {text : String} {t : SyntaxTree} (h : parse text = .ok t) :
    ∀ x ∈ t.leaves, x.IsSpelled := by
  obtain ⟨r, hsound, -, rfl⟩ := exists_reading_of_parse h
  exact fun x hx => hsound.spelled x (leaves_rootTree_subset r hx)

end StructModel.Go
