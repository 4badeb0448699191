import StructModel.Proofs.Extract.Accounting
import StructModel.Proofs.Extract.Dropped

/-!
# Which fields stay, and what is said of the others

Under `lastWins` those fields stay that no later one has the key of, in order. Each field with a key
that was there before is warned of, as a successor of the nearest field before it with the key.
Under `error` nothing is said, and the first such field ends the extraction.
-/

namespace StructModel.Extract

open Extractor

/-- The last of some fields with the key of another one. -/
def holder? (before : List Field) (f : Field) : Option Field := before.reverse.find? (sameKey f)

/-- The supersedings among some slots, with the fields that come before them. -/
def repeats (before : List Field) : List Slot → List Superseding
  | [] => []
  | s :: rest =>
    ((holder? before s.field).map fun f => ⟨f.sourceName, s⟩).toList ++
      repeats (before ++ [s.field]) rest

/-- The warning that a slot in the struct at a path has taken the key of an earlier field. -/
def Superseding.warning (path : List String) (declaration : String) (r : Superseding) :
    Diagnostic where
  severity := .warning
  message := dropText (dotted (path ++ [r.earlier])) r.slot.field.outputKey
    (dotted (path ++ [r.slot.field.sourceName]))
  declaration := some declaration
  field := some (dotted (path ++ [r.slot.field.sourceName]))
  line := some r.slot.line

section Survivors

variable {fields : List Field} {f : Field}

theorem any_sameKey_iff :
    fields.any (sameKey f) = true ↔ ∃ g ∈ fields, f.outputKey = g.outputKey := by
  simp

theorem mem_of_mem_survivors (h : f ∈ survivors fields) : f ∈ fields := by
  induction fields with
  | nil => exact h
  | cons e es ih =>
      rw [survivors] at h
      split at h
      · exact List.mem_cons_of_mem e (ih h)
      · rcases List.mem_cons.mp h with rfl | h
        · exact List.mem_cons_self
        · exact List.mem_cons_of_mem e (ih h)

/-- The holder of a key among the survivors is the last one among all fields. -/
theorem find?_survivors (fields : List Field) (f : Field) :
    (survivors fields).find? (sameKey f) = holder? fields f := by
  unfold holder?
  induction fields with
  | nil => rfl
  | cons e es ih =>
      rw [List.reverse_cons, List.find?_append, survivors, ← ih]
      by_cases hlater : es.any (sameKey e) = true
      · rw [if_pos hlater]
        obtain ⟨g, hg, hkey⟩ := any_sameKey_iff.mp hlater
        cases hfind : (survivors es).find? (sameKey f) with
        | some h => rfl
        | none =>
            have hno : ¬ sameKey f e = true := by
              intro hsame
              rw [ih, List.find?_eq_none] at hfind
              refine hfind g (List.mem_reverse.mpr hg) (sameKey_iff.mpr ?_)
              exact (sameKey_iff.mp hsame).trans hkey
            rw [List.find?_cons_of_neg hno]
            rfl
      · rw [if_neg hlater]
        by_cases hsame : sameKey f e = true
        · have hnone : (survivors es).find? (sameKey f) = none := by
            rw [ih, List.find?_eq_none]
            intro g hg hfg
            refine hlater (any_sameKey_iff.mpr ⟨g, List.mem_reverse.mp hg, ?_⟩)
            exact (sameKey_iff.mp hsame).symm.trans (sameKey_iff.mp hfg)
          rw [List.find?_cons_of_pos hsame, hnone, List.find?_cons_of_pos hsame]
          rfl
        · rw [List.find?_cons_of_neg hsame, List.find?_cons_of_neg hsame]
          exact Option.or_none.symm

/-- One more field comes last, and takes the place of the holder of its key. -/
theorem survivors_concat (fields : List Field) (f : Field) :
    survivors (fields ++ [f]) = (survivors fields).eraseP (sameKey f) ++ [f] := by
  induction fields with
  | nil => rfl
  | cons e es ih =>
      have hany : (es ++ [f]).any (sameKey e) = (es.any (sameKey e) || sameKey e f) := by simp
      rw [List.cons_append, survivors, survivors, ih, hany]
      by_cases hlater : es.any (sameKey e) = true
      · rw [hlater, Bool.true_or, if_pos rfl, if_pos rfl]
      rw [if_neg hlater, Bool.eq_false_iff.mpr hlater, Bool.false_or]
      by_cases hsame : sameKey e f = true
      · have hother : ∀ g ∈ survivors es, ¬ sameKey f g = true := by
          intro g hg hfg
          refine hlater (any_sameKey_iff.mpr ⟨g, mem_of_mem_survivors hg, ?_⟩)
          exact (sameKey_iff.mp hsame).trans (sameKey_iff.mp hfg)
        rw [if_pos hsame, List.eraseP_of_forall_not hother,
          List.eraseP_cons_of_pos (sameKey_iff.mpr (sameKey_iff.mp hsame).symm)]
      · have hno : ¬ sameKey f e = true := fun h => hsame (sameKey_iff.mpr (sameKey_iff.mp h).symm)
        rw [if_neg hsame, List.eraseP_cons_of_neg hno, List.cons_append]

/-- Every key survives. -/
theorem exists_mem_survivors (h : f ∈ fields) :
    ∃ g ∈ survivors fields, g.outputKey = f.outputKey := by
  have hsome : ((survivors fields).find? (sameKey f)).isSome = true := by
    rw [find?_survivors, holder?, List.find?_isSome]
    exact ⟨f, List.mem_reverse.mpr h, sameKey_iff.mpr rfl⟩
  obtain ⟨g, hg⟩ := Option.isSome_iff_exists.mp hsome
  exact ⟨g, List.mem_of_find?_eq_some hg, (sameKey_iff.mp (List.find?_some hg)).symm⟩

end Survivors

section Places

variable {slots : List Slot}

/-- What is kept at any time are the survivors of the fields so far. -/
theorem place_survivors (slots : List Slot) (before : List Field) :
    place .lastWins (survivors before) slots =
      .ok (survivors (before ++ slots.map Slot.field), repeats before slots) := by
  induction slots generalizing before with
  | nil =>
      rw [List.map_nil, List.append_nil]
      rfl
  | cons s rest ih =>
      have hrest := ih (before ++ [s.field])
      rw [survivors_concat, List.append_assoc] at hrest
      rw [place, find?_survivors, repeats, List.map_cons]
      cases hholder : holder? before s.field with
      | none =>
          rw [← find?_survivors, List.find?_eq_none] at hholder
          rw [List.eraseP_of_forall_not hholder] at hrest
          exact hrest
      | some earlier =>
          simp only [hrest]
          rfl

/-- Keys that are not distinct have a first one that occurred before. -/
theorem exists_first_repeat (h : ¬ (slots.map fun s => s.field.outputKey).Nodup) :
    ∃ before t after, slots = before ++ t :: after ∧
      (before.map fun s => s.field.outputKey).Nodup ∧
      t.field.outputKey ∈ before.map fun s => s.field.outputKey := by
  induction slots using List.reverseRecOn with
  | nil => exact absurd List.nodup_nil h
  | append_singleton slots s ih =>
      by_cases hnodup : (slots.map fun s => s.field.outputKey).Nodup
      · refine ⟨slots, s, [], rfl, hnodup, ?_⟩
        by_contra hmem
        rw [List.map_append, List.map_singleton, ← List.concat_eq_append] at h
        exact h (hnodup.concat hmem)
      · obtain ⟨before, t, after, rfl, hbefore, hkey⟩ := ih hnodup
        exact ⟨before, t, after ++ [s], by simp, hbefore, hkey⟩

/-- Under `error` the first key that occurred before ends the placing. -/
theorem place_error_of_first_repeat {before after : List Slot} {t : Slot}
    (hnodup : (before.map fun s => s.field.outputKey).Nodup)
    (hkey : t.field.outputKey ∈ before.map fun s => s.field.outputKey) :
    place .error [] (before ++ t :: after) = .error t.field.outputKey := by
  have hkeys : (([] ++ before.map Slot.field).map Field.outputKey).Nodup := by
    rw [List.nil_append, List.map_map]
    exact hnodup
  rw [place_append_of_nodup (t :: after) hkeys, List.nil_append, place]
  cases hfind : (before.map Slot.field).find? (sameKey t.field) with
  | none =>
      obtain ⟨s, hs, hsame⟩ := List.mem_map.mp hkey
      exact absurd hsame.symm (find?_sameKey_eq_none_iff.mp hfind _ (List.mem_map_of_mem hs))
  | some earlier => rfl

end Places

section Runs

variable {o : Options} {slots : List Slot}

/-- What settling slots comes to is told from how they are placed. -/
theorem fieldsOfSlots_of_place_ok {fields : List Field} {ss : List Superseding}
    (h : place o.duplicateKeys [] slots = .ok (fields, ss)) (s : Scope) :
    fieldsOfSlots o slots s =
      (.ok fields, ⟨s.path, s.notes ++ (ss.map Superseding.note).map (Note.below s.path)⟩) := by
  rw [run_eq (x := fieldsOfSlots o slots), result_fieldsOfSlots, notes_fieldsOfSlots, resolve, h]
  rfl

theorem fieldsOfSlots_of_place_error {key : String}
    (h : place o.duplicateKeys [] slots = .error key) (s : Scope) :
    fieldsOfSlots o slots s = (.error ⟨s.path, key⟩, s) := by
  rw [fieldsOfSlots, resolve, h]
  rfl

theorem Superseding.diagnostic_note (r : Superseding) (path : List String)
    (declaration : String) :
    (r.note.below path).diagnostic declaration = r.warning path declaration := by
  simp only [Note.diagnostic, Note.message, Note.field, Note.fieldPath, Superseding.note,
    Note.below, List.append_nil]
  rfl

end Runs

/-- Under `lastWins` the fields that no later one has the key of stay, in order, so that their keys
are distinct and every key is among them. There is one warning, in order, for each slot whose key
occurred before, which names the nearest field with the key; so each field either stays or is named
by one warning. Under `error` slots with distinct keys all stay, and nothing is said; otherwise the
first key that occurred before is that of the clash. -/
theorem fieldsOfSlots_by_policy (o : Options) (slots : List Slot) (s : Scope) :
    (o.duplicateKeys = .lastWins →
      ∃ fields added, fieldsOfSlots o slots s = (.ok fields, ⟨s.path, s.notes ++ added⟩) ∧
        fields = survivors (slots.map Slot.field) ∧
        (fields.map Field.outputKey).Nodup ∧
        (∀ t ∈ slots, ∃ f ∈ fields, f.outputKey = t.field.outputKey) ∧
        (∀ declaration, added.map (Note.diagnostic declaration) =
          (repeats [] slots).map (Superseding.warning s.path declaration)) ∧
        Accounted (fun f g => g = f) (fun f r => r.Tells f) (slots.map Slot.field) fields
          (repeats [] slots)) ∧
      (o.duplicateKeys = .error →
        ((slots.map fun t => t.field.outputKey).Nodup →
          fieldsOfSlots o slots s = (.ok (slots.map Slot.field), s)) ∧
        (¬ (slots.map fun t => t.field.outputKey).Nodup →
          ∃ before t after, slots = before ++ t :: after ∧
            (before.map fun t => t.field.outputKey).Nodup ∧
            t.field.outputKey ∈ (before.map fun t => t.field.outputKey) ∧
            fieldsOfSlots o slots s = (.error ⟨s.path, t.field.outputKey⟩, s))) := by
  constructor
  · intro hpolicy
    have hplace : place o.duplicateKeys [] slots =
        .ok (survivors (slots.map Slot.field), repeats [] slots) := by
      rw [hpolicy]
      exact place_survivors slots []
    have hplacing := placing_of_place hplace
    refine ⟨_, _, fieldsOfSlots_of_place_ok hplace s, rfl, hplacing.nodup List.nodup_nil, ?_, ?_,
      ?_⟩
    · intro t ht
      exact exists_mem_survivors (List.mem_map_of_mem ht)
    · intro declaration
      rw [List.map_map, List.map_map]
      exact List.map_congr_left fun r _ => r.diagnostic_note s.path declaration
    · have haccounted := hplacing.accounted
      rw [List.nil_append] at haccounted
      rw [← List.map_id (repeats [] slots)]
      exact haccounted.map id fun _ _ h => h.2
  · intro hpolicy
    constructor
    · intro hnodup
      have hplace : place o.duplicateKeys [] slots = .ok (slots.map Slot.field, []) := by
        refine place_of_nodup ?_
        rw [List.nil_append, List.map_map]
        exact hnodup
      rw [fieldsOfSlots_of_place_ok hplace, List.map_nil, List.map_nil, List.append_nil]
    · intro hrepeat
      obtain ⟨before, t, after, rfl, hnodup, hkey⟩ := exists_first_repeat hrepeat
      refine ⟨before, t, after, rfl, hnodup, hkey, fieldsOfSlots_of_place_error ?_ s⟩
      rw [hpolicy]
      exact place_error_of_first_repeat hnodup hkey

/-- Slots of the given names and keys, on lines of their own. -/
def numbered (names : List (String × String)) : List Slot :=
  names.mapIdx fun i p => ⟨⟨p.1, p.2, .base .int⟩, i + 4⟩

/-- A chain of three fields with one key, and one of two, that cross. -/
def crossingSlots : List Slot :=
  numbered [("A", "x"), ("B", "y"), ("C", "x"), ("D", "z"), ("E", "y"), ("F", "x")]

theorem fieldsOfSlots_by_policy_crossingSlots :
    (∃ fields added, fieldsOfSlots { duplicateKeys := .lastWins } crossingSlots ⟨["In"], []⟩ =
        (.ok fields, ⟨["In"], added⟩) ∧
      fields.map Field.sourceName = ["D", "E", "F"] ∧
      added.map (Note.diagnostic "T") =
        [⟨.warning, "field In.A dropped: output key \"x\" reused by In.C", "T", "In.C", some 6⟩,
          ⟨.warning, "field In.B dropped: output key \"y\" reused by In.E", "T", "In.E", some 8⟩,
          ⟨.warning, "field In.C dropped: output key \"x\" reused by In.F", "T", "In.F",
            some 9⟩]) ∧
      fieldsOfSlots {} (crossingSlots.take 2) ⟨["In"], []⟩ =
        (.ok ((crossingSlots.take 2).map Slot.field), ⟨["In"], []⟩) ∧
      ∃ key, fieldsOfSlots {} crossingSlots ⟨["In"], []⟩ = (.error ⟨["In"], key⟩, ⟨["In"], []⟩) := by
  refine ⟨?_, ?_, ?_⟩
  · obtain ⟨fields, added, hrun, hfields, -, -, hwarnings, -⟩ :=
      (fieldsOfSlots_by_policy { duplicateKeys := .lastWins } crossingSlots ⟨["In"], []⟩).1 rfl
    refine ⟨fields, added, hrun, ?_, ?_⟩
    · rw [hfields]
      decide
    · rw [hwarnings "T"]
      cbv
  · exact ((fieldsOfSlots_by_policy {} (crossingSlots.take 2) ⟨["In"], []⟩).2 rfl).1 (by decide)
  · obtain ⟨before, t, after, -, -, -, hrun⟩ :=
      ((fieldsOfSlots_by_policy {} crossingSlots ⟨["In"], []⟩).2 rfl).2 (by decide)
    exact ⟨t.field.outputKey, hrun⟩

end StructModel.Extract
